import Staffing.Ranking.Score
import Staffing.Roster.Place
import Staffing.Tables.Locks

/-!
# Finding candidates

The providers for a service who could take a job: none with a time off, a blocking assignment or a
live lock of another job in the window, and, unless all are wanted, none who is not available.

* `Provider.candidate` — a provider as a candidate
* `Tables.isBusy` — may the provider not be asked at all?
* `Tables.candidates` — the candidates, by id
-/

namespace Staffing

/-- Is the provider off, assigned or held by another job in the window? -/
def Tables.isBusy (t : Tables) (criteria : Criteria) (now : Instant) (p : Provider) : Bool :=
  timeOffOverlaps p.timeOff criteria.window
    || t.hasConflict p.id criteria.window criteria.excludeJob
    || t.providerLocked p.id criteria.window now criteria.excludeJob

/-- A provider as a candidate. -/
def Provider.candidate (p : Provider) (t : Tables) (config : Config) (criteria : Criteria)
    (now : Instant) : Candidate :=
  let coverage := Coverage.resolve p.slots p.timeOff criteria.window config.bufferMinutes
  let history := t.history p.id criteria.clientId now config.scoring.reliabilityDays
  { provider := p
    tier := coverage.tier
    distance := p.distanceTo criteria.city criteria.postalCode config.scoring.maxDistance
    load := Float.ofNat history.forwardLoad + coverage.load
    history }

/-- Is the candidate available, with a finite load? -/
def Candidate.isUsable (c : Candidate) : Bool := c.tier.isAvailable && c.load.isFinite

/-- The candidates for a job, by id. -/
def Tables.candidates (t : Tables) (config : Config) (criteria : Criteria) (now : Instant) :
    List Candidate :=
  let found := t.findProviders criteria.service criteria.ecoRequired criteria.providerIds
  let free := found.filter fun p => !t.isBusy criteria now p
  (free.map (·.candidate t config criteria now)).filter fun c =>
    c.isUsable || criteria.includeUnavailable

end Staffing
