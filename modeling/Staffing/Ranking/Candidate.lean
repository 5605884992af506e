import Staffing.Demand.Job
import Staffing.Roster.Availability

/-!
# Criteria and candidates

* `Criteria` — what a job asks of a provider
* `Criteria.ofJob` — the criteria of a stored job, on which its own rows never count against it
* `Candidate` — a provider who was looked at, with what the ranking needs to know
-/

namespace Staffing

/-- What a job asks of a provider. -/
structure Criteria where
  service : String := "standard"
  ecoRequired : Bool := false
  window : Window
  city : Option String := none
  postalCode : Option String := none
  clientId : Option String := none
  /-- The job that is matched; its own assignments and locks do not count against a provider. -/
  excludeJob : Option String := none
  /-- Only these providers; all of them when absent. -/
  providerIds : Option (List String) := none
  requiredMembers : Nat := 1
  priceCeiling : Option Float := none
  surface : Option Float := none
  /-- Keep the candidates who are not available too. -/
  includeUnavailable : Bool := false
  deriving Inhabited

namespace Criteria

/-- The criteria of a job. -/
def ofJob (j : Job) : Criteria where
  service := j.service
  ecoRequired := j.ecoPreference
  window := j.window
  city := j.city
  postalCode := j.postalCode
  clientId := some j.clientId
  excludeJob := some j.id
  requiredMembers := j.requiredMembers
  surface := j.surface

/-- The same criteria for these providers only. -/
def restrictedTo (c : Criteria) (ids : List String) : Criteria := { c with providerIds := some ids }

end Criteria

/-- What a provider's assignments tell. -/
structure History where
  /-- Assignments that began within the reliability window. -/
  recentAssignments : Nat := 0
  /-- Those of them that were cancelled. -/
  recentCancellations : Nat := 0
  /-- All assignments that were not cancelled. -/
  totalAssignments : Nat := 0
  /-- Has the provider completed an assignment for the client? -/
  servedClient : Bool := false
  /-- Blocking assignments still to come. -/
  forwardLoad : Nat := 0
  deriving DecidableEq, Repr, Inhabited

/-- A provider who was looked at for a job. -/
structure Candidate where
  provider : Provider
  tier : Tier
  distance : Float
  /-- The assignments to come, plus the share of the weekly time that the job takes. -/
  load : Float
  history : History
  deriving Inhabited

end Staffing
