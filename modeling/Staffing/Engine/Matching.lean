import Staffing.Crew.Selection
import Staffing.Engine.Basic
import Staffing.Lock.Promote

/-!
# Matching

* `Engine.ranking` — the candidates of criteria, best first
* `Engine.matchProviders`, `Engine.matchTeam` — who would go
* `Engine.ensureTeam`, `Engine.ensureProviders` — may this team, may these providers go?
* `Engine.choose`, `Engine.commitChoice`, `Engine.autoAssign` — who goes to a stored job; that,
  committed; both
* `Selection.commit` — the transaction that commits a choice, after looking again at all that
  could have changed since it was made
-/

namespace Staffing

namespace Engine

/-- The candidates of criteria, best first. -/
def ranking (criteria : Criteria) (now : Instant) : EngineWork (List Scored) := do
  ofExcept (checkHeadcount criteria.requiredMembers)
  let e ← get
  let candidates := e.store.tables.candidates e.config criteria now
  let ceiling ← priceCeiling criteria
  let w ← weights
  pure (rank candidates { criteria with priceCeiling := ceiling } w e.config.scoring)

/-- The ids of the best candidates, `limit` at most. -/
def matchProviders (criteria : Criteria) (limit : Nat) : EngineWork (List String) := do
  let ranked ← ranking criteria (← clock)
  pure ((ranked.take limit).map (·.providerId))

/-- The rows of the best candidates, `limit` at most. -/
def preview (criteria : Criteria) (limit : Nat) : EngineWork (List Scored) := do
  let ranked ← ranking criteria (← clock)
  pure (ranked.take limit)

/-- The active team that would send `required` members. -/
def matchTeamAt (criteria : Criteria) (required : Nat) (now : Instant) :
    EngineWork (Option TeamMatch) := do
  ofExcept (checkHeadcount required)
  let ranked ← ranking criteria now
  let teams ← ask Tables.activeTeams
  pure (pickTeam teams criteria.service (rankedLoads ranked) required)

/-- The active team that would send `required` members now. -/
def matchTeam (criteria : Criteria) (required : Nat) : EngineWork (Option TeamMatch) := do
  matchTeamAt criteria required (← clock)

/-- The first `required` members of a team who may go. -/
def ensureTeam (teamId : String) (criteria : Criteria) (required : Nat) :
    EngineWork (List String) := do
  ofExcept (checkHeadcount required)
  let team ← onStore (Work.demand .team teamId (Tables.team? · teamId))
  if !team.active then refuse (.invalid (.inactiveTeam teamId))
  let ids := team.members.map (·.providerId)
  let ranked ← ranking (criteria.restrictedTo ids) (← clock)
  ofExcept (eligibleMembers team (ranked.map (·.providerId)) required)

/-- Refuses the first of the ids that no provider has. -/
def requireProviders (ids : List String) : EngineWork Unit := do
  let t ← ask id
  match ids.find? (!t.hasProvider ·) with
  | some missing => refuse (.notFound .provider missing)
  | none => pure ()

/-- Refuses a list of providers who may not all go. -/
def ensureProviders (ids : List String) (criteria : Criteria) : EngineWork Unit := do
  if ids.isEmpty then refuse (.invalid .emptyProviderList)
  requireProviders ids
  let ranked ← ranking (criteria.restrictedTo ids) (← clock)
  ofExcept (checkProviderList ids (ranked.map (·.providerId)))

end Engine

/-! ## Committing a choice -/

/-- Why a chosen provider cannot be assigned to the job after all. -/
def Job.assignFault (j : Job) (t : Tables) (now : Instant) (providerId : String) : Option Fault :=
  if t.hasConflict providerId j.window (some j.id) then
    some (.conflict (.providerAlreadyAssigned providerId))
  else if t.providerLocked providerId j.window now (some j.id) then
    some (.conflict (.providerAlreadyLocked providerId))
  else none

/-- Commits a choice for the job `j` as it was read when the choice was made. Nothing is done when
the stored job is no longer pending or already has a live assignment; a provider who has been
assigned or locked meanwhile is a failure. -/
def Selection.commitJoined (selection : Selection) (j : Job) (now : Instant) : Work Bool := do
  let stored ← Work.demand .job j.id (Tables.job? · j.id)
  let assigned ← Work.ask (Tables.assignmentsFor · j.id)
  if !stored.isPending || !assigned.isEmpty then return false
  match ← Work.ask fun t => selection.providerIds.findSome? (j.assignFault t now) with
  | some fault => Work.refuse fault
  | none =>
    let _ ← Work.collect (Promotion.assign j selection.teamId? now) selection.providerIds
    Work.write (Tables.markMatched j.id now)
    return true

/-- Commits a choice as one transaction. -/
def Selection.commit (selection : Selection) (j : Job) (now : Instant) : Work Bool :=
  Work.atomic (selection.commitJoined j now)

namespace Engine

/-- Who should go to a job, if there are enough. -/
def propose (j : Job) (now : Instant) : EngineWork (Option Selection) := do
  let ranked ← ranking (.ofJob j) now
  let teams ← ask Tables.activeTeams
  let selection := Selection.choose teams j.service ranked j.requiredMembers
  pure (if selection.providerIds.length < j.requiredMembers then none else some selection)

/-- A stored job that is pending, and who should go to it, if there are enough. -/
def choose (jobId : String) (now : Instant) : EngineWork (Option (Job × Selection)) := do
  let j ← onStore (Work.demand .job jobId (Tables.job? · jobId))
  if !j.isPending then return none
  pure ((← propose j now).map (j, ·))

/-- Commits a choice, if there is one, and tells of it. -/
def commitChoice (now : Instant) : Option (Job × Selection) → EngineWork (Option Selection)
  | none => pure none
  | some (j, selection) => do
    if ← onStore (selection.commit j now) then
      dispatch now [.jobMatched j.id selection.providerIds selection.teamId?]
      return some selection
    else return none

/-- Chooses who goes to a pending job and commits the choice. -/
def autoAssign (jobId : String) (now : Instant) : EngineWork (Option Selection) := do
  commitChoice now (← choose jobId now)

end Engine

end Staffing
