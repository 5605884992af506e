import Staffing.Lock.Manage

/-!
# Promotion

A pending job without live assignments is staffed from its usable locks, those that are confirmed
and have not lapsed. The earliest lock on a team that has enough free members decides; if there is
none, the earliest locks on enough different free providers do. A provider is free when no blocking
assignment on another job overlaps the window.

The locks that decided are released and their units stay booked, as work that is now committed.
All other live locks of the job are released and give their units back.

* `Promotion.choice?` — who goes, by which locks
* `Promotion.promote` — the transaction
-/

namespace Staffing

/-- Who goes to a job, by which locks. -/
structure PromotionChoice where
  teamId : Option String
  providerIds : List String
  lockIds : List String
  deriving DecidableEq, Repr, Inhabited

/-- What a promotion did. -/
structure Promotion where
  jobId : String
  teamId : Option String
  providerIds : List String
  assignments : List Assignment
  /-- The locks that decided. -/
  promotedLockIds : List String
  /-- The other live locks of the job. -/
  releasedLockIds : List String
  deriving DecidableEq, Repr, Inhabited

namespace Promotion

/-- Has the provider no blocking assignment on another job in the window? -/
def isFree (t : Tables) (j : Job) (providerId : String) : Bool :=
  !t.hasConflict providerId j.window (some j.id)

/-- The free members of a team, in member order. -/
def freeMembers (t : Tables) (j : Job) (team : Team) : List String :=
  (team.orderedMembers.map (·.providerId)).filter (isFree t j)

/-- Who goes by a lock on a team, if the team has enough free members. -/
def byTeamLock? (t : Tables) (j : Job) (l : Lock) : Option PromotionChoice := do
  let teamId ← l.target.teamId?
  let team ← t.team? teamId
  let free := freeMembers t j team
  if j.requiredMembers ≤ free.length then
    some ⟨some teamId, free.take j.requiredMembers, [l.id]⟩
  else none

/-- The locks on different free providers, each provider by the first; `seen` came before. -/
def freeProviderLocks (t : Tables) (j : Job) : List String → List Lock → List (String × String)
  | _, [] => []
  | seen, l :: rest =>
    match l.target.providerId? with
    | none => freeProviderLocks t j seen rest
    | some id =>
      if seen.contains id then freeProviderLocks t j seen rest
      else if isFree t j id then (id, l.id) :: freeProviderLocks t j (id :: seen) rest
      else freeProviderLocks t j (id :: seen) rest

/-- Who goes by locks on providers, if there are enough. -/
def byProviderLocks? (t : Tables) (j : Job) (usable : List Lock) : Option PromotionChoice :=
  let free := freeProviderLocks t j [] usable
  if j.requiredMembers ≤ free.length then
    let picked := free.take j.requiredMembers
    some ⟨none, picked.map (·.1), picked.map (·.2)⟩
  else none

/-- Who goes by the usable locks of a job, in the order they came. -/
def choice? (t : Tables) (j : Job) (usable : List Lock) : Option PromotionChoice :=
  if usable.isEmpty then none
  else usable.findSome? (byTeamLock? t j) <|> byProviderLocks? t j usable

/-- A scheduled assignment of a provider to a job. -/
def scheduled (j : Job) (teamId : Option String) (providerId : String) (now : Instant)
    (id : String) : Assignment :=
  { id, jobId := j.id, providerId, teamId
    start := j.start
    stop := j.stop
    status := .scheduled
    createdAt := now }

/-- Stores a scheduled assignment of a provider. -/
def assign (j : Job) (teamId : Option String) (now : Instant) (providerId : String) :
    Work Assignment := do
  let id ← Work.draw .assignment
  let a := scheduled j teamId providerId now id
  Work.run (Tables.insertAssignment a)
  pure a

/-- Releases a live lock of a promoted job. -/
def settle (lockIds : List String) (now : Instant) (l : Lock) : Work Unit := do
  if lockIds.contains l.id then
    Work.write (Tables.setLockState l.id .released (some .promoted) l.expiresAt now)
  else
    let _ ← Locks.releaseOne .promoted now l

/-- Staffs a pending job by its usable locks. -/
def promoteJoined (jobId : String) (now : Instant) : Work (Option Promotion) := do
  let j ← Work.demand .job jobId (Tables.job? · jobId)
  let assigned ← Work.ask (Tables.assignmentsFor · jobId)
  if !j.isPending || !assigned.isEmpty then return none
  let live ← Work.ask (Tables.locksFor · jobId none false)
  match ← Work.ask (choice? · j (live.filter (·.isUsable now))) with
  | none => return none
  | some choice =>
    let assignments ← Work.collect (assign j choice.teamId now) choice.providerIds
    Work.write (Tables.markMatched jobId now)
    Work.each (settle choice.lockIds now) live
    return some {
      jobId
      teamId := choice.teamId
      providerIds := choice.providerIds
      assignments
      promotedLockIds := choice.lockIds
      releasedLockIds := (live.map (·.id)).filter (!choice.lockIds.contains ·) }

/-- Staffs a pending job by its usable locks, as one transaction. -/
def promote (jobId : String) (now : Instant) : Work (Option Promotion) :=
  Work.atomic (promoteJoined jobId now)

end Promotion

end Staffing
