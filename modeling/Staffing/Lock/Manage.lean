import Staffing.Actor
import Staffing.Ledger.Capacity
import Staffing.Settings.Config
import Staffing.Tables.Locks

/-!
# Making and ending locks

A lock on a team books units of the slot of the job's window, as many as are asked for and left;
a lock on a provider books nobody else's calendar but excludes other locks on that provider. Each
operation is one transaction, and reads what it decides on inside it.

* `LockRequest` — what is to be locked, and for how long
* `Locks.create` — new locks, held
* `Locks.confirm` — held locks become confirmed; one that has lapsed stays lapsed
* `Locks.release` — live locks are released and give back their units
* `Locks.expire` — the same for one lock that has lapsed
-/

namespace Staffing

/-- What is to be locked. -/
inductive LockRequestTarget where
  /-- Units of a team, by default as many as the job needs. -/
  | team (teamId : String) (units : Option Nat)
  | providers (providerIds : List String)
  deriving DecidableEq, Repr, Inhabited

/-- What is to be locked, and for how many minutes. -/
structure LockRequest where
  target : LockRequestTarget
  ttlMinutes : Option Int := none
  deriving DecidableEq, Repr, Inhabited

namespace Locks

/-- A new lock. -/
def fresh (id jobId : String) (target : LockTarget) (count : Nat) (expiresAt now : Instant) :
    Lock :=
  { id, jobId, target, count, expiresAt
    status := .held
    reason := none
    createdAt := now
    updatedAt := now }

/-! ## Creating -/

/-- The units left of a slot, within its own capacity and within its day's. -/
def headroom (s : Slot) (p : Plan) : Int :=
  min s.headroom ((max p.capacity s.capacity : Nat) - p.booked : Int)

/-- A lock on units of a team. -/
def createOnTeam (j : Job) (teamId : String) (units : Option Nat) (expiresAt now : Instant) :
    Work (List Lock) := do
  let units := units.getD j.requiredMembers
  Work.ofExcept (checkHeadcount units)
  let slot ← Ledger.ensureSlotJoined teamId j.start j.stop
  let plan ← Work.found .plan slot.planId (← Store.plan? slot.planId)
  let left := headroom slot plan
  if left ≤ 0 then Work.refuse (.conflict (.capacityExceeded slot.id left))
  let count := min units left.toNat
  let id ← Work.draw .lock
  let lock := fresh id j.id (.team teamId slot.id) count expiresAt now
  Work.run (Tables.insertLock lock)
  Work.write (Tables.adjustBooking slot count)
  pure [lock]

/-- Why a provider cannot be locked for the window now. -/
def providerFault (t : Tables) (seen : List String) (w : Window) (now : Instant) (id : String) :
    Option Fault :=
  if seen.contains id then some (.conflict (.duplicateMember id))
  else if !t.hasProvider id then some (.notFound .provider id)
  else if t.providerLocked id w now none then some (.conflict (.providerAlreadyLocked id))
  else if t.hasConflict id w none then some (.conflict (.providerAlreadyAssigned id))
  else none

/-- A lock on each provider in turn, up to the first that cannot be locked; `seen` came before. -/
def createOnProviders (j : Job) (expiresAt now : Instant) :
    List String → List String → Work (List Lock)
  | _, [] => pure []
  | seen, providerId :: rest => do
    match ← Work.ask (providerFault · seen j.window now providerId) with
    | some fault => Work.refuse fault
    | none =>
      let id ← Work.draw .lock
      let lock := fresh id j.id (.provider providerId) 1 expiresAt now
      Work.run (Tables.insertLock lock)
      let locks ← createOnProviders j expiresAt now (providerId :: seen) rest
      pure (lock :: locks)

/-- New locks on a job that is not over. -/
def createJoined (jobId : String) (target : LockRequestTarget) (expiresAt now : Instant) :
    Work (List Lock) := do
  let j ← Work.demand .job jobId (Tables.job? · jobId)
  if j.isClosed then Work.refuse (.invalid (.closedJob jobId j.status))
  match target with
  | .team teamId units => createOnTeam j teamId units expiresAt now
  | .providers [] => Work.refuse (.invalid .emptyLockTarget)
  | .providers (id :: rest) => createOnProviders j expiresAt now [] (id :: rest)

/-- New locks on a job that is not over, for an actor who may make them. Instants and times to live
have no bounds here: that a calendar ends, so that an expiry may lie beyond it, is not modelled. -/
def create (config : LockConfig) (actor : Actor) (jobId : String) (request : LockRequest)
    (now : Instant) : Work (List Lock) := do
  Work.ofExcept (actor.requireOperational "create locks")
  let expiresAt := now + config.ttl request.ttlMinutes * Instant.minute
  Work.atomic (createJoined jobId request.target expiresAt now)

/-! ## Confirming -/

/-- A held lock as it is confirmed at `now`. One that has lapsed expires at once, so that it does
not come back to life. -/
def confirmed (l : Lock) (now : Instant) : Lock :=
  { l with
    status := .confirmed
    expiresAt := if l.lapsed now then now else l.expiresAt
    updatedAt := now }

/-- Confirms one lock. -/
def confirmOne (now : Instant) (l : Lock) : Work Lock := do
  let c := confirmed l now
  Work.write (Tables.setLockState l.id .confirmed none c.expiresAt now)
  pure c

/-- Confirms the held locks of a job, those in `ids` if it is given. -/
def confirm (actor : Actor) (jobId : String) (ids : Option (List String)) (now : Instant) :
    Work (List Lock) := do
  Work.ofExcept (actor.requireOperational "confirm locks")
  Work.atomic do
    let _ ← Work.demand .job jobId (Tables.job? · jobId)
    let live ← Work.ask (Tables.locksFor · jobId ids false)
    Work.collect (confirmOne now) (live.filter (·.status = .held))

/-! ## Releasing -/

/-- Gives back so many units of a slot, no more than it has booked. -/
def returnUnits (count : Nat) (slotId : String) : Work Unit := do
  match ← Store.slot? slotId with
  | some slot => Work.write (Tables.adjustBooking slot (-(min count slot.booked : Nat)))
  | none => pure ()

/-- Releases a lock and gives back its units. -/
def releaseOne (reason : ReleaseReason) (now : Instant) (l : Lock) : Work Lock := do
  if let some slotId := l.target.slotId? then returnUnits l.count slotId
  Work.write (Tables.setLockState l.id .released (some reason) l.expiresAt now)
  pure { l with status := .released, reason := some reason, updatedAt := now }

/-- Releases the live locks of a job, those in `ids` if it is given. -/
def release (actor : Actor) (jobId : String) (ids : Option (List String)) (now : Instant) :
    Work (List Lock) := do
  Work.ofExcept (actor.requireOperational "release locks")
  Work.atomic do
    let _ ← Work.demand .job jobId (Tables.job? · jobId)
    let live ← Work.ask (Tables.locksFor · jobId ids false)
    Work.collect (releaseOne .manual now) live

/-- Releases a lock that is live and has lapsed; any other is left as it is. -/
def expire (lockId : String) (now : Instant) : Work (Option Lock) := Work.atomic do
  let l ← Work.demand .lock lockId (Tables.lock? · lockId)
  if l.isLive && l.lapsed now then
    let released ← releaseOne .expired now l
    pure (some released)
  else pure none

end Locks

end Staffing
