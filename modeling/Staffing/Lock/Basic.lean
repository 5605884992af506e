import Staffing.Calendar.Window

/-!
# Locks

A lock reserves for a job either units of a team's slot or one provider. It is held, then
confirmed, then released, and may be released from either of the first two; while it is not
released it is live.

* `LockTarget` — what is reserved
* `Lock` — the record
* `Lock.isLive`, `Lock.lapsed`, `Lock.isUsable` — not released; past its expiry; good for promotion
* `Lock.units` — what several locks reserve together
-/

namespace Staffing

/-- Where a lock stands. -/
inductive LockStatus where
  | held
  | confirmed
  | released
  deriving DecidableEq, Repr, Inhabited

namespace LockStatus

/-- The name of the status. -/
def text : LockStatus → String
  | held => "held"
  | confirmed => "confirmed"
  | released => "released"

/-- The status of a name. -/
def ofText? : String → Option LockStatus
  | "held" => some held
  | "confirmed" => some confirmed
  | "released" => some released
  | _ => none

/-- Does the lock still reserve something? -/
def isActive : LockStatus → Bool
  | held | confirmed => true
  | released => false

end LockStatus

/-- Why a lock was released. -/
inductive ReleaseReason where
  | manual
  | expired
  | promoted
  deriving DecidableEq, Repr, Inhabited

namespace ReleaseReason

/-- The name of the reason. -/
def text : ReleaseReason → String
  | manual => "manual"
  | expired => "expired"
  | promoted => "promoted"

/-- The reason of a name. -/
def ofText? : String → Option ReleaseReason
  | "manual" => some manual
  | "expired" => some expired
  | "promoted" => some promoted
  | _ => none

end ReleaseReason

/-- What a lock reserves: units of a team's slot, or a provider. -/
inductive LockTarget where
  | team (teamId slotId : String)
  | provider (providerId : String)
  deriving DecidableEq, Repr, Inhabited

namespace LockTarget

/-- The slot whose units are reserved. -/
def slotId? : LockTarget → Option String
  | team _ slotId => some slotId
  | provider _ => none

/-- The team whose units are reserved. -/
def teamId? : LockTarget → Option String
  | team teamId _ => some teamId
  | provider _ => none

/-- The provider that is reserved. -/
def providerId? : LockTarget → Option String
  | team _ _ => none
  | provider providerId => some providerId

end LockTarget

/-- A lock. -/
structure Lock where
  id : String
  jobId : String
  target : LockTarget
  count : Nat
  status : LockStatus
  reason : Option ReleaseReason
  expiresAt : Instant
  createdAt : Instant
  updatedAt : Instant
  deriving DecidableEq, Repr, Inhabited

namespace Lock

/-- Does the lock still reserve something? -/
def isLive (l : Lock) : Bool := l.status.isActive

/-- Has the lock passed its expiry, in whole seconds? -/
def lapsed (l : Lock) (now : Instant) : Bool := l.expiresAt.wholeSecond ≤ now.wholeSecond

/-- Is the lock confirmed and not past its expiry? -/
def isUsable (l : Lock) (now : Instant) : Bool := l.status = .confirmed && !l.lapsed now

/-- The units that several locks reserve together. -/
def units (locks : List Lock) : Nat := locks.foldr (fun l total => l.count + total) 0

end Lock

end Staffing
