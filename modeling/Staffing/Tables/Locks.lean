import Staffing.Tables.Demand

/-!
# Locks in the tables

* `Tables.lock?`, `Tables.locksFor` — a lock by id; the locks of a job in the order they came
* `Tables.providerLocked` — is a provider held for an overlapping job?
* `Tables.expiredLocks` — the lapsed locks of pending jobs, oldest expiry first
* `Tables.activeUnits` — the units of a slot that live locks hold
* the statements that store and change locks
-/

namespace Staffing.Tables

/-- The lock of an id. -/
def lock? (t : Tables) (id : String) : Option Lock := t.locks.find? (·.id == id)

/-- Stores a lock of at least one unit on a stored job and, for a team, a stored slot. -/
def insertLock (l : Lock) : Statement := fun t =>
  if t.locks.any (·.id == l.id) || !t.hasJob l.jobId || l.count = 0
      || l.target.slotId?.any (fun slotId => !t.slots.any (·.id == slotId)) then .error .database
  else .ok { t with locks := t.locks ++ [l.stored] }

/-- Sets status, reason and expiry of a lock. -/
def setLockState (id : String) (status : LockStatus) (reason : Option ReleaseReason)
    (expiresAt now : Instant) (t : Tables) : Tables :=
  { t with
    locks := updateWhere (·.id == id) (fun l =>
      { l with
        status, reason
        expiresAt := expiresAt.wholeSecond
        updatedAt := now.wholeSecond }) t.locks }

/-- The locks of a job, in the order they came: those in `ids` if it is given, and the released
ones only on request. Any number of ids may be given; that a store binds no more than so many
variables in one query is not modelled. -/
def locksFor (t : Tables) (jobId : String) (ids : Option (List String)) (withReleased : Bool) :
    List Lock :=
  t.locks.filter fun l =>
    l.jobId == jobId && (withReleased || l.isLive) && ids.all (·.contains l.id)

/-- Does a live lock that has not lapsed hold the provider for a job, other than `exclude`, that
overlaps the window? Locks on teams reserve units, not persons, and do not count. -/
def providerLocked (t : Tables) (providerId : String) (w : Window) (now : Instant)
    (exclude : Option String) : Bool :=
  t.locks.any fun l =>
    l.target.providerId? == some providerId && l.isLive && !l.lapsed now
      && exclude != some l.jobId
      && t.jobs.any fun j => j.id == l.jobId && j.window.wholeSeconds.overlaps w.wholeSeconds

/-- Is the lock's job still pending? -/
def onPendingJob (t : Tables) (l : Lock) : Bool :=
  t.jobs.any fun j => j.id == l.jobId && j.isPending

/-- The live locks past their expiry whose job is still pending, oldest expiry first, `limit` at
most. -/
def expiredLocks (t : Tables) (now : Instant) (limit : Nat) : List Lock :=
  ((t.locks.filter fun l => l.isLive && l.lapsed now && t.onPendingJob l).mergeSort
    fun k l => k.expiresAt ≤ l.expiresAt).take limit

/-- The units of a slot that live locks hold, as a number of 32 bits. -/
def activeUnits (t : Tables) (slotId : String) : Nat :=
  Lock.units (t.locks.filter fun l => l.isLive && l.target.slotId? == some slotId) % UInt32.size

end Staffing.Tables
