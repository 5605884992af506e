import Staffing.Calendar.Window

/-!
# Time zones

A zone is an offset from universal time and the changes of it, in order. An instant has one wall
time in a zone; a wall time has no instant when the clocks were put forward over it, and two when
they were put back over it.

* `Zone.offsetAt` — the offset in force at an instant, in minutes east
* `Zone.toWall` — the wall time of an instant, as milliseconds since 1970-01-01T00:00 on the wall
* `Zone.instantsAt` — the instants of a wall time
* `Zone.ofWall` — the instant that a wall time is read as: the earliest one; an hour later when
  the wall time was skipped; and as if it were universal time when that was skipped too
-/

namespace Staffing

/-- A time zone: the offset before its first change, and the changes, in minutes east. -/
structure Zone where
  name : String
  base : Int
  changes : List (Instant × Int)
  deriving DecidableEq, Repr

namespace Zone

/-- The offset at `t` when `offset` was in force before `changes`. -/
def offsetFrom (offset : Int) : List (Instant × Int) → Instant → Int
  | [], _ => offset
  | (at_, next) :: rest, t => if t < at_ then offset else offsetFrom next rest t

/-- The offset in force at `t`, in minutes east of universal time. -/
def offsetAt (z : Zone) (t : Instant) : Int := offsetFrom z.base z.changes t

/-- The wall time of `t`, as milliseconds since midnight of 1970-01-01 on the wall. -/
def toWall (z : Zone) (t : Instant) : Int := t + z.offsetAt t * Instant.minute

/-- The calendar day that a wall time falls on. -/
def wallDay (wall : Int) : Day := ⟨wall / Instant.dayLength⟩

/-- The wall time of a day's midnight. -/
def midnight (d : Day) : Int := d.number * Instant.dayLength

/-- The local calendar day of an instant. -/
def dayAt (z : Zone) (t : Instant) : Day := wallDay (z.toWall t)

/-- Every offset the zone has ever had. -/
def offsets (z : Zone) : List Int := z.base :: z.changes.map (·.2)

/-- The instants at which the zone's clocks show `wall`. -/
def instantsAt (z : Zone) (wall : Int) : List Instant :=
  (z.offsets.map fun offset => wall - offset * Instant.minute).filter fun t => z.toWall t = wall

/-- The first instant at which the zone's clocks show `wall`. -/
def earliest? (z : Zone) (wall : Int) : Option Instant := (z.instantsAt wall).min?

/-- The instant that a wall time is read as. -/
def ofWall (z : Zone) (wall : Int) : Instant :=
  match z.earliest? wall with
  | some t => t
  | none => (z.earliest? (wall + Instant.hour)).getD wall

theorem offsetFrom_mem (offset : Int) (changes : List (Instant × Int)) (t : Instant) :
    offsetFrom offset changes t ∈ offset :: changes.map (·.2) := by
  induction changes generalizing offset with
  | nil => simp [offsetFrom]
  | cons c rest ih =>
    obtain ⟨at_, next⟩ := c
    unfold offsetFrom
    split
    · simp
    · exact List.mem_cons_of_mem _ (by simpa using ih next)

/-- `instantsAt` holds exactly the instants whose wall time is the given one. -/
theorem mem_instantsAt {z : Zone} {wall : Int} {t : Instant} :
    t ∈ z.instantsAt wall ↔ z.toWall t = wall := by
  unfold instantsAt
  rw [List.mem_filter, List.mem_map]
  constructor
  · rintro ⟨-, h⟩
    simpa using h
  · intro h
    refine ⟨⟨z.offsetAt t, offsetFrom_mem _ _ _, ?_⟩, by simpa using h⟩
    unfold toWall at h
    lia

end Zone

end Staffing
