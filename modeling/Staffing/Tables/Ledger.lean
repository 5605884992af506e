import Staffing.Number.Significant
import Staffing.Tables.Roster

/-!
# Plans and slots in the tables

* `Tables.plan?`, `Tables.planOn?`, `Tables.plansFor` — a plan by id or by team and day; all of a
  team's
* `Tables.slot?`, `Tables.slotAt?`, `Tables.slotsFor` — a slot by id or by team and window; all of
  a plan's
* `Tables.adjustBooking` — the one write that moves bookings: a slot's and its plan's together
* the statements that store plans and slots
-/

namespace Staffing.Tables

/-! ## Plans -/

/-- The plan of an id. -/
def plan? (t : Tables) (id : String) : Option Plan := t.plans.find? (·.id == id)

/-- Is it the plan of this team and day? -/
def isPlanOf (teamId : String) (d : Day) (p : Plan) : Bool := p.teamId == teamId && p.day = d

/-- The plan of a team's day. -/
def planOn? (t : Tables) (teamId : String) (d : Day) : Option Plan :=
  t.plans.find? (isPlanOf teamId d)

/-- The plans of a team, in the order of their days' texts. -/
def plansFor (t : Tables) (teamId : String) : List Plan :=
  (t.plans.filter (·.teamId == teamId)).mergeSort fun p q => p.day.text ≤ q.day.text

/-- Sets the capacity of a stored team's day; a plan that is new takes the id and starts without
bookings. -/
def upsertPlan (id teamId : String) (d : Day) (capacity : Nat) : Statement := fun t =>
  if !t.hasTeam teamId then .error .database
  else if t.plans.any (isPlanOf teamId d) then
    .ok { t with plans := updateWhere (isPlanOf teamId d) (fun p => { p with capacity }) t.plans }
  else if t.plans.any (·.id == id) then .error .database
  else .ok { t with plans := t.plans ++ [⟨id, teamId, d, capacity, 0⟩] }

/-! ## Slots -/

/-- The slot of an id. -/
def slot? (t : Tables) (id : String) : Option Slot := t.slots.find? (·.id == id)

/-- Is it the slot of this team and window, in whole seconds? -/
def isSlotAt (teamId : String) (w : Window) (s : Slot) : Bool :=
  s.teamId == teamId && s.window = w.wholeSeconds

/-- The slot of a team's window. -/
def slotAt? (t : Tables) (teamId : String) (w : Window) : Option Slot :=
  t.slots.find? (isSlotAt teamId w)

/-- Does `r` start before `s`, or with it and with an id that is no greater? -/
def slotBefore (r s : Slot) : Bool :=
  if r.start ≠ s.start then r.start < s.start else r.id ≤ s.id

/-- The slots of a plan, by start and id. -/
def slotsFor (t : Tables) (planId : String) : List Slot :=
  (t.slots.filter (·.planId == planId)).mergeSort slotBefore

/-- Stores a slot of a stored team and plan; a team has one slot for a window. -/
def insertSlot (s : Slot) : Statement := fun t =>
  if t.slots.any (·.id == s.id) || t.slots.any (isSlotAt s.teamId s.window)
      || !t.hasTeam s.teamId || !t.plans.any (·.id == s.planId) then .error .database
  else .ok { t with slots := t.slots ++ [s.stored] }

/-- Sets the capacity of a slot. -/
def setSlotCapacity (id : String) (capacity : Nat) (t : Tables) : Tables :=
  { t with slots := updateWhere (·.id == id) (fun s => { s with capacity }) t.slots }

/-- A booking moved by `delta`, and not below zero. Bookings are 64-bit integers with a sign; one
that outgrows them is kept with the precision of a float from there on. -/
def moved (booked : Nat) (delta : Int) : Nat :=
  let limit := 0x8000000000000000
  if booked < limit ∧ booked + delta < limit then (booked + delta).toNat
  else (significantSum booked delta).toNat

/-- Within 64 bits a booking is moved exactly. -/
theorem moved_of_lt {booked : Nat} {delta : Int} (h : booked < 0x8000000000000000)
    (hd : booked + delta < 0x8000000000000000) : moved booked delta = (booked + delta).toNat := by
  simp [moved, h, hd]

/-- Moves the bookings of a slot and of its plan by `delta`, and neither below zero. -/
def adjustBooking (s : Slot) (delta : Int) (t : Tables) : Tables :=
  { t with
    slots := updateWhere (·.id == s.id) (fun r => { r with booked := moved r.booked delta }) t.slots
    plans := updateWhere (·.id == s.planId) (fun p => { p with booked := moved p.booked delta })
      t.plans }

end Staffing.Tables
