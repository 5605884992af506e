import Staffing.Store.Work
import Staffing.Tables.Ledger

/-!
# The ledger of a store

Plans and slots as units of work read them. A row whose bookings have outgrown 32 bits is still
there and can still be moved, but no unit of work can read it: one that finds it fails.

* `Plan.isReadable`, `Slot.isReadable` — can the row be read?
* `Store.plan?`, `Store.planOn?`, `Store.plansFor` — a plan by id or by team and day; all of a
  team's
* `Store.slot?`, `Store.slotAt?`, `Store.slotsFor` — a slot by id or by team and window; all of a
  plan's
* `Store.upsertPlan` — the plan of a team's day with a new capacity
-/

namespace Staffing

/-- Can the plan be read? -/
def Plan.isReadable (p : Plan) : Bool := p.booked < UInt32.size

/-- Can the slot be read? -/
def Slot.isReadable (s : Slot) : Bool := s.booked < UInt32.size

namespace Store

/-- The row that a question finds, if it is readable. -/
def readRow {α : Type} (isReadable : α → Bool) (question : Tables → Option α) :
    Work (Option α) := fun s =>
  let row := question s.tables
  if row.all isReadable then .ok row s else .error .database s

/-- The rows that a question finds, if all of them are readable. -/
def readRows {α : Type} (isReadable : α → Bool) (question : Tables → List α) :
    Work (List α) := fun s =>
  let rows := question s.tables
  if rows.all isReadable then .ok rows s else .error .database s

/-! ## Plans -/

/-- The plan of an id. -/
def plan? (id : String) : Work (Option Plan) := readRow Plan.isReadable (Tables.plan? · id)

/-- The plan of a team's day. -/
def planOn? (teamId : String) (d : Day) : Work (Option Plan) :=
  readRow Plan.isReadable (Tables.planOn? · teamId d)

/-- The plans of a team, in the order of their days' texts. -/
def plansFor (teamId : String) : Work (List Plan) :=
  readRows Plan.isReadable (Tables.plansFor · teamId)

/-- The plan of a team's day, with a new capacity. -/
def upsertPlan (teamId : String) (d : Day) (capacity : Nat) : Work Plan := do
  let id ← Work.draw .plan
  Work.run (Tables.upsertPlan id teamId d capacity)
  Work.found .plan (teamId ++ "/" ++ d.text) (← planOn? teamId d)

/-! ## Slots -/

/-- The slot of an id. -/
def slot? (id : String) : Work (Option Slot) := readRow Slot.isReadable (Tables.slot? · id)

/-- The slot of a team's window. -/
def slotAt? (teamId : String) (w : Window) : Work (Option Slot) :=
  readRow Slot.isReadable (Tables.slotAt? · teamId w)

/-- The slots of a plan, by start and id. -/
def slotsFor (planId : String) : Work (List Slot) :=
  readRows Slot.isReadable (Tables.slotsFor · planId)

end Store

end Staffing
