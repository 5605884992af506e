import Staffing.Roster.Availability
import Staffing.Store.Ledger

/-!
# Capacity

A team's capacity on a local day is the number of its active members with hours on that day that
no time off touches, at most the team's daily cap. Its capacity in a window is the number of those
who cover the window fully, at most the capacity of the day on which the window starts. Members are
counted in 32 bits.

Plans and slots are made when they are first asked for and computed anew each time; they are never
taken away.

* `Team.dailyCapacity`, `Team.windowCapacity` — the two numbers
* `Ledger.ensureSlot` — the slot of a team's window, up to date
* `Ledger.generatePlans` — the plans of a range of days, up to date
-/

namespace Staffing

/-- The active providers among a team's members, in the order of the members. -/
def Team.profiles (team : Team) (t : Tables) : List Provider :=
  (team.members.filterMap fun m => t.provider? m.providerId).filter (·.active)

/-- The members who can work on a day of the zone, at most the daily cap. -/
def Team.dailyCapacity (team : Team) (profiles : List Provider) (d : Day) (z : Zone) : Nat :=
  min ((profiles.countP fun p => availableOnDay p.slots p.timeOff d z) % UInt32.size)
    (team.dailyCap.getD (team.members.length % UInt32.size))

/-- The members who cover the window, at most the capacity of its day. -/
def Team.windowCapacity (team : Team) (profiles : List Provider) (w : Window) (z : Zone) : Nat :=
  min ((profiles.countP fun p => coversExactly p.slots p.timeOff w) % UInt32.size)
    (team.dailyCapacity profiles (z.dayAt w.start) z)

/-- The team's time zone. -/
def Team.zone (team : Team) : Except Fault Zone :=
  match Zone.named? team.timezone with
  | some z => .ok z
  | none => .error (.invalid (.teamTimezone team.id team.timezone))

namespace Ledger

/-- The slot of a team's window, made if it is new, with the capacity that the members' hours give
now. The plan of its day is brought up to date as well. -/
def ensureSlotJoined (teamId : String) (start stop : Instant) : Work Slot := do
  let w ← Work.ofExcept (Window.checked start stop)
  let team ← Work.demand .team teamId (Tables.team? · teamId)
  let z ← Work.ofExcept team.zone
  let profiles ← Work.ask team.profiles
  let d := z.dayAt start
  let plan ← Store.upsertPlan teamId d (team.dailyCapacity profiles d z)
  let capacity := team.windowCapacity profiles w z
  match ← Store.slotAt? teamId w with
  | some slot =>
    Work.write (Tables.setSlotCapacity slot.id capacity)
    pure { slot with capacity }
  | none =>
    let id ← Work.draw .slot
    let slot : Slot := ⟨id, teamId, plan.id, start, stop, capacity, 0⟩
    Work.run (Tables.insertSlot slot)
    pure slot

/-- The slot of a team's window, up to date. -/
def ensureSlot (teamId : String) (start stop : Instant) : Work Slot :=
  Work.atomic (ensureSlotJoined teamId start stop)

/-- The plans of a team from the day `first` to the day `last`, up to date. -/
def generatePlans (teamId : String) (first last : Day) : Work (List Plan) := do
  if last < first then Work.refuse (.invalid (.planRange first last))
  let team ← Work.demand .team teamId (Tables.team? · teamId)
  let z ← Work.ofExcept team.zone
  let profiles ← Work.ask team.profiles
  Work.atomic <| Work.collect
    (fun d => Store.upsertPlan teamId d (team.dailyCapacity profiles d z)) (Day.range first last)

end Ledger

end Staffing
