import Staffing.Calendar.Window

/-!
# Capacity plans and slots

The ledger of a team's capacity: a plan for each local day and a slot for each window that was
ever asked for. A slot's booking counts in the plan of its day too.

* `Plan` — capacity and bookings of a team's day
* `Slot` — capacity and bookings of a team's window
* `Slot.headroom` — what is left of a slot, negative when its capacity shrank under its bookings
-/

namespace Staffing

/-- A team's capacity on a local day. -/
structure Plan where
  id : String
  teamId : String
  day : Day
  capacity : Nat
  booked : Nat
  deriving DecidableEq, Repr, Inhabited

/-- A team's capacity in a window. -/
structure Slot where
  id : String
  teamId : String
  planId : String
  start : Instant
  stop : Instant
  capacity : Nat
  booked : Nat
  deriving DecidableEq, Repr, Inhabited

namespace Slot

/-- The window that the slot stands for. -/
def window (s : Slot) : Window := ⟨s.start, s.stop⟩

/-- Units not booked yet. -/
def headroom (s : Slot) : Int := s.capacity - s.booked

end Slot

/-- Units of the day not booked yet. -/
def Plan.headroom (p : Plan) : Int := p.capacity - p.booked

end Staffing
