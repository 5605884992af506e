import Staffing.Calendar.Window

/-!
# Providers

A provider is a person or a company that can be sent to a job, with the services offered, the
places served, the weekly hours and the times off.

* `WeeklySlot` — hours on one day of the week, in minutes since local midnight
* `Provider` — the profile
-/

namespace Staffing

/-- What a provider is. -/
inductive ProviderKind where
  | individual
  | company
  deriving DecidableEq, Repr, Inhabited

namespace ProviderKind

/-- The name of the kind. -/
def text : ProviderKind → String
  | individual => "individual"
  | company => "company"

/-- The kind of a name. -/
def ofText? : String → Option ProviderKind
  | "individual" => some individual
  | "company" => some company
  | _ => none

end ProviderKind

/-- Hours that recur each week: weekday 0 is Sunday, minutes count from midnight in `timezone`. -/
structure WeeklySlot where
  weekday : Nat
  startMinute : Nat
  endMinute : Nat
  timezone : String := "UTC"
  active : Bool := true
  deriving DecidableEq, Repr, Inhabited

/-- The length in minutes; 0 when the end does not come after the start. -/
def WeeklySlot.minutes (s : WeeklySlot) : Nat := s.endMinute - s.startMinute

/-- A provider's profile. -/
structure Provider where
  id : String
  displayName : String
  kind : ProviderKind
  active : Bool
  ecoFriendly : Bool
  hourlyRate : Float
  ratingAverage : Float
  ratingCount : Nat
  services : List String
  serviceZones : List String
  areas : List String
  slots : List WeeklySlot
  timeOff : List Window
  deriving Inhabited

/-- Is the service among those offered? -/
def Provider.offers (p : Provider) (service : String) : Bool := p.services.contains service

end Staffing
