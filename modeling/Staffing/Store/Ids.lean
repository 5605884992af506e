import Staffing.Tables.Basic

/-!
# Drawn ids

The ids that the program makes: the kind of record, a dash, and a serial number in hexadecimal
digits, 32 of them unless it takes more. A number whose id is already in use for that kind of
record is passed over.

* `idText` — the id of a serial number
* `IdKind` — the kinds of record, with their names and the ids in use
* `freeSerial` — the first serial number that is free
-/

namespace Staffing

/-- The `width` lowest hexadecimal digits of `n`, the highest first. -/
def hexDigits : Nat → Nat → List Char
  | 0, _ => []
  | width + 1, n => hexDigits width (n / 16) ++ [Json.hexDigit (n % 16)]

/-- How many digits the id of a serial number has: 32, and more for a number that needs them. -/
def idWidth (serial : Nat) : Nat := max 32 (serial.log2 / 4 + 1)

/-- The id of a serial number. -/
def idText (kind : String) (serial : Nat) : String :=
  kind ++ "-" ++ String.ofList (hexDigits (idWidth serial) serial)

/-- A kind of record whose ids are drawn. -/
inductive IdKind where
  | job
  | team
  | lock
  | slot
  | plan
  | assignment
  deriving DecidableEq, Repr

namespace IdKind

/-- The name in front of the id. -/
def text : IdKind → String
  | job => "job"
  | team => "team"
  | lock => "lock"
  | slot => "slot"
  | plan => "plan"
  | assignment => "asg"

/-- The ids in use. -/
def used (t : Tables) : IdKind → List String
  | job => t.jobs.map (·.id)
  | team => t.teams.map (·.id)
  | lock => t.locks.map (·.id)
  | slot => t.slots.map (·.id)
  | plan => t.plans.map (·.id)
  | assignment => t.assignments.map (·.id)

end IdKind

/-- The first serial number from `serial` on whose id is not among `used`. Of `used.length + 1`
numbers one is free, so `used.length` tries are enough. -/
def freeSerial (kind : String) (used : List String) : Nat → Nat → Nat
  | 0, serial => serial
  | tries + 1, serial =>
    if used.contains (idText kind serial) then freeSerial kind used tries (serial + 1) else serial

end Staffing
