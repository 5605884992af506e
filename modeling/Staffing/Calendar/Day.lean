/-!
# Calendar days

A day is counted from 1970-01-01 in the proleptic Gregorian calendar. Counting makes the order,
the successor and the day of the week plain integer arithmetic; year, month and day of the month
are only a way to write a day.

* `Day.ofCivil` — the day of a year, a month and a day of the month
* `Day.civil` — the year, the month and the day of the month of a day
* `Day.weekday` — 0 is Sunday
* `Day.text`, `Day.ofText?` — `YYYY-MM-DD`

Both conversions shift the year to begin in March, so that the leap day is the last day of a year
and a month's first day is `(153 * m + 2) / 5` days into it. 400 years are 146097 days.
-/

namespace Staffing

/-- A calendar day, as the number of days since 1970-01-01. -/
structure Day where
  number : Int
  deriving DecidableEq, Repr, Inhabited

namespace Day

instance : LT Day := ⟨fun a b => a.number < b.number⟩
instance : LE Day := ⟨fun a b => a.number ≤ b.number⟩
instance (a b : Day) : Decidable (a < b) := inferInstanceAs (Decidable (a.number < b.number))
instance (a b : Day) : Decidable (a ≤ b) := inferInstanceAs (Decidable (a.number ≤ b.number))

/-- The day `n` days later. -/
def addDays (d : Day) (n : Int) : Day := ⟨d.number + n⟩

/-- The days from `first` to `last`, both included; none when `last` comes before `first`. -/
def range (first last : Day) : List Day :=
  (List.range (last.number - first.number + 1).toNat).map fun k : Nat => first.addDays k

/-- The day of the week, 0 for Sunday. 1970-01-01 was a Thursday. -/
def weekday (d : Day) : Nat := ((d.number + 4) % 7).toNat

/-! ## Year, month and day of the month -/

/-- The day of a civil date. -/
def ofCivil (year : Int) (month dayOfMonth : Nat) : Day :=
  let y := if month ≤ 2 then year - 1 else year
  let m := if month ≤ 2 then month + 9 else month - 3
  let era := y / 400
  let yearOfEra := y - era * 400
  let dayOfYear := (153 * m + 2) / 5 + dayOfMonth - 1
  ⟨era * 146097 + (yearOfEra * 365 + yearOfEra / 4 - yearOfEra / 100 + dayOfYear) - 719468⟩

/-- The civil date of a day: year, month, day of the month. -/
def civil (d : Day) : Int × Nat × Nat :=
  let z := d.number + 719468
  let era := z / 146097
  let dayOfEra := (z - era * 146097).toNat
  let yearOfEra := (dayOfEra - dayOfEra / 1460 + dayOfEra / 36524 - dayOfEra / 146096) / 365
  let dayOfYear := dayOfEra - (365 * yearOfEra + yearOfEra / 4 - yearOfEra / 100)
  let m := (5 * dayOfYear + 2) / 153
  let dayOfMonth := dayOfYear - (153 * m + 2) / 5 + 1
  let month := if m < 10 then m + 3 else m - 9
  (era * 400 + yearOfEra + (if month ≤ 2 then 1 else 0), month, dayOfMonth)

example : (ofCivil 1970 1 1).number = 0 := by decide
example : (ofCivil 2000 2 29).civil = (2000, 2, 29) := by decide
example : (ofCivil (-1) 12 31).civil = (-1, 12, 31) := by decide
example : (ofCivil 2026 3 2).weekday = 1 := by decide

/-! ## Text -/

/-- A number with zeros in front of it up to `width` digits. -/
def padded (width n : Nat) : String :=
  let digits := toString n
  String.ofList (List.replicate (width - digits.length) '0') ++ digits

/-- A year: four digits, and a sign when it lies outside 0 to 9999. -/
def yearText (year : Int) : String :=
  if 0 ≤ year ∧ year ≤ 9999 then padded 4 year.toNat
  else (if year < 0 then "-" else "+") ++ padded 4 year.natAbs

/-- `YYYY-MM-DD`. -/
def text (d : Day) : String :=
  let (year, month, dayOfMonth) := d.civil
  yearText year ++ "-" ++ padded 2 month ++ "-" ++ padded 2 dayOfMonth

/-- The number that up to `most` digits in front write, and what follows them. -/
def leadingNumber? (most : Nat) (cs : List Char) : Option (Nat × List Char) :=
  let digits := (cs.take most).takeWhile Char.isDigit
  (String.ofList digits).toNat?.map fun n => (n, cs.drop digits.length)

/-- Reads a date as `text` writes it, also without zeros in front. A year of more than four digits
has a sign, and a date that no calendar has is refused. -/
def ofText? (s : String) : Option Day := do
  let (sign, most, cs) : Int × Nat × List Char := match s.toList with
    | '-' :: cs => (-1, cs.length, cs)
    | '+' :: cs => (1, cs.length, cs)
    | cs => (1, 4, cs)
  let (year, '-' :: cs) ← leadingNumber? most cs | none
  let (month, '-' :: cs) ← leadingNumber? 2 cs | none
  let (dayOfMonth, []) ← leadingNumber? 2 cs | none
  let d := ofCivil (sign * year) month dayOfMonth
  if d.civil = (sign * year, month, dayOfMonth) then some d else none

end Day

end Staffing
