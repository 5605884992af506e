import Staffing.Calendar.Day

/-!
# Instants

An instant is a number of milliseconds since 1970-01-01T00:00:00Z. The store keeps whole seconds,
rounded down also before 1970.

* `Instant.wholeSecond` — the instant as the store keeps it
* `Instant.epochSeconds`, `Instant.ofEpochSeconds` — seconds since 1970
* `Instant.text` — as error texts write it
* `Instant.rfc3339` — as replies write it
-/

namespace Staffing

/-- Milliseconds since 1970-01-01T00:00:00Z. -/
abbrev Instant := Int

namespace Instant

/-- Milliseconds in a second. -/
abbrev second : Int := 1000

/-- Milliseconds in a minute. -/
abbrev minute : Int := 60000

/-- Milliseconds in an hour. -/
abbrev hour : Int := 3600000

/-- Milliseconds in a day. -/
abbrev dayLength : Int := 86400000

/-- The whole seconds since 1970, rounded down. -/
def epochSeconds (t : Instant) : Int := t / second

/-- The instant of a number of seconds since 1970, and 1970 itself for a number outside the years
that the calendar covers, -262143 to 262142. -/
def ofEpochSeconds (s : Int) : Instant :=
  if -8334601228800 ≤ s ∧ s ≤ 8210266876799 then s * second else 0

/-- The instant rounded down to the second. -/
def wholeSecond (t : Instant) : Instant := t / second * second

theorem wholeSecond_le (t : Instant) : wholeSecond t ≤ t := by
  unfold wholeSecond; lia

theorem wholeSecond_mono {a b : Instant} (h : a ≤ b) : wholeSecond a ≤ wholeSecond b := by
  unfold wholeSecond; lia

@[simp]
theorem wholeSecond_wholeSecond (t : Instant) : wholeSecond (wholeSecond t) = wholeSecond t := by
  unfold wholeSecond; lia

/-- The instant of a civil date and a time of day in universal time. -/
def utc (year : Int) (month dayOfMonth hours minutes : Nat) : Instant :=
  (Day.ofCivil year month dayOfMonth).number * dayLength + hours * hour + minutes * minute

/-! ## Text -/

/-- The calendar day in universal time. -/
def day (t : Instant) : Day := ⟨t / dayLength⟩

/-- The milliseconds since midnight in universal time. -/
def sinceMidnight (t : Instant) : Nat := (t % dayLength).toNat

/-- `HH:MM:SS`, and the milliseconds behind a point when there are any. -/
def clockText (t : Instant) : String :=
  let ms := sinceMidnight t
  let whole := Day.padded 2 (ms / 3600000) ++ ":" ++ Day.padded 2 (ms / 60000 % 60)
    ++ ":" ++ Day.padded 2 (ms / 1000 % 60)
  if ms % 1000 = 0 then whole else whole ++ "." ++ Day.padded 3 (ms % 1000)

/-- `2026-03-02 10:00:00 UTC`. -/
def text (t : Instant) : String := (day t).text ++ " " ++ clockText t ++ " UTC"

/-- `2026-03-02T10:00:00Z`. -/
def rfc3339 (t : Instant) : String := (day t).text ++ "T" ++ clockText t ++ "Z"

example : text (utc 2026 3 2 10 0 + 500) = "2026-03-02 10:00:00.500 UTC" := by decide +kernel

end Instant

end Staffing
