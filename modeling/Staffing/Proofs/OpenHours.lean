import Staffing.Proofs.Coverage

/-!
# Covered windows and open hours

Weekly hours cover a window fully when both its ends fall into them, the later one to the minute.
What the clocks show in between is not looked at. While they are not put back that makes no
difference: they run from one end to the other, and the hours are open all the way. When they are
put back within the window they may run past the hours and come back into them, or show once more
the time before the hours begin.

* `WeeklySlot.IsOpen` — the clocks show hours of the slot
* `Zone.NotPutBack` — the clocks are not further back at the later one of two instants
* `WeeklySlot.spanFits_of_exact` — what is known of the two ends of a covered window
* `covered_windows_are_open` — the hours are open between them, and no time off touches the window
* `not_covered_windows_are_open` — the clocks are put back over midnight
* `not_open_in_last_minute` — a window that ends within a minute
-/

namespace Staffing

variable {slots : List WeeklySlot} {timeOff : List Window} {v w : Window} {s : WeeklySlot}
  {z : Zone} {d : Day} {i j : Instant}

/-! ## Instants of a window and hours on the clocks -/

/-- The window holds the instant. -/
def Window.Holds (w : Window) (i : Instant) : Prop := w.start ≤ i ∧ i < w.stop

/-- Windows that hold one instant overlap. -/
theorem Window.Holds.overlaps (hv : v.Holds i) (hw : w.Holds i) : v.overlaps w = true := by
  obtain ⟨fromV, upToV⟩ := hv
  obtain ⟨fromW, upToW⟩ := hw
  unfold Window.overlaps
  rw [Bool.and_eq_true, decide_eq_true_iff, decide_eq_true_iff]
  lia

/-- The instant rounded down to the minute. -/
def Instant.wholeMinute (i : Instant) : Instant := i / minute * minute

/-- The clocks show that the hours of the slot on the day `d` have begun. -/
def WeeklySlot.HasBegun (s : WeeklySlot) (z : Zone) (d : Day) (i : Instant) : Prop :=
  Zone.midnight d + s.startMinute * Instant.minute ≤ z.toWall i

/-- The clocks do not show the end of the slot's hours on the day `d` yet. -/
def WeeklySlot.NotOver (s : WeeklySlot) (z : Zone) (d : Day) (i : Instant) : Prop :=
  z.toWall i < Zone.midnight d + s.endMinute * Instant.minute

/-- The clocks show the day `d`, and on it a time within the hours of the slot. -/
structure WeeklySlot.IsOpen (s : WeeklySlot) (z : Zone) (d : Day) (i : Instant) : Prop where
  today : z.dayAt i = d
  begun : s.HasBegun z d i
  notOver : s.NotOver z d i

namespace Zone

/-- The clocks are not further back at `j` than they were at `i`. -/
def NotPutBack (z : Zone) (i j : Instant) : Prop := z.offsetAt i ≤ z.offsetAt j

/-- Clocks that are not put back run at least as fast as time does. -/
theorem NotPutBack.toWall_add_le (h : z.NotPutBack i j) : z.toWall i + (j - i) ≤ z.toWall j := by
  unfold NotPutBack at h
  unfold toWall
  lia

/-- The clocks show a day from its midnight up to the next one. -/
theorem dayAt_eq (from_ : midnight d ≤ z.toWall i)
    (upTo : z.toWall i < midnight d + Instant.dayLength) : z.dayAt i = d := by
  unfold midnight at from_ upTo
  unfold dayAt wallDay
  obtain ⟨n⟩ := d
  rw [Day.mk.injEq]
  lia

end Zone

/-! ## The ends of a covered window -/

/-- Both ends of the window fall into hours of the slot, the later one to the minute. -/
structure WeeklySlot.SpanFits (s : WeeklySlot) (z : Zone) (w : Window) : Prop where
  weekday : (z.dayAt w.start).weekday = s.weekday
  begun : s.HasBegun z (z.dayAt w.start) w.start
  notOver : z.toWall w.stop <
    Zone.midnight (z.dayAt w.start) + (s.endMinute + 1) * Instant.minute
  sameDay : z.toWall w.stop <
    Zone.midnight (z.dayAt w.start) + (minutesPerDay + 1) * Instant.minute

/-- Minutes are cut off toward zero, so a time within minute `n` counts as no later than `n`. -/
theorem Instant.lt_of_tdiv_le {t n : Int} (nonneg : 0 ≤ n) (h : t.tdiv minute ≤ n) :
    t < (n + 1) * minute := by
  rcases lt_or_ge t 0 with negative | nonneg'
  · lia
  · rw [Int.tdiv_eq_ediv_of_nonneg nonneg'] at h
    lia

/-- A slot that covers a window is active, and the window's ends fit on the clocks of its zone. -/
theorem WeeklySlot.spanFits_of_exact {buffer : Int} (covers : s.tier w buffer = .exact) :
    s.active = true ∧ ∃ z, Zone.named? s.timezone = some z ∧ s.SpanFits z w := by
  by_cases closed : s.active = true → Zone.named? s.timezone = none
  · rw [tier_of_closed closed] at covers
    cases covers
  · obtain ⟨active, known⟩ := Classical.not_imp.mp closed
    obtain ⟨z, zone⟩ := Option.ne_none_iff_exists'.mp known
    rw [tier_of_zone active zone] at covers
    split_ifs at covers with sameDay fits
    obtain ⟨-, weekday, upToMidnight⟩ := sameDay
    obtain ⟨from_, upTo⟩ := fits
    unfold Window.localSpan at from_ upTo upToMidnight
    dsimp only at from_ upTo upToMidnight
    have beforeEnd := Instant.lt_of_tdiv_le (by lia) upTo
    have beforeMidnight := Instant.lt_of_tdiv_le (by lia) upToMidnight
    refine ⟨active, z, zone, weekday, ?_, by lia, by lia⟩
    unfold HasBegun
    lia

/-! ## Between the ends -/

section Between

variable (fits : s.SpanFits z w)
include fits

theorem WeeklySlot.SpanFits.hasBegun (later : w.start ≤ i) (forward : z.NotPutBack w.start i) :
    s.HasBegun z (z.dayAt w.start) i := by
  have begun := fits.begun
  have run := forward.toWall_add_le
  unfold HasBegun at *
  lia

/-- Offsets are whole minutes, so the whole minute of the end is no later than the end of the
hours. -/
theorem WeeklySlot.SpanFits.toWall_lt (before : i < w.stop.wholeMinute)
    (forward : z.NotPutBack i w.stop) :
    s.NotOver z (z.dayAt w.start) i ∧
      z.toWall i < Zone.midnight (z.dayAt w.start) + Instant.dayLength := by
  have notOver := fits.notOver
  have sameDay := fits.sameDay
  unfold Instant.wholeMinute at before
  unfold Zone.NotPutBack at forward
  unfold NotOver
  unfold Zone.toWall Zone.midnight at *
  lia

theorem WeeklySlot.SpanFits.isOpen (later : w.start ≤ i) (before : i < w.stop.wholeMinute)
    (sinceStart : z.NotPutBack w.start i) (untilStop : z.NotPutBack i w.stop) :
    s.IsOpen z (z.dayAt w.start) i := by
  have begun := fits.hasBegun later sinceStart
  obtain ⟨notOver, beforeMidnight⟩ := fits.toWall_lt before untilStop
  have afterMidnight : Zone.midnight (z.dayAt w.start) ≤ z.toWall i := by
    unfold HasBegun at begun
    lia
  exact ⟨Zone.dayAt_eq afterMidnight beforeMidnight, begun, notOver⟩

end Between

/-- **Covered windows are open.** Slots that cover a window fully include an active one, in whose
zone the window starts on the slot's weekday. Its hours of that day have begun at every instant of
the window up to which the clocks have not been put back since the start. They are not over at any
from which on the clocks are not put back until the end, except in a last minute that the window
does not fill. Where both is so the hours are open. No time off holds an instant of the window. -/
theorem covered_windows_are_open (covered : coversExactly slots timeOff w = true) :
    (∃ s ∈ slots, s.active = true ∧ ∃ z, Zone.named? s.timezone = some z ∧
      (z.dayAt w.start).weekday = s.weekday ∧ ∀ i, w.Holds i →
        (z.NotPutBack w.start i → s.HasBegun z (z.dayAt w.start) i) ∧
        (i < w.stop.wholeMinute → z.NotPutBack i w.stop → s.NotOver z (z.dayAt w.start) i) ∧
        (i < w.stop.wholeMinute → z.NotPutBack w.start i → z.NotPutBack i w.stop →
          s.IsOpen z (z.dayAt w.start) i)) ∧
    ∀ off ∈ timeOff, ∀ i, w.Holds i → ¬ off.Holds i := by
  unfold coversExactly at covered
  obtain ⟨free, best⟩ := (Coverage.tier_resolve (by decide)).mp (of_decide_eq_true covered)
  constructor
  · obtain ⟨s, hs, covers⟩ := bestTier_eq_exact.mp best
    obtain ⟨active, z, zone, fits⟩ := WeeklySlot.spanFits_of_exact covers
    refine ⟨s, hs, active, z, zone, fits.weekday, fun i ⟨later, _⟩ => ⟨?_, ?_, ?_⟩⟩
    · exact fits.hasBegun later
    · exact fun before forward => (fits.toWall_lt before forward).1
    · exact fun before => fits.isOpen later before
  · intro off hoff i holds offHolds
    exact Bool.false_ne_true ((free off hoff).symm.trans (offHolds.overlaps holds))

namespace Sample

/-- The night in which the clocks of Berlin are put forward, up to half a minute past 4 o'clock. -/
def overPutForward : Window := ⟨Instant.utc 2026 3 29 0 30, Instant.utc 2026 3 29 2 0 + 30000⟩

/-- Saturday from 23 o'clock on. -/
def lateSaturdays : WeeklySlot := ⟨6, 1380, 1440, "America/Havana", true⟩

/-- Two hours, the second of which is the first one of Sunday. Then it is midnight again. -/
def overPutBack : Window := ⟨Instant.utc 2026 11 1 3 0, Instant.utc 2026 11 1 5 0⟩

/-- The last hour of Monday's hours, and half a minute more. -/
def lateMonday : Window := ⟨Instant.utc 2026 3 2 15 0, Instant.utc 2026 3 2 16 0 + 30000⟩

end Sample

/-- Just after the clocks are put forward, the hours that cover the night are open. -/
theorem covered_windows_are_open_overPutForward :
    coversExactly [Sample.sundays] [] Sample.overPutForward = true ∧
    ∃ z, Zone.named? Sample.sundays.timezone = some z ∧
      Sample.sundays.IsOpen z (Day.ofCivil 2026 3 29) (Instant.utc 2026 3 29 1 0) := by
  have covered : coversExactly [Sample.sundays] [] Sample.overPutForward = true := by
    decide +kernel
  obtain ⟨⟨s, hs, -, z, zone, -, between⟩, -⟩ := covered_windows_are_open covered
  obtain rfl := List.mem_singleton.mp hs
  have clocks : (Zone.named? Sample.sundays.timezone).all fun z =>
      z.dayAt Sample.overPutForward.start = Day.ofCivil 2026 3 29 ∧
      z.offsetAt Sample.overPutForward.start ≤ z.offsetAt (Instant.utc 2026 3 29 1 0) ∧
      z.offsetAt (Instant.utc 2026 3 29 1 0) ≤ z.offsetAt Sample.overPutForward.stop := by
    decide +kernel
  rw [zone] at clocks
  obtain ⟨today, sinceStart, untilStop⟩ := of_decide_eq_true clocks
  obtain ⟨-, -, isOpen⟩ :=
    between (Instant.utc 2026 3 29 1 0) ⟨by decide +kernel, by decide +kernel⟩
  exact ⟨covered, z, zone, today ▸ isOpen (by decide +kernel) sinceStart untilStop⟩

/-- When the clocks are put back over midnight, hours of Saturday cover a window that goes on
through an hour of Sunday. -/
theorem not_covered_windows_are_open : ¬ ∀ (slots : List WeeklySlot) (timeOff : List Window)
    (w : Window), w.start < w.stop → coversExactly slots timeOff w = true →
    (∃ s ∈ slots, s.active = true ∧ ∃ z, Zone.named? s.timezone = some z ∧
      ∃ d : Day, d.weekday = s.weekday ∧ ∀ i, w.Holds i → s.IsOpen z d i) ∧
    ∀ off ∈ timeOff, ∀ i, w.Holds i → ¬ off.Holds i := by
  intro allOpen
  obtain ⟨⟨s, hs, -, z, zone, d, -, isOpen⟩, -⟩ :=
    allOpen [Sample.lateSaturdays] [] Sample.overPutBack (by decide +kernel) (by decide +kernel)
  obtain rfl := List.mem_singleton.mp hs
  have days : (Zone.named? Sample.lateSaturdays.timezone).all fun z =>
      z.dayAt (Instant.utc 2026 11 1 3 0) = Day.ofCivil 2026 10 31 ∧
      z.dayAt (Instant.utc 2026 11 1 4 0) = Day.ofCivil 2026 11 1 := by
    decide +kernel
  rw [zone] at days
  obtain ⟨saturday, sunday⟩ := of_decide_eq_true days
  have atFirst := isOpen (Instant.utc 2026 11 1 3 0) ⟨by decide +kernel, by decide +kernel⟩
  have atSecond := isOpen (Instant.utc 2026 11 1 4 0) ⟨by decide +kernel, by decide +kernel⟩
  have same := (saturday.symm.trans atFirst.today).trans (atSecond.today.symm.trans sunday)
  revert same
  decide +kernel

/-- Half a minute past the end of the hours, the window is still covered. -/
theorem not_open_in_last_minute :
    coversExactly [Sample.mondays] [] Sample.lateMonday = true ∧
    Sample.lateMonday.Holds (Instant.utc 2026 3 2 16 0) ∧
    ∀ z, Zone.named? Sample.mondays.timezone = some z → ∀ d,
      ¬ Sample.mondays.IsOpen z d (Instant.utc 2026 3 2 16 0) := by
  have clocks : (Zone.named? Sample.mondays.timezone).all fun z =>
      z.dayAt (Instant.utc 2026 3 2 16 0) = Day.ofCivil 2026 3 2 ∧
      Zone.midnight (Day.ofCivil 2026 3 2) + Sample.mondays.endMinute * Instant.minute ≤
        z.toWall (Instant.utc 2026 3 2 16 0) := by
    decide +kernel
  refine ⟨by decide +kernel, ⟨by decide +kernel, by decide +kernel⟩, fun z zone d isOpen => ?_⟩
  rw [zone] at clocks
  obtain ⟨today, ended⟩ := of_decide_eq_true clocks
  obtain rfl := isOpen.today.symm.trans today
  exact absurd isOpen.notOver (not_lt.mpr ended)

end Staffing
