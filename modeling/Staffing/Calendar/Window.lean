import Staffing.Calendar.Instant

/-!
# Time windows

A window is half open: it holds the instants from `start` up to but not including `stop`. There is
one overlap rule, `Window.overlaps`, and every question of the form "does this clash with that"
is asked through it.

* `Window.overlaps` — each begins before the other ends
* `Window.wholeSeconds` — the window as the store keeps it
* `Window.minutes`, `Window.hours` — lengths, cut toward zero
-/

namespace Staffing

/-- The instants from `start` up to but not including `stop`. -/
structure Window where
  start : Instant
  stop : Instant
  deriving DecidableEq, Repr, Inhabited

namespace Window

/-- The window, unless it would hold no instant. -/
def make? (start stop : Instant) : Option Window :=
  if start < stop then some ⟨start, stop⟩ else none

/-- Each window begins before the other ends. -/
def overlaps (v w : Window) : Bool := v.start < w.stop && w.start < v.stop

theorem overlaps_comm (v w : Window) : v.overlaps w = w.overlaps v := by
  unfold overlaps; rw [Bool.and_comm]

/-- Two windows that hold an instant overlap exactly when they hold one together. -/
theorem overlaps_iff {v w : Window} (hv : v.start < v.stop) (hw : w.start < w.stop) :
    v.overlaps w = true ↔
      ∃ t : Instant, (v.start ≤ t ∧ t < v.stop) ∧ (w.start ≤ t ∧ t < w.stop) := by
  unfold overlaps
  simp only [Bool.and_eq_true, decide_eq_true_eq]
  constructor
  · rintro ⟨h₁, h₂⟩
    exact ⟨max v.start w.start, by lia, by lia⟩
  · rintro ⟨t, _, _⟩
    lia

/-- Both ends rounded down to the second. -/
def wholeSeconds (w : Window) : Window := ⟨w.start.wholeSecond, w.stop.wholeSecond⟩

@[simp]
theorem wholeSeconds_wholeSeconds (w : Window) : w.wholeSeconds.wholeSeconds = w.wholeSeconds := by
  simp [wholeSeconds]

/-- The length in milliseconds. -/
def length (w : Window) : Int := w.stop - w.start

/-- The length in whole minutes, cut toward zero. -/
def minutes (w : Window) : Int := w.length.tdiv Instant.minute

/-- The length in hours, of the whole seconds. -/
def hours (w : Window) : Float := Float.ofInt (w.length.tdiv Instant.second) / 3600

end Window

end Staffing
