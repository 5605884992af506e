import Mathlib
import Staffing.Roster.Availability

/-!
# Hours as stretches of time

A tier is found on the clocks of each slot's zone. Away from clock changes it can be said without
them: hours that recur are a stretch of time on each day of their weekday, and what counts is
whether one of these contains the window, or does so when it is widened.

On a day on which the clocks are put forward such a stretch may run into the next day. There it does
not count: both ends of a window have to fall on the slot's day.

* `WeeklySlot.OpensAt`, `WeeklySlot.hoursFrom` — a slot on one of its days, as a stretch of time
* `Zone.SteadyAround`, `Zone.Morning` — no clock change between the midnights around a window; the
  first of them
* `HoursContain`, `HoursNearlyContain` — the hours contain the window, as they are or widened
* `tier_by_containment` — what each tier says
* `not_all_containing_hours_exact` — hours that run into the next day do not count
-/

namespace Staffing

variable {slots : List WeeklySlot} {timeOff : List Window} {w : Window} {s : WeeklySlot} {z : Zone}
  {d : Day} {m : Instant} {buffer : Int}

/-! ## The best of several tiers -/

namespace Tier

theorem eq_buffer_iff {a : Tier} : a = .buffer ↔ a ≠ .exact ∧ a ≠ .unavailable := by
  cases a <;> decide

theorem eq_unavailable_iff {a : Tier} : a = .unavailable ↔ a ≠ .exact ∧ a ≠ .buffer := by
  cases a <;> decide

theorem max_eq_exact {a b : Tier} : a.max b = exact ↔ a = exact ∨ b = exact := by
  cases a <;> cases b <;> decide

theorem max_eq_unavailable {a b : Tier} :
    a.max b = unavailable ↔ a = unavailable ∧ b = unavailable := by
  cases a <;> cases b <;> decide

end Tier

theorem bestTier_eq_exact : bestTier slots w buffer = .exact ↔
    ∃ s ∈ slots, s.tier w buffer = .exact := by
  unfold bestTier
  have loop (best : Tier) : slots.foldl (fun best s => best.max (s.tier w buffer)) best = .exact ↔
      best = .exact ∨ ∃ s ∈ slots, s.tier w buffer = .exact := by
    induction slots generalizing best with
    | nil => simp
    | cons s rest ih =>
      rw [List.foldl_cons, ih, Tier.max_eq_exact, List.exists_mem_cons_iff, or_assoc]
  simpa using loop .unavailable

theorem bestTier_eq_unavailable : bestTier slots w buffer = .unavailable ↔
    ∀ s ∈ slots, s.tier w buffer = .unavailable := by
  unfold bestTier
  have loop (best : Tier) :
      slots.foldl (fun best s => best.max (s.tier w buffer)) best = .unavailable ↔
        best = .unavailable ∧ ∀ s ∈ slots, s.tier w buffer = .unavailable := by
    induction slots generalizing best with
    | nil => simp
    | cons s rest ih =>
      rw [List.foldl_cons, ih, Tier.max_eq_unavailable, List.forall_mem_cons, and_assoc]
  simpa using loop .unavailable

theorem bestTier_eq_buffer : bestTier slots w buffer = .buffer ↔
    (∀ s ∈ slots, s.tier w buffer ≠ .exact) ∧ ∃ s ∈ slots, s.tier w buffer = .buffer := by
  rw [Tier.eq_buffer_iff, ne_eq, ne_eq, bestTier_eq_exact, bestTier_eq_unavailable]
  simp only [not_exists, not_and, not_forall, exists_prop]
  refine and_congr_right fun notExact => exists_congr fun s => and_congr_right fun hs => ?_
  rw [Tier.eq_buffer_iff, and_iff_right (notExact s hs)]

theorem timeOffOverlaps_eq_false :
    timeOffOverlaps timeOff w = false ↔ ∀ off ∈ timeOff, off.overlaps w = false := by
  simp only [timeOffOverlaps, List.any_eq_false, Bool.not_eq_true, Window.overlaps_comm w]

/-- A tier other than `unavailable` is the best one, and no time off overrules it. -/
theorem Coverage.tier_resolve {tier : Tier} (covers : tier ≠ .unavailable) :
    (Coverage.resolve slots timeOff w buffer).tier = tier ↔
      (∀ off ∈ timeOff, off.overlaps w = false) ∧ bestTier slots w buffer = tier := by
  unfold Coverage.resolve
  rw [← timeOffOverlaps_eq_false]
  by_cases off : timeOffOverlaps timeOff w = true
  · rw [if_pos off, off]
    exact iff_of_false covers.symm nofun
  · rw [if_neg off, and_iff_right (Bool.eq_false_iff.mpr off)]

/-! ## Hours as stretches of time -/

/-- The slot counts on the day `d`, whose midnight is at `m`. -/
structure WeeklySlot.OpensAt (s : WeeklySlot) (z : Zone) (d : Day) (m : Instant) : Prop where
  active : s.active = true
  zone : Zone.named? s.timezone = some z
  lasts : s.startMinute < s.endMinute
  weekday : d.weekday = s.weekday
  midnight : z.toWall m = Zone.midnight d

/-- The hours of the slot, counted from a midnight. -/
def WeeklySlot.hoursFrom (s : WeeklySlot) (m : Instant) : Window :=
  ⟨m + s.startMinute * Instant.minute, m + s.endMinute * Instant.minute⟩

/-- The window `w` lies in `v`. -/
def Window.Contains (v w : Window) : Prop := v.start ≤ w.start ∧ w.stop ≤ v.stop

/-- The window with some minutes more at either end. -/
def Window.widened (v : Window) (minutes : Int) : Window :=
  ⟨v.start - minutes * Instant.minute, v.stop + minutes * Instant.minute⟩

namespace Zone

/-- The clocks show midnight. -/
def IsMidnight (z : Zone) (i : Instant) : Prop := ∃ d, z.toWall i = midnight d

/-- The first midnight after an instant. -/
structure NextMidnight (z : Zone) (i next : Instant) : Prop where
  later : i < next
  midnight : z.IsMidnight next
  first : ∀ k, i < k → k < next → ¬ z.IsMidnight k

/-- The clocks are not changed. -/
def Steady (z : Zone) (first last : Instant) : Prop :=
  ∀ i, first ≤ i → i ≤ last → z.offsetAt i = z.offsetAt first

/-- The clocks are not changed between a midnight before the window and one after it. -/
def SteadyAround (z : Zone) (w : Window) : Prop :=
  ∃ first last, z.IsMidnight first ∧ z.IsMidnight last ∧ first ≤ w.start ∧ w.stop ≤ last ∧
    z.Steady first last

end Zone

/-- Hours of the slot contain the window, and the clocks are not changed before these end. -/
def WeeklySlot.HoldsWindow (s : WeeklySlot) (w : Window) : Prop :=
  ∃ z d m, s.OpensAt z d m ∧ z.Steady m (s.hoursFrom m).stop ∧ (s.hoursFrom m).Contains w

/-- Hours of the slot on the day on which the window starts meet it. Widened they contain it, and it
ends when the day does at the latest. -/
def WeeklySlot.NearlyHolds (s : WeeklySlot) (w : Window) (buffer : Int) : Prop :=
  ∃ z d m, s.OpensAt z d m ∧ z.Steady m (s.hoursFrom m).stop ∧ d = z.dayAt w.start ∧
    (s.hoursFrom m).overlaps w = true ∧ ((s.hoursFrom m).widened buffer).Contains w ∧
    ∃ next, z.NextMidnight w.start next ∧ w.stop ≤ next

/-! ## The first midnight -/

/-- The day on which the window starts begins at `m`, and the clocks are not changed until that day
and the window are over. -/
structure Zone.Morning (z : Zone) (w : Window) (m : Instant) : Prop where
  midnight : z.toWall m = Zone.midnight (z.dayAt w.start)
  before : m ≤ w.start
  sameDay : w.start < m + Instant.dayLength
  steady : ∀ i, m ≤ i → i ≤ m + Instant.dayLength ∨ i ≤ w.stop → z.offsetAt i = z.offsetAt m

theorem Zone.SteadyAround.exists_morning (h : z.SteadyAround w) (lasts : w.start < w.stop) :
    ∃ m, z.Morning w m := by
  obtain ⟨first, last, ⟨d₁, first_⟩, ⟨d₂, last_⟩, before, after, steady⟩ := h
  have atStart := steady w.start before (by lia)
  have atLast := steady last (by lia) le_rfl
  unfold toWall Zone.midnight at first_ last_
  rw [atLast] at last_
  -- Days have one length between the two midnights, so one begins where the day of the start does.
  obtain ⟨n, day⟩ : ∃ n, (w.start + z.offsetAt first * Instant.minute) / Instant.dayLength = n :=
    ⟨_, rfl⟩
  have today : z.dayAt w.start = ⟨n⟩ := by
    unfold dayAt wallDay toWall
    rw [atStart, day]
  obtain ⟨m, begins⟩ : ∃ m, m + z.offsetAt first * Instant.minute = n * Instant.dayLength :=
    ⟨n * Instant.dayLength - z.offsetAt first * Instant.minute, by lia⟩
  have bounds : first ≤ m ∧ m ≤ w.start ∧ w.start < m + Instant.dayLength ∧
      m + Instant.dayLength ≤ last := by lia
  obtain ⟨fromFirst, upToStart, sameDay, upToLast⟩ := bounds
  have atMorning := steady m fromFirst (by lia)
  refine ⟨m, ?_, upToStart, sameDay, fun i from_ upTo => ?_⟩
  · unfold toWall Zone.midnight
    rw [atMorning, today, begins]
  · rw [atMorning]
    exact steady i (by lia) (by lia)

/-! ## On the clocks -/

/-- The clocks show how long ago the first midnight was. -/
theorem Zone.Morning.toWall_eq {i : Instant} (h : z.Morning w m) (later : m ≤ i)
    (upTo : i ≤ m + Instant.dayLength ∨ i ≤ w.stop) :
    z.toWall i = Zone.midnight (z.dayAt w.start) + (i - m) := by
  rw [← h.midnight]
  unfold toWall
  rw [h.steady i later upTo]
  lia

/-- The day ends at the next midnight. -/
theorem Zone.Morning.endsToday_iff (h : z.Morning w m) :
    (∃ next, z.NextMidnight w.start next ∧ w.stop ≤ next) ↔ w.stop ≤ m + Instant.dayLength := by
  have before := h.before
  have sameDay := h.sameDay
  have tomorrow : z.toWall (m + Instant.dayLength)
      = Zone.midnight ((z.dayAt w.start).addDays 1) := by
    rw [h.toWall_eq (by lia) (.inl le_rfl)]
    unfold Zone.midnight Day.addDays
    lia
  constructor
  · rintro ⟨next, ⟨-, -, first⟩, upTo⟩
    by_contra late
    exact first (m + Instant.dayLength) sameDay (by lia) ⟨_, tomorrow⟩
  · intro upTo
    refine ⟨m + Instant.dayLength, ⟨sameDay, ⟨_, tomorrow⟩, fun k after before => ?_⟩, upTo⟩
    rintro ⟨d, shows⟩
    rw [h.toWall_eq (by lia) (.inl (by lia))] at shows
    unfold Zone.midnight at shows
    lia

/-- The ends of the window on the clocks, in whole minutes since midnight. -/
theorem Zone.Morning.localSpan (h : z.Morning w m) (lasts : w.start < w.stop)
    (whole : Instant.minute ∣ w.start ∧ Instant.minute ∣ w.stop) :
    w.start = m + (w.localSpan z).startMinute * Instant.minute ∧
      w.stop = m + (w.localSpan z).endMinute * Instant.minute := by
  have before := h.before
  have first := h.midnight
  obtain ⟨⟨a, start_⟩, ⟨b, stop_⟩⟩ := whole
  unfold Window.localSpan
  dsimp only
  rw [h.toWall_eq before (by lia), h.toWall_eq (i := w.stop) (by lia) (.inr le_rfl),
    Int.tdiv_eq_ediv_of_nonneg (by lia)]
  unfold toWall Zone.midnight at first
  lia

/-- A midnight of the same clocks, on the day on which the window starts, is the first one. -/
theorem Zone.Morning.unique {m' : Instant} (h : z.Morning w m)
    (midnight : z.toWall m' = Zone.midnight d) (same : z.offsetAt m' = z.offsetAt m)
    (today : d = z.dayAt w.start) : m' = m := by
  have first := h.midnight
  rw [← today, ← midnight] at first
  unfold toWall at first
  rw [same] at first
  lia

section Slot

variable (h : z.Morning w m) (zone : Zone.named? s.timezone = some z)
  (minutes : s.endMinute ≤ 1440)
include h zone minutes

/-- Hours that contain the window are those of the day on which it starts. -/
theorem WeeklySlot.holdsWindow_iff (lasts : w.start < w.stop) : s.HoldsWindow w ↔
    s.OpensAt z (z.dayAt w.start) m ∧ (s.hoursFrom m).Contains w := by
  constructor
  · rintro ⟨z', d, m', opens, steady, contains⟩
    obtain rfl : z = z' := Option.some.inj (zone.symm.trans opens.zone)
    obtain ⟨starts, ends⟩ := contains
    unfold hoursFrom at steady starts ends
    dsimp only at steady starts ends
    have atStart := steady w.start (by lia) (by lia)
    have same : z.offsetAt m' = z.offsetAt m := by
      rw [← atStart]
      exact h.steady w.start h.before (.inr (by lia))
    have today : d = z.dayAt w.start := by
      have midnight := opens.midnight
      have lasts := opens.lasts
      unfold Zone.dayAt Zone.wallDay
      unfold Zone.toWall Zone.midnight at *
      obtain ⟨d⟩ := d
      rw [Day.mk.injEq, atStart]
      lia
    obtain rfl := h.unique opens.midnight same today
    exact ⟨today ▸ opens, starts, ends⟩
  · rintro ⟨opens, contains⟩
    refine ⟨z, _, m, opens, fun i from_ upTo => h.steady i from_ (.inl ?_), contains⟩
    unfold hoursFrom at upTo
    dsimp only at upTo
    lia

/-- Hours that meet the window on the day on which it starts are those from its midnight on. -/
theorem WeeklySlot.nearlyHolds_iff : s.NearlyHolds w buffer ↔
    s.OpensAt z (z.dayAt w.start) m ∧ (s.hoursFrom m).overlaps w = true ∧
      ((s.hoursFrom m).widened buffer).Contains w ∧ w.stop ≤ m + Instant.dayLength := by
  constructor
  · rintro ⟨z', d, m', opens, steady, today, meets, contains, ends⟩
    obtain rfl : z = z' := Option.some.inj (zone.symm.trans opens.zone)
    obtain ⟨meetsStop, meetsStart⟩ :
        (s.hoursFrom m').start < w.stop ∧ w.start < (s.hoursFrom m').stop := by
      simpa [Window.overlaps] using meets
    have from_ : m' ≤ (s.hoursFrom m').start := by
      unfold hoursFrom
      dsimp only
      lia
    -- Between that midnight and the start of the window the clocks are not changed.
    have same : z.offsetAt m' = z.offsetAt m := by
      rcases le_total m' w.start with before | after
      · rw [← steady w.start before (by lia)]
        exact h.steady w.start h.before (.inl h.sameDay.le)
      · have := h.before
        exact h.steady m' (by lia) (.inr (by lia))
    obtain rfl := h.unique opens.midnight same today
    exact ⟨today ▸ opens, meets, contains, h.endsToday_iff.mp ends⟩
  · rintro ⟨opens, meets, contains, ends⟩
    refine ⟨z, _, m, opens, fun i from_ upTo => h.steady i from_ (.inl ?_), rfl, meets, contains,
      h.endsToday_iff.mpr ends⟩
    unfold hoursFrom at upTo
    dsimp only at upTo
    lia

end Slot

/-! ## The tier of one slot -/

namespace WeeklySlot

/-- A slot that is not active or has no known zone covers nothing. -/
theorem tier_of_closed (closed : s.active = true → Zone.named? s.timezone = none) :
    s.tier w buffer = .unavailable := by
  unfold tier
  cases active : s.active with
  | false => rfl
  | true => rw [closed active, ite_self]

theorem not_opensAt_of_closed (closed : s.active = true → Zone.named? s.timezone = none) :
    ¬ s.OpensAt z d m := by
  intro opens
  have zone := opens.zone
  rw [closed opens.active] at zone
  cases zone

/-- What the clocks say of a window that starts and ends on the slot's day. -/
theorem tier_of_zone (active : s.active = true) (zone : Zone.named? s.timezone = some z) :
    s.tier w buffer =
      if s.startMinute < s.endMinute ∧ (z.dayAt w.start).weekday = s.weekday ∧
          (w.localSpan z).endMinute ≤ minutesPerDay then
        if (s.startMinute : Int) ≤ (w.localSpan z).startMinute ∧
            (w.localSpan z).endMinute ≤ s.endMinute then .exact
        else if 0 < buffer ∧ (w.localSpan z).startMinute < s.endMinute ∧
            (s.startMinute : Int) < (w.localSpan z).endMinute ∧
            s.startMinute - buffer ≤ (w.localSpan z).startMinute ∧
            (w.localSpan z).endMinute ≤ s.endMinute + buffer then .buffer
        else .unavailable
      else .unavailable := by
  have weekday : (w.localSpan z).weekday = (z.dayAt w.start).weekday := rfl
  have empty : (!s.active || decide (s.minutes = 0)) = true ↔ ¬ s.startMinute < s.endMinute := by
    rw [active, Bool.not_true, Bool.false_or, decide_eq_true_iff, minutes]
    lia
  unfold tier
  rw [zone, ← weekday]
  by_cases lasts : s.startMinute < s.endMinute
  · refine (if_neg (empty.not.mpr (not_not.mpr lasts))).trans ?_
    by_cases sameDay : (w.localSpan z).weekday = s.weekday ∧
        (w.localSpan z).endMinute ≤ minutesPerDay
    · exact (if_neg (by lia)).trans (if_pos ⟨lasts, sameDay⟩).symm
    · exact (if_pos (by lia)).trans (if_neg fun h => sameDay h.2).symm
  · exact (if_pos (empty.mpr lasts)).trans (if_neg fun h => lasts h.1).symm

section Steady

variable (buffer) (minutes : s.endMinute ≤ 1440) (lasts : w.start < w.stop)
  (whole : Instant.minute ∣ w.start ∧ Instant.minute ∣ w.stop)
  (steady : s.active = true → ∀ z, Zone.named? s.timezone = some z → z.SteadyAround w)
include minutes lasts whole steady

/-- The tier says whether hours contain the window, or do so when they are widened. -/
theorem tier_iff : (s.tier w buffer = .exact ↔ s.HoldsWindow w) ∧
    (s.tier w buffer = .buffer ↔ ¬ s.HoldsWindow w ∧ 0 < buffer ∧ s.NearlyHolds w buffer) := by
  by_cases closed : s.active = true → Zone.named? s.timezone = none
  · rw [tier_of_closed closed]
    refine ⟨iff_of_false nofun ?_, iff_of_false nofun ?_⟩
    · rintro ⟨z, d, m, opens, -⟩
      exact not_opensAt_of_closed closed opens
    · rintro ⟨-, -, z, d, m, opens, -⟩
      exact not_opensAt_of_closed closed opens
  · obtain ⟨active, known⟩ := Classical.not_imp.mp closed
    obtain ⟨z, zone⟩ := Option.ne_none_iff_exists'.mp known
    obtain ⟨m, h⟩ := (steady active z zone).exists_morning lasts
    obtain ⟨starts, stops⟩ := h.localSpan lasts whole
    rw [holdsWindow_iff h zone minutes lasts, nearlyHolds_iff h zone minutes,
      tier_of_zone active zone]
    have opensAt : s.OpensAt z (z.dayAt w.start) m ↔
        s.startMinute < s.endMinute ∧ (z.dayAt w.start).weekday = s.weekday :=
      ⟨fun opens => ⟨opens.lasts, opens.weekday⟩,
        fun ⟨lasts, weekday⟩ => ⟨active, zone, lasts, weekday, h.midnight⟩⟩
    have contains : (s.hoursFrom m).Contains w ↔
        (s.startMinute : Int) ≤ (w.localSpan z).startMinute ∧
          (w.localSpan z).endMinute ≤ s.endMinute := by
      unfold Window.Contains hoursFrom
      dsimp only
      lia
    have nearly : (s.hoursFrom m).overlaps w = true ∧ ((s.hoursFrom m).widened buffer).Contains w ↔
        (w.localSpan z).startMinute < s.endMinute ∧
          (s.startMinute : Int) < (w.localSpan z).endMinute ∧
          s.startMinute - buffer ≤ (w.localSpan z).startMinute ∧
          (w.localSpan z).endMinute ≤ s.endMinute + buffer := by
      unfold Window.Contains Window.widened Window.overlaps hoursFrom
      simp only [Bool.and_eq_true, decide_eq_true_iff]
      lia
    have sameDay : w.stop ≤ m + Instant.dayLength ↔ (w.localSpan z).endMinute ≤ minutesPerDay := by
      lia
    rw [opensAt, contains, ← and_assoc (a := (s.hoursFrom m).overlaps w = true), nearly, sameDay]
    split_ifs with opens fits meets
    · exact ⟨iff_of_true rfl ⟨⟨opens.1, opens.2.1⟩, fits⟩,
        iff_of_false nofun fun h => h.1 ⟨⟨opens.1, opens.2.1⟩, fits⟩⟩
    · exact ⟨iff_of_false nofun fun h => fits h.2, iff_of_true rfl
        ⟨fun h => fits h.2, meets.1, ⟨opens.1, opens.2.1⟩, meets.2, opens.2.2⟩⟩
    · exact ⟨iff_of_false nofun fun h => fits h.2,
        iff_of_false nofun fun ⟨_, positive, _, nearly, _⟩ => meets ⟨positive, nearly⟩⟩
    · -- Hours that end with their day contain no window that ends later.
      constructor
      · exact iff_of_false nofun fun ⟨⟨lasts, weekday⟩, fits⟩ =>
          opens ⟨lasts, weekday, fits.2.trans (by lia)⟩
      · exact iff_of_false nofun fun ⟨_, _, ⟨lasts, weekday⟩, _, sameDay⟩ =>
          opens ⟨lasts, weekday, sameDay⟩

end Steady

end WeeklySlot

/-! ## The tier of all slots -/

/-- Hours of some slot contain the window. -/
def HoursContain (slots : List WeeklySlot) (w : Window) : Prop := ∃ s ∈ slots, s.HoldsWindow w

/-- Hours of some slot contain the window when they are widened. -/
def HoursNearlyContain (slots : List WeeklySlot) (w : Window) (buffer : Int) : Prop :=
  ∃ s ∈ slots, s.NearlyHolds w buffer

section Steady

variable (buffer) (minutes : ∀ s ∈ slots, s.endMinute ≤ 1440) (lasts : w.start < w.stop)
  (whole : Instant.minute ∣ w.start ∧ Instant.minute ∣ w.stop)
  (steady : ∀ s ∈ slots, s.active = true → ∀ z, Zone.named? s.timezone = some z →
    z.SteadyAround w)
include minutes lasts whole steady

theorem bestTier_eq_exact_iff : bestTier slots w buffer = .exact ↔ HoursContain slots w := by
  rw [bestTier_eq_exact]
  refine exists_congr fun s => and_congr_right fun hs => ?_
  exact (WeeklySlot.tier_iff buffer (minutes s hs) lasts whole (steady s hs)).1

theorem bestTier_eq_buffer_iff : bestTier slots w buffer = .buffer ↔
    ¬ HoursContain slots w ∧ 0 < buffer ∧ HoursNearlyContain slots w buffer := by
  have each (s : WeeklySlot) (hs : s ∈ slots) :=
    (WeeklySlot.tier_iff buffer (minutes s hs) lasts whole (steady s hs)).2
  rw [← bestTier_eq_exact_iff buffer minutes lasts whole steady, Tier.eq_buffer_iff]
  refine and_congr_right fun notExact => ?_
  have never (s : WeeklySlot) (hs : s ∈ slots) : ¬ s.HoldsWindow w := fun holds => notExact
    ((bestTier_eq_exact_iff buffer minutes lasts whole steady).mpr ⟨s, hs, holds⟩)
  constructor
  · intro covers
    obtain ⟨-, s, hs, isBuffer⟩ := bestTier_eq_buffer.mp (Tier.eq_buffer_iff.mpr ⟨notExact, covers⟩)
    obtain ⟨-, positive, nearly⟩ := (each s hs).mp isBuffer
    exact ⟨positive, s, hs, nearly⟩
  · rintro ⟨positive, s, hs, nearly⟩ unavailable
    have isBuffer := (each s hs).mpr ⟨never s hs, positive, nearly⟩
    rw [bestTier_eq_unavailable.mp unavailable s hs] at isBuffer
    cases isBuffer

/-- **Tiers say what hours contain.** The window begins and ends on a minute, and around it the
clocks of all active slots are not changed from midnight to midnight. Then a time off in the window
overrules the hours. Otherwise the tier is `exact` if and only if hours contain the window. It is
`buffer` if and only if they do not, but do so when they are widened. Whether a window is covered
fully has nothing to do with the buffer. -/
theorem tier_by_containment (timeOff : List Window) (buffer : Int) :
    ((Coverage.resolve slots timeOff w buffer).tier = .exact ↔
      (∀ off ∈ timeOff, off.overlaps w = false) ∧ HoursContain slots w) ∧
    ((Coverage.resolve slots timeOff w buffer).tier = .buffer ↔
      (∀ off ∈ timeOff, off.overlaps w = false) ∧ ¬ HoursContain slots w ∧
        0 < buffer ∧ HoursNearlyContain slots w buffer) ∧
    ((Coverage.resolve slots timeOff w buffer).tier = .unavailable ↔
      (∃ off ∈ timeOff, off.overlaps w = true) ∨
        ¬ HoursContain slots w ∧ ¬ (0 < buffer ∧ HoursNearlyContain slots w buffer)) ∧
    (coversExactly slots timeOff w = true ↔
      (Coverage.resolve slots timeOff w buffer).tier = .exact) := by
  have isExact (buffer : Int) : (Coverage.resolve slots timeOff w buffer).tier = .exact ↔
      (∀ off ∈ timeOff, off.overlaps w = false) ∧ HoursContain slots w := by
    rw [Coverage.tier_resolve (by decide), bestTier_eq_exact_iff buffer minutes lasts whole steady]
  have isBuffer : (Coverage.resolve slots timeOff w buffer).tier = .buffer ↔
      (∀ off ∈ timeOff, off.overlaps w = false) ∧ ¬ HoursContain slots w ∧
        0 < buffer ∧ HoursNearlyContain slots w buffer := by
    rw [Coverage.tier_resolve (by decide), bestTier_eq_buffer_iff buffer minutes lasts whole steady]
  have isOff : (∃ off ∈ timeOff, off.overlaps w = true) ↔
      ¬ ∀ off ∈ timeOff, off.overlaps w = false := by
    simp only [not_forall, Bool.not_eq_false, exists_prop]
  refine ⟨isExact buffer, isBuffer, ?_, ?_⟩
  · rw [Tier.eq_unavailable_iff, ne_eq, ne_eq, isExact, isBuffer, isOff]
    tauto
  · unfold coversExactly
    rw [decide_eq_true_iff, isExact 0, isExact buffer]

end Steady

/-! ## Clock changes -/

namespace Zone

/-- Between two changes of the clocks one offset is in force. -/
theorem offsetFrom_eq {offset : Int} {changes : List (Instant × Int)} {first last i : Instant}
    (quiet : ∀ c ∈ changes, c.1 ≤ first ∨ last < c.1) (from_ : first ≤ i) (upTo : i ≤ last) :
    offsetFrom offset changes i = offsetFrom offset changes first := by
  induction changes generalizing offset with
  | nil => rfl
  | cons c rest ih =>
    obtain ⟨at_, next⟩ := c
    unfold offsetFrom
    rcases quiet _ List.mem_cons_self with past | later
    · rw [if_neg (by lia), if_neg (by lia)]
      exact ih fun c hc => quiet c (List.mem_cons_of_mem _ hc)
    · rw [if_pos (by lia), if_pos (by lia)]

/-- The changes of the clocks show where they are steady. -/
theorem SteadyAround.of_changes {name : String} {first last : Instant} {d₁ d₂ : Day}
    (h : (named? name).all fun z => z.toWall first = midnight d₁ ∧ z.toWall last = midnight d₂ ∧
      (first ≤ w.start ∧ w.stop ≤ last) ∧ ∀ c ∈ z.changes, c.1 ≤ first ∨ last < c.1)
    (zone : named? name = some z) : z.SteadyAround w := by
  rw [zone] at h
  obtain ⟨from_, upTo, ⟨before, after⟩, quiet⟩ := of_decide_eq_true h
  exact ⟨first, last, ⟨d₁, from_⟩, ⟨d₂, upTo⟩, before, after, fun i => offsetFrom_eq quiet⟩

end Zone

namespace Sample

/-- Monday from 9 to 17 o'clock. -/
def mondays : WeeklySlot := ⟨1, 540, 1020, "Europe/Berlin", true⟩

/-- A Monday from half past 8 to 10 o'clock on the clocks of Berlin. -/
def earlyMonday : Window := ⟨Instant.utc 2026 3 2 7 30, Instant.utc 2026 3 2 9 0⟩

/-- All of Sunday. -/
def sundays : WeeklySlot := ⟨0, 0, 1440, "Europe/Berlin", true⟩

/-- Half an hour just after midnight, when a Sunday of 23 hours is over. -/
def afterShortSunday : Window := ⟨Instant.utc 2026 3 29 22 15, Instant.utc 2026 3 29 22 45⟩

end Sample

/-- Half an hour early, the window is covered with an hour of buffer. -/
theorem tier_by_containment_earlyMonday :
    (∀ z, Zone.named? Sample.mondays.timezone = some z → z.SteadyAround Sample.earlyMonday) ∧
    (Coverage.resolve [Sample.mondays] [] Sample.earlyMonday 60).tier = .buffer ∧
    ¬ HoursContain [Sample.mondays] Sample.earlyMonday ∧
    HoursNearlyContain [Sample.mondays] Sample.earlyMonday 60 := by
  have changes : (Zone.named? Sample.mondays.timezone).all fun z =>
      z.toWall (Instant.utc 2026 3 1 23 0) = Zone.midnight (Day.ofCivil 2026 3 2) ∧
      z.toWall (Instant.utc 2026 3 2 23 0) = Zone.midnight (Day.ofCivil 2026 3 3) ∧
      (Instant.utc 2026 3 1 23 0 ≤ Sample.earlyMonday.start ∧
        Sample.earlyMonday.stop ≤ Instant.utc 2026 3 2 23 0) ∧
      ∀ c ∈ z.changes, c.1 ≤ Instant.utc 2026 3 1 23 0 ∨ Instant.utc 2026 3 2 23 0 < c.1 := by
    decide +kernel
  have steady (z : Zone) (zone : Zone.named? Sample.mondays.timezone = some z) :
      z.SteadyAround Sample.earlyMonday :=
    .of_changes changes zone
  have tier : (Coverage.resolve [Sample.mondays] [] Sample.earlyMonday 60).tier = .buffer := by
    decide +kernel
  have minutes : ∀ s ∈ [Sample.mondays], s.endMinute ≤ 1440 := by decide
  have lasts : Sample.earlyMonday.start < Sample.earlyMonday.stop := by decide +kernel
  obtain ⟨-, isBuffer, -⟩ := tier_by_containment minutes lasts (by decide +kernel)
    (fun s hs _ => List.mem_singleton.mp hs ▸ steady) [] 60
  obtain ⟨-, notContained, -, nearly⟩ := isBuffer.mp tier
  exact ⟨steady, tier, notContained, nearly⟩

/-- Hours that run into the next day do not count there. So it is not enough that the clocks are
steady from the midnight before the window on: they must be so from the midnight of the hours on. -/
theorem not_all_containing_hours_exact : ¬ ∀ (slots : List WeeklySlot) (w : Window),
    (∀ s ∈ slots, s.startMinute ≤ 1440 ∧ s.endMinute ≤ 1440) → w.start < w.stop →
    Instant.minute ∣ w.start ∧ Instant.minute ∣ w.stop →
    (∀ s ∈ slots, s.active = true → ∀ z, Zone.named? s.timezone = some z → z.SteadyAround w) →
    ((Coverage.resolve slots [] w 60).tier = .exact ↔ ∃ s ∈ slots, ∃ z d m,
      s.OpensAt z d m ∧ (s.hoursFrom m).Contains w) := by
  intro exact_iff
  have changes : (Zone.named? Sample.sundays.timezone).all fun z =>
      z.toWall (Instant.utc 2026 3 29 22 0) = Zone.midnight (Day.ofCivil 2026 3 30) ∧
      z.toWall (Instant.utc 2026 3 30 22 0) = Zone.midnight (Day.ofCivil 2026 3 31) ∧
      (Instant.utc 2026 3 29 22 0 ≤ Sample.afterShortSunday.start ∧
        Sample.afterShortSunday.stop ≤ Instant.utc 2026 3 30 22 0) ∧
      ∀ c ∈ z.changes, c.1 ≤ Instant.utc 2026 3 29 22 0 ∨ Instant.utc 2026 3 30 22 0 < c.1 := by
    decide +kernel
  have begins : (Zone.named? Sample.sundays.timezone).any fun z =>
      z.toWall (Instant.utc 2026 3 28 23 0) = Zone.midnight (Day.ofCivil 2026 3 29) := by
    decide +kernel
  have tier : (Coverage.resolve [Sample.sundays] [] Sample.afterShortSunday 60).tier
      = .unavailable := by
    decide +kernel
  have steady (z : Zone) (zone : Zone.named? Sample.sundays.timezone = some z) :
      z.SteadyAround Sample.afterShortSunday :=
    .of_changes changes zone
  obtain ⟨z, zone⟩ : ∃ z, Zone.named? Sample.sundays.timezone = some z :=
    Option.isSome_iff_exists.mp (by decide +kernel)
  rw [zone] at begins
  -- Monday has begun when the 24 hours from the midnight before Sunday are over.
  have contained : ∃ s ∈ [Sample.sundays], ∃ z d m,
      s.OpensAt z d m ∧ (s.hoursFrom m).Contains Sample.afterShortSunday := by
    refine ⟨_, List.mem_singleton_self _, z, _, _,
      ⟨rfl, zone, by decide, by decide +kernel, of_decide_eq_true begins⟩, ?_⟩
    unfold Window.Contains
    decide +kernel
  have covers := (exact_iff [Sample.sundays] Sample.afterShortSunday (by decide) (by decide +kernel)
    (by decide +kernel) fun s hs _ => List.mem_singleton.mp hs ▸ steady).mpr contained
  rw [tier] at covers
  cases covers

end Staffing
