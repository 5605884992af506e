import Staffing.Proofs.OpenHours

/-!
# Days that no time off touches

Whether a slot of a day is free is asked of one window: from the instant at which the clocks show
its start to the instant at which they show its end, each read on its own. When the clocks are
changed on that day, the hours of the slot may be open outside of that window, and a time off there
is not seen.

* `WeeklySlot.CountsOn`, `WeeklySlot.FreeOn` — the slot is one of the day, and no time off touches
  its hours
* `WeeklySlot.Vouches` — the window of a slot holds all hours of another one
* `Zone.ShowsOnce` — the clocks run through the day once
* `WeeklySlot.isOpen_iff` — then the window of a slot holds just its hours
* `counted_slots_are_free_iff` — when a slot that counts has no time off in its hours
* `not_counted_slots_are_free` — the clocks show the hour after 2 twice
-/

namespace Staffing

variable {slots : List WeeklySlot} {timeOff : List Window} {s r : WeeklySlot} {z : Zone} {d : Day}
  {w : Window} {i m : Instant}

/-! ## The slots of a day -/

/-- The slot is an active one of the day, and not empty. -/
structure WeeklySlot.CountsOn (s : WeeklySlot) (d : Day) : Prop where
  active : s.active = true
  weekday : s.weekday = d.weekday
  lasts : s.startMinute < s.endMinute

/-- No time off holds an instant at which the clocks show hours of the slot. -/
def WeeklySlot.FreeOn (s : WeeklySlot) (z : Zone) (d : Day) (timeOff : List Window) : Prop :=
  ∀ off ∈ timeOff, ∀ i, off.Holds i → ¬ s.IsOpen z d i

/-- A day is available when no time off overlaps the window of a slot that counts. -/
theorem availableOnDay_iff : availableOnDay slots timeOff d z = true ↔
    ∃ s ∈ slots, s.CountsOn d ∧ ∀ off ∈ timeOff, off.overlaps (s.windowOn z d) = false := by
  unfold availableOnDay
  simp only [List.any_eq_true, Bool.and_eq_true, decide_eq_true_iff, Bool.not_eq_true',
    timeOffOverlaps_eq_false]
  refine exists_congr fun s => and_congr_right fun _ => ?_
  constructor
  · rintro ⟨⟨⟨active, weekday⟩, lasts⟩, free⟩
    exact ⟨⟨active, weekday, Nat.lt_of_sub_pos lasts⟩, free⟩
  · rintro ⟨⟨active, weekday, lasts⟩, free⟩
    exact ⟨⟨⟨active, weekday⟩, Nat.sub_pos_of_lt lasts⟩, free⟩

/-- The window of a slot holds all instants at which the hours of another one are open. -/
def WeeklySlot.Vouches (s r : WeeklySlot) (z : Zone) (d : Day) : Prop :=
  ∀ i, r.IsOpen z d i → (s.windowOn z d).Holds i

/-- A time off that is seen in no window is in no hours for which the window vouches. -/
theorem WeeklySlot.Vouches.freeOn (h : s.Vouches r z d)
    (free : ∀ off ∈ timeOff, off.overlaps (s.windowOn z d) = false) : r.FreeOn z d timeOff := by
  intro off hoff i holds isOpen
  exact Bool.false_ne_true ((free off hoff).symm.trans (holds.overlaps (h i isOpen)))

/-- An instant, as the shortest window there is. -/
def Instant.alone (i : Instant) : Window := ⟨i, i + 1⟩

theorem Instant.alone_holds (i : Instant) : (alone i).Holds i := ⟨le_rfl, Int.lt_succ i⟩

/-- The shortest window overlaps those that hold its instant. -/
theorem Instant.overlaps_alone : (alone i).overlaps w = true ↔ w.Holds i := by
  unfold alone Window.overlaps Window.Holds
  rw [Bool.and_eq_true, decide_eq_true_iff, decide_eq_true_iff]
  lia

/-- When a slot's window vouches for no slot that counts, there are times off that touch them all
and are not seen in it. -/
theorem exists_unseen_timeOff (blind : ∀ r ∈ slots, r.CountsOn d → ¬ s.Vouches r z d) :
    ∃ timeOff : List Window, (∀ off ∈ timeOff, off.start < off.stop) ∧
      (∀ off ∈ timeOff, off.overlaps (s.windowOn z d) = false) ∧
      ∀ r ∈ slots, r.CountsOn d → ¬ r.FreeOn z d timeOff := by
  induction slots with
  | nil => exact ⟨[], nofun, nofun, nofun⟩
  | cons r rest ih =>
    obtain ⟨timeOff, proper, unseen, touched⟩ := ih fun r hr => blind r (List.mem_cons_of_mem _ hr)
    by_cases counts : r.CountsOn d
    · obtain ⟨i, isOpen, outside⟩ : ∃ i, r.IsOpen z d i ∧ ¬ (s.windowOn z d).Holds i := by
        simpa [WeeklySlot.Vouches] using blind r List.mem_cons_self counts
      refine ⟨i.alone :: timeOff, ?_, ?_, ?_⟩
      · exact List.forall_mem_cons.mpr ⟨Int.lt_succ i, proper⟩
      · exact List.forall_mem_cons.mpr
          ⟨Bool.eq_false_iff.mpr fun seen => outside (Instant.overlaps_alone.mp seen), unseen⟩
      · refine List.forall_mem_cons.mpr
          ⟨fun _ free => free _ List.mem_cons_self i i.alone_holds isOpen, ?_⟩
        intro q hq counts free
        exact touched q hq counts fun off hoff => free off (List.mem_cons_of_mem _ hoff)
    · exact ⟨timeOff, proper, unseen,
        List.forall_mem_cons.mpr ⟨fun counts' => absurd counts' counts, touched⟩⟩

/-! ## Days without a clock change -/

namespace Zone

/-- The clocks run through the day once, from the instant `m` up to the next midnight. -/
def ShowsOnce (z : Zone) (d : Day) (m : Instant) : Prop :=
  ∀ k, 0 ≤ k → k ≤ Instant.dayLength → ∀ i, z.toWall i = midnight d + k ↔ i = m + k

/-- A time that the clocks show once is read as the instant of it. -/
theorem ofWall_eq {wall : Int} (once : ∀ i, z.toWall i = wall ↔ i = m) : z.ofWall wall = m := by
  have first : z.earliest? wall = some m := by
    refine List.min?_eq_some_iff.mpr ⟨mem_instantsAt.mpr ((once m).mpr rfl), fun i hi => ?_⟩
    exact ((once i).mp (mem_instantsAt.mp hi)).ge
  unfold ofWall
  rw [first]

/-- Regular clocks run through a day once when they are not changed from 14 hours before it until
12 hours after it. -/
theorem ShowsOnce.of_quiet (regular : z.Regular)
    (quiet : ∀ c ∈ z.changes, c.1 ≤ midnight d - 840 * Instant.minute ∨
      midnight d + Instant.dayLength + 720 * Instant.minute < c.1) : ∃ m, z.ShowsOnce d m := by
  obtain ⟨offset, there⟩ : ∃ offset, z.offsetAt (midnight d - 840 * Instant.minute) = offset :=
    ⟨_, rfl⟩
  have inForce (i : Instant) (from_ : midnight d - 840 * Instant.minute ≤ i)
      (upTo : i ≤ midnight d + Instant.dayLength + 720 * Instant.minute) :
      z.offsetAt i = offset :=
    (offsetFrom_eq quiet from_ upTo).trans there
  have bound (i : Instant) : -720 ≤ z.offsetAt i ∧ z.offsetAt i ≤ 840 :=
    regular.offsets _ (offsetFrom_mem _ _ _)
  refine ⟨midnight d - offset * Instant.minute, fun k nonneg upTo i => ?_⟩
  have boundThere := bound (midnight d - 840 * Instant.minute)
  have boundHere := bound i
  rw [there] at boundThere
  unfold toWall
  constructor
  · intro shows
    have := inForce i (by lia) (by lia)
    lia
  · intro at_
    have := inForce i (by lia) (by lia)
    lia

end Zone

section ShowsOnce

variable (once : z.ShowsOnce d m) (counts : s.CountsOn d) (minutes : s.endMinute ≤ 1440)
include once counts minutes

theorem WeeklySlot.windowOn_eq : s.windowOn z d = s.hoursFrom m := by
  have lasts := counts.lasts
  unfold windowOn hoursFrom
  rw [Zone.ofWall_eq (once (s.startMinute * Instant.minute) (by lia) (by lia)),
    Zone.ofWall_eq (once (s.endMinute * Instant.minute) (by lia) (by lia))]

/-- The window of a slot holds just the instants at which it is open. -/
theorem WeeklySlot.isOpen_iff : s.IsOpen z d i ↔ (s.windowOn z d).Holds i := by
  rw [windowOn_eq once counts minutes]
  unfold Window.Holds hoursFrom
  dsimp only
  constructor
  · rintro ⟨-, begun, notOver⟩
    unfold HasBegun at begun
    unfold NotOver at notOver
    have := (once (z.toWall i - Zone.midnight d) (by lia) (by lia) i).mp (by lia)
    lia
  · rintro ⟨from_, upTo⟩
    have shows := (once (i - m) (by lia) (by lia) i).mpr (by lia)
    exact ⟨Zone.dayAt_eq (by lia) (by lia), by unfold HasBegun; lia, by unfold NotOver; lia⟩

/-- A slot is free if and only if no time off overlaps its window. -/
theorem WeeklySlot.freeOn_iff (proper : ∀ off ∈ timeOff, off.start < off.stop) :
    s.FreeOn z d timeOff ↔ ∀ off ∈ timeOff, off.overlaps (s.windowOn z d) = false := by
  refine ⟨fun free off hoff => Bool.eq_false_iff.mpr fun seen => ?_,
    Vouches.freeOn fun i => (isOpen_iff once counts minutes).mp⟩
  have lasts : (s.windowOn z d).start < (s.windowOn z d).stop := by
    have := counts.lasts
    rw [windowOn_eq once counts minutes]
    unfold hoursFrom
    dsimp only
    lia
  obtain ⟨i, offHolds, holds⟩ := (Window.overlaps_iff (proper off hoff) lasts).mp seen
  exact free off hoff i offHolds ((isOpen_iff once counts minutes).mpr holds)

end ShowsOnce

/-! ## Available days -/

/-- **Counted slots are free when windows vouch for them.** A day with an available slot has one
that no time off touches, whatever the times off are, if and only if the window of each slot that
counts holds all instants at which the hours of some slot that counts are open. On a day that the
clocks run through once each window vouches for its own slot, and the day is available if and only
if there is a slot that no time off touches. -/
theorem counted_slots_are_free_iff (slots : List WeeklySlot) (z : Zone) (d : Day) :
    ((∀ timeOff : List Window, (∀ off ∈ timeOff, off.start < off.stop) →
        availableOnDay slots timeOff d z = true →
          ∃ s ∈ slots, s.CountsOn d ∧ s.FreeOn z d timeOff) ↔
      ∀ s ∈ slots, s.CountsOn d → ∃ r ∈ slots, r.CountsOn d ∧ s.Vouches r z d) ∧
    ∀ m, z.ShowsOnce d m → (∀ s ∈ slots, s.endMinute ≤ 1440) →
      (∀ s ∈ slots, s.CountsOn d → s.Vouches s z d) ∧
      ∀ timeOff : List Window, (∀ off ∈ timeOff, off.start < off.stop) →
        (availableOnDay slots timeOff d z = true ↔
          ∃ s ∈ slots, s.CountsOn d ∧ s.FreeOn z d timeOff) := by
  refine ⟨⟨fun kept s hs counts => ?_, fun vouched timeOff _ available => ?_⟩,
    fun m once minutes => ⟨fun s hs counts i => ?_, fun timeOff proper => ?_⟩⟩
  · by_contra none
    obtain ⟨timeOff, proper, unseen, touched⟩ :=
      exists_unseen_timeOff fun r hr counts vouches => none ⟨r, hr, counts, vouches⟩
    obtain ⟨r, hr, countsToo, free⟩ :=
      kept timeOff proper (availableOnDay_iff.mpr ⟨s, hs, counts, unseen⟩)
    exact touched r hr countsToo free
  · obtain ⟨s, hs, counts, free⟩ := availableOnDay_iff.mp available
    obtain ⟨r, hr, countsToo, vouches⟩ := vouched s hs counts
    exact ⟨r, hr, countsToo, vouches.freeOn free⟩
  · exact (WeeklySlot.isOpen_iff once counts (minutes s hs)).mp
  · rw [availableOnDay_iff]
    refine exists_congr fun s => and_congr_right fun hs => and_congr_right fun counts => ?_
    exact (WeeklySlot.freeOn_iff once counts (minutes s hs) proper).symm

namespace Sample

/-- A time off that ends when Monday's hours begin. -/
def untilMonday : Window := ⟨Instant.utc 2026 3 1 12 0, Instant.utc 2026 3 2 8 0⟩

/-- The small hours of Sunday, up to half past 2. -/
def smallHours : WeeklySlot := ⟨0, 0, 150, "Europe/Berlin", true⟩

/-- The first half hour after the clocks of Berlin are put back to 2 o'clock. -/
def secondTwo : Window := ⟨Instant.utc 2026 10 25 1 0, Instant.utc 2026 10 25 1 30⟩

end Sample

/-- A time off just before them does not touch Monday's hours. -/
theorem counted_slots_are_free_iff_mondays :
    ∃ z, Zone.named? Sample.mondays.timezone = some z ∧
      (∃ m, z.ShowsOnce (Day.ofCivil 2026 3 2) m) ∧
      availableOnDay [Sample.mondays] [Sample.untilMonday] (Day.ofCivil 2026 3 2) z = true ∧
      Sample.mondays.FreeOn z (Day.ofCivil 2026 3 2) [Sample.untilMonday] := by
  obtain ⟨z, zone⟩ : ∃ z, Zone.named? Sample.mondays.timezone = some z :=
    Option.isSome_iff_exists.mp (by decide +kernel)
  have quiet : (Zone.named? Sample.mondays.timezone).all fun z => ∀ c ∈ z.changes,
      c.1 ≤ Zone.midnight (Day.ofCivil 2026 3 2) - 840 * Instant.minute ∨
        Zone.midnight (Day.ofCivil 2026 3 2) + Instant.dayLength + 720 * Instant.minute < c.1 := by
    decide +kernel
  have available : (Zone.named? Sample.mondays.timezone).all fun z =>
      availableOnDay [Sample.mondays] [Sample.untilMonday] (Day.ofCivil 2026 3 2) z := by
    decide +kernel
  rw [zone] at quiet available
  obtain ⟨m, once⟩ :=
    Zone.ShowsOnce.of_quiet (Zone.named?_regular zone) (of_decide_eq_true quiet)
  obtain ⟨-, available_iff⟩ := (counted_slots_are_free_iff [Sample.mondays] z
    (Day.ofCivil 2026 3 2)).2 m once (by decide)
  obtain ⟨s, hs, -, free⟩ := (available_iff [Sample.untilMonday] (by decide +kernel)).mp available
  exact ⟨z, zone, ⟨m, once⟩, available, List.mem_singleton.mp hs ▸ free⟩

/-- When the clocks show the hour after 2 twice, the end of hours that reach into it is read as the
first one. A time off in the second one is not seen. -/
theorem not_counted_slots_are_free : ¬ ∀ (slots : List WeeklySlot) (timeOff : List Window)
    (d : Day), ∀ z ∈ Zone.known, (∀ s ∈ slots, s.startMinute ≤ 1440 ∧ s.endMinute ≤ 1440) →
    (∀ off ∈ timeOff, off.start < off.stop) → availableOnDay slots timeOff d z = true →
    ∃ s ∈ slots, s.CountsOn d ∧ s.FreeOn z d timeOff := by
  intro allFree
  obtain ⟨z, zone⟩ : ∃ z, Zone.named? Sample.smallHours.timezone = some z :=
    Option.isSome_iff_exists.mp (by decide +kernel)
  have clocks : (Zone.named? Sample.smallHours.timezone).all fun z =>
      availableOnDay [Sample.smallHours] [Sample.secondTwo] (Day.ofCivil 2026 10 25) z = true ∧
      z.dayAt Sample.secondTwo.start = Day.ofCivil 2026 10 25 ∧
      z.toWall Sample.secondTwo.start
        = Zone.midnight (Day.ofCivil 2026 10 25) + 120 * Instant.minute := by
    decide +kernel
  rw [zone] at clocks
  obtain ⟨available, today, two⟩ := of_decide_eq_true clocks
  obtain ⟨s, hs, -, free⟩ := allFree [Sample.smallHours] [Sample.secondTwo] (Day.ofCivil 2026 10 25)
    z (List.mem_of_find?_eq_some zone) (by decide) (by decide +kernel) available
  obtain rfl := List.mem_singleton.mp hs
  refine free _ (List.mem_singleton_self _) Sample.secondTwo.start
    ⟨le_rfl, by decide +kernel⟩ ⟨today, ?_, ?_⟩
  · unfold WeeklySlot.HasBegun
    rw [two]
    exact Int.add_le_add_left (by decide) _
  · unfold WeeklySlot.NotOver
    rw [two]
    exact Int.add_lt_add_left (by decide) _

end Staffing
