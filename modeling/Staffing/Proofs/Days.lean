import Staffing.Proofs.Run

/-!
# Plans of days

A slot is made on the plan of its team and of the day on which it starts, read on the team's clocks.
It stays there: teams keep their time zones, and plans their days. A slot is kept in whole seconds,
which is no matter, since regular clocks are not changed within a second.

* `Tables.IsDayOf` — the plan that a slot belongs on
* `Step.slotsOnDay` — every step leaves the slots on their plans
-/

namespace Staffing

variable {now : Instant} {t t' : Tables}

/-! ## Clocks -/

namespace Zone

theorem offsetFrom_wholeSecond {changes : List (Instant × Int)}
    (whole : ∀ c ∈ changes, c.1.wholeSecond = c.1) (offset : Int) (i : Instant) :
    offsetFrom offset changes i.wholeSecond = offsetFrom offset changes i := by
  induction changes generalizing offset with
  | nil => rfl
  | cons c rest ih =>
    obtain ⟨change, next⟩ := c
    -- Rounding down never crosses a change that is at a whole second.
    have boundary : i.wholeSecond < change ↔ i < change := by
      have exact : Instant.wholeSecond change = change := whole _ List.mem_cons_self
      unfold Instant.wholeSecond at *
      lia
    unfold offsetFrom
    simp only [boundary, ih fun c hc => whole c (List.mem_cons_of_mem _ hc)]

/-- A second lies within one day. -/
theorem Regular.dayAt_wholeSecond {z : Zone} (h : z.Regular) (i : Instant) :
    z.dayAt i.wholeSecond = z.dayAt i := by
  unfold dayAt toWall offsetAt wallDay
  rw [offsetFrom_wholeSecond h.changes]
  congr 1
  unfold Instant.wholeSecond
  lia

end Zone

theorem Team.zone_eq_ok {team : Team} {z : Zone} :
    team.zone = .ok z ↔ Zone.named? team.timezone = some z := by
  unfold Team.zone
  cases Zone.named? team.timezone <;> simp

/-! ## The plan of a slot -/

namespace Tables

/-- The slot points to the plan, and it is of the slot's team and of the day on which the slot
starts on the team's clocks. -/
def IsDayOf (t : Tables) (slot : Slot) (plan : Plan) : Prop :=
  t.plan? slot.planId = some plan ∧ plan.teamId = slot.teamId ∧
    ∃ team z, t.team? slot.teamId = some team ∧ Zone.named? team.timezone = some z ∧
      plan.day = z.dayAt slot.start

/-- Every slot has the plan that it belongs on. -/
def SlotsOnDay (t : Tables) : Prop := ∀ slot ∈ t.slots, ∃ plan, t.IsDayOf slot plan

/-- Slots stay on their plans while neither those nor teams change in what matters for it. -/
theorem SlotsOnDay.of_moves (h : t.SlotsOnDay)
    (slots : ∀ r ∈ t'.slots, ∃ s ∈ t.slots,
      r.planId = s.planId ∧ r.teamId = s.teamId ∧ r.start = s.start)
    (plans : ∀ id p, t.plan? id = some p →
      ∃ q, t'.plan? id = some q ∧ q.teamId = p.teamId ∧ q.day = p.day)
    (teams : ∀ id team, t.team? id = some team →
      ∃ team', t'.team? id = some team' ∧ team'.timezone = team.timezone) : t'.SlotsOnDay := by
  intro r hr
  obtain ⟨s, hs, samePlan, sameTeam, sameStart⟩ := slots r hr
  obtain ⟨p, found, pTeam, team, z, known, zone, day⟩ := h s hs
  obtain ⟨q, found', qTeam, qDay⟩ := plans _ p found
  obtain ⟨team', known', timezone⟩ := teams _ team known
  refine ⟨q, samePlan ▸ found', ?_, team', z, sameTeam ▸ known', timezone ▸ zone, ?_⟩
  · rw [qTeam, pTeam, sameTeam]
  · rw [qDay, day, sameStart]

/-- An update of plans leaves each where it was, if it keeps id, team and day. -/
theorem plan?_updateWhere {p : Plan → Bool} {f : Plan → Plan}
    (h : t'.plans = updateWhere p f t.plans)
    (keeps : ∀ q, (f q).id = q.id ∧ (f q).teamId = q.teamId ∧ (f q).day = q.day)
    (id : String) (q : Plan) (found : t.plan? id = some q) :
    ∃ r, t'.plan? id = some r ∧ r.teamId = q.teamId ∧ r.day = q.day := by
  refine ⟨if p q then f q else q, ?_, ?_⟩
  · unfold Tables.plan? at *
    rw [h, find?_updateWhere fun q => (keeps q).1, found]
    rfl
  · split
    · exact ⟨(keeps q).2.1, (keeps q).2.2⟩
    · exact ⟨rfl, rfl⟩

/-- An update of slots keeps them on their plans, if it keeps plan, team and start. -/
theorem mem_slots_updateWhere {p : Slot → Bool} {f : Slot → Slot}
    (h : t'.slots = updateWhere p f t.slots)
    (keeps : ∀ s, (f s).planId = s.planId ∧ (f s).teamId = s.teamId ∧ (f s).start = s.start)
    (r : Slot) (hr : r ∈ t'.slots) :
    ∃ s ∈ t.slots, r.planId = s.planId ∧ r.teamId = s.teamId ∧ r.start = s.start := by
  rw [h] at hr
  obtain ⟨s, hs, rfl⟩ := mem_updateWhere.mp hr
  refine ⟨s, hs, ?_⟩
  split
  · exact keeps s
  · exact ⟨rfl, rfl, rfl⟩

theorem SlotsOnDay.adjustBooking (h : t.SlotsOnDay) (slot : Slot) (delta : Int) :
    (t.adjustBooking slot delta).SlotsOnDay :=
  h.of_moves (mem_slots_updateWhere rfl fun _ => ⟨rfl, rfl, rfl⟩)
    (plan?_updateWhere rfl fun _ => ⟨rfl, rfl, rfl⟩) fun _ team known => ⟨team, known, rfl⟩

theorem SlotsOnDay.giveBack (h : t.SlotsOnDay) (l : Lock) : (t.giveBack l).SlotsOnDay := by
  unfold Tables.giveBack
  split
  · exact h.adjustBooking _ _
  · exact h

end Tables

theorem Calm.slotsOnDay (h : Calm now t t') (keyed : t.LedgerKeyed) (onDay : t.SlotsOnDay) :
    t'.SlotsOnDay := by
  cases h with
  | roster grows =>
    refine onDay.of_moves ?_ ?_ grows.zones
    · rw [grows.slots]
      exact fun s hs => ⟨s, hs, rfl, rfl, rfl⟩
    · unfold Tables.plan?
      rw [grows.plans]
      exact fun _ p found => ⟨p, found, rfl, rfl⟩
  | @cancel jobId _ =>
    obtain ⟨f, -, frame⟩ := Tables.cancelled_frame jobId now t
    rw [frame]
    exact onDay
  | newPlan =>
    refine onDay.of_moves (fun s hs => ⟨s, hs, rfl, rfl, rfl⟩) (fun id p found => ?_)
      fun _ team known => ⟨team, known, rfl⟩
    refine ⟨p, ?_, rfl, rfl⟩
    unfold Tables.plan? at *
    rw [List.find?_append, found, Option.some_or]
  | resizePlan =>
    exact onDay.of_moves (fun s hs => ⟨s, hs, rfl, rfl, rfl⟩)
      (Tables.plan?_updateWhere rfl fun _ => ⟨rfl, rfl, rfl⟩) fun _ team known => ⟨team, known, rfl⟩
  | @newSlot slot plan team z _ _ known zone found samePlan _ _ =>
    intro r hr
    rcases List.mem_append.mp hr with old | new
    · exact onDay r old
    · -- The plan was found by the day of the unrounded start, which is the day of the rounded one.
      rw [List.mem_singleton.mp new]
      rw [Team.zone_eq_ok] at zone
      have fits := List.find?_some found
      simp only [Tables.isPlanOf, Bool.and_eq_true, beq_iff_eq, decide_eq_true_eq] at fits
      refine ⟨plan, ?_, fits.1, team, z, known, zone, ?_⟩
      · exact (find?_key_eq_some keyed.plans).mpr ⟨List.mem_of_find?_eq_some found, samePlan.symm⟩
      · rw [fits.2]
        exact ((Zone.named?_regular zone).dayAt_wholeSecond slot.start).symm
  | resizeSlot =>
    exact onDay.of_moves (Tables.mem_slots_updateWhere rfl fun _ => ⟨rfl, rfl, rfl⟩)
      (fun _ p found => ⟨p, found, rfl, rfl⟩) fun _ team known => ⟨team, known, rfl⟩
  | @release l reason _ _ =>
    rw [Tables.released_frame]
    have := onDay.giveBack l
    rw [Tables.giveBack_frame] at this
    exact this
  | _ => exact onDay

/-- Every step leaves the slots on their plans. -/
theorem Step.slotsOnDay {p q : Tables × List String} (h : Step now p q) (keyed : p.1.LedgerKeyed)
    (onDay : p.1.SlotsOnDay) : q.1.SlotsOnDay := by
  cases h with
  | ebb h =>
    cases h with
    | calm h => exact h.slotsOnDay keyed onDay
    | settle => exact onDay
  | @holdTeam t _ l _ slot _ =>
    have := onDay.adjustBooking slot l.count
    exact this

theorem Calms.slotsOnDay (h : Calms now t t') (keyed : t.Keyed) (onDay : t.SlotsOnDay) :
    t'.SlotsOnDay := by
  induction h with
  | refl => exact onDay
  | tail before step ih => exact step.slotsOnDay (Calms.keyed before keyed).toLedgerKeyed ih

end Staffing
