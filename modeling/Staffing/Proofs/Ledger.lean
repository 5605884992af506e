import Staffing.Engine.Operations
import Staffing.Proofs.Writes

/-!
# Plans and slots brought up to date

* `Store.upsertPlan_ok_cases` — a plan is made or its capacity set; no other table changes
* `Ledger.ensureSlotJoined_ok_cases` — the slot stands, on an up-to-date plan
* `Ledger.ensureSlot_does`, `Ledger.generatePlans_does` — the transactions are calm steps
-/

namespace Staffing

/-- A window's capacity is at most its day's. -/
theorem Team.windowCapacity_le_dailyCapacity (team : Team) (profiles : List Provider) (w : Window)
    (z : Zone) :
    team.windowCapacity profiles w z ≤ team.dailyCapacity profiles (z.dayAt w.start) z :=
  Nat.min_le_right _ _

namespace Tables

variable {t t' t'' : Tables}

/-- Nothing but plans and slots has changed. -/
structure LedgerMoves (t t' : Tables) : Prop where
  providers : t'.providers = t.providers
  teams : t'.teams = t.teams
  jobs : t'.jobs = t.jobs
  assignments : t'.assignments = t.assignments
  locks : t'.locks = t.locks

namespace LedgerMoves

theorem trans (h : t.LedgerMoves t') (h' : t'.LedgerMoves t'') : t.LedgerMoves t'' where
  providers := h'.providers.trans h.providers
  teams := h'.teams.trans h.teams
  jobs := h'.jobs.trans h.jobs
  assignments := h'.assignments.trans h.assignments
  locks := h'.locks.trans h.locks

theorem team? (h : t.LedgerMoves t') (id : String) : t'.team? id = t.team? id := by
  unfold Tables.team?
  rw [h.teams]

theorem profiles (h : t.LedgerMoves t') (team : Team) : team.profiles t' = team.profiles t := by
  unfold Team.profiles Tables.provider?
  rw [h.providers]

theorem job? (h : t.LedgerMoves t') (id : String) : t'.job? id = t.job? id := by
  unfold Tables.job?
  rw [h.jobs]

end LedgerMoves

end Tables

variable {now : Instant} {s s' : Store} {teamId : String} {team : Team} {z : Zone} {d : Day}

namespace Store

/-- A plan is made or its capacity set to what the members' hours give. -/
theorem upsertPlan_ok_cases {plan : Plan} (now : Instant)
    (known : s.tables.team? teamId = some team) (zone : team.zone = .ok z)
    (h : upsertPlan teamId d (team.dailyCapacity (team.profiles s.tables) d z) s = .ok plan s') :
    Calm now s.tables s'.tables ∧ s'.saved = s.saved ∧ s.tables.LedgerMoves s'.tables ∧
      s'.tables.planOn? teamId d = some plan ∧
      ∀ p ∈ s'.tables.plans, Tables.isPlanOf teamId d p = true →
        p.capacity = team.dailyCapacity (team.profiles s.tables) d z := by
  unfold upsertPlan at h
  simp only [bind_eq_ok, Work.found_eq_ok, Work.run_eq_ok] at h
  obtain ⟨id, s₁, drawn, _, _, ⟨t, done, rfl⟩, row, _, read, rfl, rfl⟩ := h
  obtain ⟨found, -, rfl⟩ := Work.readRow_eq_ok.mp read
  obtain ⟨tables₁, saved₁⟩ := Work.draw_eq_ok drawn
  rw [tables₁] at done
  obtain ⟨-, ⟨-, rfl⟩ | ⟨other, fresh, rfl⟩⟩ := Tables.upsertPlan_ok_cases done
  · refine ⟨.resizePlan known zone, saved₁, ⟨rfl, rfl, rfl, rfl, rfl⟩, found.symm, ?_⟩
    intro p hp own
    obtain ⟨q, hq, rfl⟩ := mem_updateWhere.mp hp
    split at own
    · next hit => rw [if_pos hit]
    · next miss => exact absurd own miss
  · refine ⟨.newPlan fresh other known zone, saved₁, ⟨rfl, rfl, rfl, rfl, rfl⟩, found.symm,
      fun p hp own => ?_⟩
    rcases List.mem_append.mp hp with old | new
    · rw [other p old] at own
      cases own
    · rw [List.mem_singleton.mp new]

end Store

namespace Ledger

/-! ## Slots -/

/-- The slot that is answered stands, rounded when it is new, among the slots. Its capacity is at
most that of its day. -/
theorem ensureSlotJoined_ok_cases {start stop : Instant} {slot : Slot} (now : Instant)
    (h : ensureSlotJoined teamId start stop s = .ok slot s') :
    Calms now s.tables s'.tables ∧ s'.saved = s.saved ∧ s.tables.LedgerMoves s'.tables ∧
      slot.teamId = teamId ∧
      (slot ∈ s'.tables.slots ∧ slot.window = (Window.mk start stop).wholeSeconds ∨
        slot.stored ∈ s'.tables.slots ∧ slot.window = ⟨start, stop⟩) ∧
      ∃ team z, s'.tables.team? teamId = some team ∧ team.zone = .ok z ∧
        ∀ p ∈ s'.tables.plans, Tables.isPlanOf teamId (z.dayAt start) p = true →
          slot.capacity ≤ p.capacity := by
  unfold ensureSlotJoined at h
  simp only [bind_eq_ok, Work.ofExcept_eq_ok, Work.demand_eq_ok, Work.ask_eq_ok] at h
  obtain ⟨w, _, ⟨checked, rfl⟩, team, _, ⟨known, rfl⟩, z, _, ⟨zone, rfl⟩, _, s, ⟨rfl, rfl⟩, plan, _,
    upserted, row, s₁, read, h⟩ := h
  obtain ⟨first, saved₁, moves, onDay, daily⟩ := Store.upsertPlan_ok_cases now known zone upserted
  obtain ⟨found, -, rfl⟩ := Work.readRow_eq_ok.mp read
  obtain rfl : w = ⟨start, stop⟩ := (Window.checked_eq_ok.mp checked).2
  rw [← moves.team?] at known
  rw [← moves.profiles] at h daily
  have atMost : ∀ p ∈ s₁.tables.plans, Tables.isPlanOf teamId (z.dayAt start) p = true →
      team.windowCapacity (team.profiles s₁.tables) ⟨start, stop⟩ z ≤ p.capacity := by
    intro p hp own
    rw [daily p hp own]
    exact team.windowCapacity_le_dailyCapacity _ _ _
  cases row with
  | some row =>
    simp only [bind_eq_ok, Work.write_eq_ok, pure_eq_ok] at h
    obtain ⟨_, _, rfl, rfl, rfl⟩ := h
    have stands : row ∈ s₁.tables.slots := List.mem_of_find?_eq_some found.symm
    have fits := List.find?_some found.symm
    simp only [Tables.isSlotAt, Bool.and_eq_true, beq_iff_eq, decide_eq_true_eq] at fits
    obtain ⟨rfl, window⟩ := fits
    refine ⟨.tail (.single first) (.resizeSlot stands known zone window.symm), saved₁,
      moves.trans ⟨rfl, rfl, rfl, rfl, rfl⟩, rfl, .inl ⟨?_, window⟩, team, z, known, zone, atMost⟩
    exact mem_updateWhere.mpr ⟨row, stands, by rw [if_pos (beq_self_eq_true _)]⟩
  | none =>
    simp only [bind_eq_ok, Work.run_eq_ok, pure_eq_ok] at h
    obtain ⟨id, s₂, drawn, _, _, ⟨t, done, rfl⟩, rfl, rfl⟩ := h
    obtain ⟨tables₂, saved₂⟩ := Work.draw_eq_ok drawn
    rw [tables₂] at done
    obtain ⟨fresh, other, -, -, rfl⟩ := Tables.insertSlot_eq_ok.mp done
    refine ⟨.tail (.single first) (.newSlot fresh other known zone onDay rfl rfl rfl),
      saved₂.trans saved₁, moves.trans ⟨rfl, rfl, rfl, rfl, rfl⟩, rfl, .inr ⟨?_, rfl⟩, team, z,
      known, zone, atMost⟩
    exact List.mem_append_right _ (List.mem_singleton_self _)

theorem ensureSlot_does (teamId : String) (start stop : Instant) :
    (ensureSlot teamId start stop).Does (Calms now) := by
  refine Work.does_atomic fun s slot s' h => ?_
  obtain ⟨calms, saved, -⟩ := ensureSlotJoined_ok_cases now h
  exact ⟨calms, saved⟩

/-! ## Plans -/

/-- Plans of several days; the profiles of the team are read once, before the first. -/
theorem collectPlans_ok_cases {profiles : List Provider} {days : List Day} {plans : List Plan}
    (known : s.tables.team? teamId = some team) (zone : team.zone = .ok z)
    (read : profiles = team.profiles s.tables)
    (h : Work.collect (fun d => Store.upsertPlan teamId d (team.dailyCapacity profiles d z)) days s
      = .ok plans s') : Calms now s.tables s'.tables ∧ s'.saved = s.saved := by
  induction days generalizing s plans with
  | nil =>
    obtain ⟨-, rfl⟩ := pure_eq_ok.mp h
    exact ⟨.refl, rfl⟩
  | cons d rest ih =>
    subst read
    obtain ⟨plan, s₁, upserted, h⟩ := bind_eq_ok.mp h
    obtain ⟨plans, s₂, others, h⟩ := bind_eq_ok.mp h
    obtain ⟨-, rfl⟩ := pure_eq_ok.mp h
    obtain ⟨first, saved₁, moves, -⟩ := Store.upsertPlan_ok_cases now known zone upserted
    obtain ⟨calms, saved⟩ := ih ((moves.team? teamId).trans known) (moves.profiles team).symm others
    exact ⟨.head first calms, saved.trans saved₁⟩

theorem generatePlans_does (teamId : String) (first last : Day) :
    (generatePlans teamId first last).Does (Calms now) := by
  intro s plans s' h
  unfold generatePlans at h
  simp only [Work.guard_eq_ok, bind_eq_ok, Work.ofExcept_eq_ok, Work.demand_eq_ok,
    Work.ask_eq_ok] at h
  obtain ⟨-, team, _, ⟨known, rfl⟩, z, _, ⟨zone, rfl⟩, _, s, ⟨rfl, rfl⟩, h⟩ := h
  -- The plans are one transaction; it reads the profiles that were read before it began.
  cases saved : s.saved with
  | none =>
    obtain ⟨s₁, done, rfl⟩ := (Work.atomic_eq_ok saved).mp h
    obtain ⟨calms, -⟩ := collectPlans_ok_cases (s := s.begin) known zone rfl done
    exact ⟨calms, rfl⟩
  | some t =>
    rw [Work.atomic_of_open saved] at h
    rw [← saved]
    exact collectPlans_ok_cases known zone rfl h

theorem generatePlans_failsClean (teamId : String) (first last : Day) :
    (generatePlans teamId first last).FailsClean := by
  unfold generatePlans
  refine Work.failsClean_guard ?_
  exact (Work.looks_demand _ _ _).bind fun _ => (Work.looks_ofExcept _).bind fun _ =>
    (Work.looks_ask _).bind fun _ => Work.failsClean_atomic _

end Ledger

end Staffing
