import Staffing.Proofs.Days
import Staffing.Proofs.Figures
import Staffing.Proofs.Freshness

/-!
# Slots can be brought up to date

Bringing a slot up to date takes a window that holds an instant, a team, and the team's time zone.
Every stored job has the first and every stored team the last, so for them it never fails. The slot
that is answered stands on the plan of its day, and its capacity is at most the plan's.

* `Step.orderly` — every step leaves jobs and teams fit for it
* `Ledger.ensureSlotJoined_succeeds` — it succeeds
* `Ledger.ensureSlotJoined_onPlan` — the slot and its plan afterwards
-/

namespace Staffing

variable {now : Instant} {t t' : Tables}

/-! ## Jobs and teams -/

namespace Tables

/-- Jobs last, in whole seconds, and teams have time zones that are known. -/
structure Orderly (t : Tables) : Prop where
  jobs : ∀ j ∈ t.jobs, j.start < j.stop ∧ j.window.wholeSeconds = j.window
  teams : ∀ team ∈ t.teams, (Zone.named? team.timezone).isSome

theorem Orderly.empty : Orderly {} :=
  ⟨fun _ h => absurd h List.not_mem_nil, fun _ h => absurd h List.not_mem_nil⟩

end Tables

theorem Calm.orderly (h : Calm now t t') (orderly : t.Orderly) : t'.Orderly := by
  constructor
  · rcases h.jobs_cases with same | ⟨n, id, -, lasts, -, -, added⟩ | ⟨id, f, hf, updated⟩
    · rw [same]
      exact orderly.jobs
    · rw [added]
      intro j hj
      rcases List.mem_append.mp hj with old | new
      · exact orderly.jobs j old
      · rw [List.mem_singleton.mp new]
        exact ⟨lasts, Window.wholeSeconds_wholeSeconds ⟨n.start, n.stop⟩⟩
    · rw [updated]
      intro j hj
      obtain ⟨k, hk, rfl⟩ := mem_updateWhere.mp hj
      split
      · have window : (f k).window = k.window := (hf k).2.1
        have start : (f k).start = k.start := congrArg Window.start window
        have stop : (f k).stop = k.stop := congrArg Window.stop window
        rw [start, stop, window]
        exact orderly.jobs k hk
      · exact orderly.jobs k hk
  · rcases h.roster_cases with grows | ⟨-, teams⟩
    · exact grows.newZones orderly.teams
    · exact teams ▸ orderly.teams

/-- Every step keeps jobs and teams in order. -/
theorem Step.orderly {p q : Tables × List String} (h : Step now p q) (orderly : p.1.Orderly) :
    q.1.Orderly := by
  cases h with
  | ebb h =>
    cases h with
    | calm h => exact h.orderly orderly
    | settle => exact ⟨orderly.jobs, orderly.teams⟩
  | holdTeam => exact ⟨orderly.jobs, orderly.teams⟩

/-! ## Success -/

variable {s s' : Store} {teamId : String} {team : Team} {z : Zone} {d : Day}

namespace Store

/-- Setting a plan up to date succeeds for a team that is known. -/
theorem upsertPlan_succeeds (fits : s.tables.Fits) (known : s.tables.team? teamId = some team)
    (zone : team.zone = .ok z) :
    ∃ plan s', upsertPlan teamId d (team.dailyCapacity (team.profiles s.tables) d z) s
      = .ok plan s' := by
  obtain ⟨id, s₁, drawn, tables, -, fresh⟩ := Work.draw_apply .plan s
  obtain ⟨t, done⟩ : ∃ t, s.tables.upsertPlan id teamId d
      (team.dailyCapacity (team.profiles s.tables) d z) = .ok t := by
    have stored : s.tables.hasTeam teamId = true := any_key.mpr ⟨team, mem_of_find?_key known⟩
    have unused : s.tables.plans.any (·.id == id) = false :=
      any_key_eq_false.mpr fun p hp same => fresh (List.mem_map.mpr ⟨p, hp, same⟩)
    unfold Tables.upsertPlan
    rw [stored, unused]
    cases s.tables.plans.any (Tables.isPlanOf teamId d) with
    | true => exact ⟨_, rfl⟩
    | false => exact ⟨_, rfl⟩
  -- The plan is there, whether it is updated or new.
  obtain ⟨fits', there⟩ : t.Fits ∧ ∃ p ∈ t.plans, Tables.isPlanOf teamId d p = true := by
    obtain ⟨-, ⟨⟨p, hp, own⟩, rfl⟩ | ⟨other, unused, rfl⟩⟩ := Tables.upsertPlan_ok_cases done
    · have calm : Calm 0 s.tables _ := .resizePlan (d := d) known zone
      refine ⟨calm.fits fits, _, mem_updateWhere.mpr ⟨p, hp, rfl⟩, ?_⟩
      rw [if_pos own]
      exact own
    · have calm : Calm 0 s.tables _ := .newPlan unused other known zone
      refine ⟨calm.fits fits, _, List.mem_append_right _ (List.mem_singleton_self _), ?_⟩
      simp [Tables.isPlanOf]
  obtain ⟨p, found⟩ := Option.isSome_iff_exists.mp (List.find?_isSome.mpr there)
  refine ⟨p, { s₁ with tables := t }, ?_⟩
  unfold upsertPlan
  simp only [bind_eq_ok, Work.found_eq_ok, Work.run_eq_ok]
  refine ⟨id, s₁, drawn, (), _, ⟨t, tables ▸ done, rfl⟩, some p, _, ?_, rfl, rfl⟩
  refine Work.readRow_eq_ok.mpr ⟨found.symm, fun r hr => ?_, rfl⟩
  exact fits'.plan_isReadable (List.mem_of_find?_eq_some hr)

end Store

namespace Ledger

variable {start stop : Instant}

/-- Bringing a slot up to date succeeds for a window that holds an instant and a team with a time
zone that is known. -/
theorem ensureSlotJoined_succeeds (fits : s.tables.Fits) (lasts : start < stop)
    (known : s.tables.team? teamId = some team) (zone : team.zone = .ok z) :
    ∃ slot s', ensureSlotJoined teamId start stop s = .ok slot s' := by
  have window : Window.checked start stop = .ok ⟨start, stop⟩ :=
    Window.checked_eq_ok.mpr ⟨lasts, rfl⟩
  obtain ⟨plan, s₁, upserted⟩ := Store.upsertPlan_succeeds (d := z.dayAt start) fits known zone
  obtain ⟨calm, -, moves, onDay, -⟩ := Store.upsertPlan_ok_cases 0 known zone upserted
  have readable : ∀ r, s₁.tables.slotAt? teamId ⟨start, stop⟩ = some r → r.isReadable = true :=
    fun r hr => (calm.fits fits).slot_isReadable (List.mem_of_find?_eq_some hr)
  have read : ∀ row, row = s₁.tables.slotAt? teamId ⟨start, stop⟩ →
      Store.slotAt? teamId ⟨start, stop⟩ s₁ = .ok row s₁ :=
    fun row same => Work.readRow_eq_ok.mpr ⟨same, readable, rfl⟩
  unfold ensureSlotJoined
  simp only [bind_eq_ok, Work.ofExcept_eq_ok, Work.demand_eq_ok, Work.ask_eq_ok]
  cases found : s₁.tables.slotAt? teamId ⟨start, stop⟩ with
  | some row =>
    let capacity := team.windowCapacity (team.profiles s.tables) ⟨start, stop⟩ z
    refine ⟨{ row with capacity }, { s₁ with tables := s₁.tables.setSlotCapacity row.id capacity },
      _, _, ⟨window, rfl⟩, team, _, ⟨known, rfl⟩, z, _, ⟨zone, rfl⟩, _, _, ⟨rfl, rfl⟩, plan, s₁,
      upserted, some row, s₁, read _ found.symm, ?_⟩
    exact bind_eq_ok.mpr ⟨(), _, Work.write_eq_ok.mpr rfl, rfl⟩
  | none =>
    obtain ⟨id, s₂, drawn, tables, -, fresh⟩ := Work.draw_apply .slot s₁
    let slot : Slot := ⟨id, teamId, plan.id, start, stop,
      team.windowCapacity (team.profiles s.tables) ⟨start, stop⟩ z, 0⟩
    obtain ⟨t, done⟩ : ∃ t, s₁.tables.insertSlot slot = .ok t := by
      refine ⟨_, Tables.insertSlot_eq_ok.mpr ⟨?_, ?_, ?_, ?_, rfl⟩⟩
      · exact fun r hr same => fresh (List.mem_map.mpr ⟨r, hr, same⟩)
      · exact fun r hr => Bool.eq_false_iff.mpr (List.find?_eq_none.mp found r hr)
      · exact any_key.mpr ⟨team, mem_of_find?_key ((moves.team? teamId).trans known)⟩
      · exact ⟨plan, List.mem_of_find?_eq_some onDay, rfl⟩
    refine ⟨slot, { s₂ with tables := t }, _, _, ⟨window, rfl⟩, team, _, ⟨known, rfl⟩, z, _,
      ⟨zone, rfl⟩, _, _, ⟨rfl, rfl⟩, plan, s₁, upserted, none, s₁, read _ found.symm, ?_⟩
    refine bind_eq_ok.mpr ⟨id, s₂, drawn, bind_eq_ok.mpr ⟨(), _, ?_, rfl⟩⟩
    exact Work.run_eq_ok.mpr ⟨t, tables ▸ done, rfl⟩

/-- The slot that is answered stands, on the plan of its day, and its capacity is at most the
plan's. -/
theorem ensureSlotJoined_onPlan {slot : Slot} (keyed : s.tables.Keyed)
    (onDay : s.tables.SlotsOnDay) (whole : (Window.mk start stop).wholeSeconds = ⟨start, stop⟩)
    (h : ensureSlotJoined teamId start stop s = .ok slot s') :
    slot ∈ s'.tables.slots ∧ ∃ plan, s'.tables.plan? slot.planId = some plan ∧
      slot.capacity ≤ plan.capacity := by
  obtain ⟨calms, -, -, rfl, stands, team, z, known, zone, atMost⟩ := ensureSlotJoined_ok_cases 0 h
  obtain ⟨hs, window⟩ : slot ∈ s'.tables.slots ∧ slot.window = ⟨start, stop⟩ := by
    rcases stands with ⟨hs, window⟩ | ⟨hs, window⟩
    · exact ⟨hs, window.trans whole⟩
    · have same : slot.stored = slot := by
        have same : slot.window.wholeSeconds = slot.window := window ▸ whole
        have starts : Instant.wholeSecond slot.start = slot.start := congrArg Window.start same
        have stops : Instant.wholeSecond slot.stop = slot.stop := congrArg Window.stop same
        unfold Slot.stored
        rw [starts, stops]
      exact ⟨same ▸ hs, window⟩
  obtain ⟨plan, found, planTeam, team', z', known', zone', day⟩ :=
    calms.slotsOnDay keyed onDay slot hs
  refine ⟨hs, plan, found, atMost plan (List.mem_of_find?_eq_some found) ?_⟩
  obtain rfl : team' = team := Option.some.inj (known'.symm.trans known)
  obtain rfl : z' = z := Option.some.inj (zone'.symm.trans (Team.zone_eq_ok.mp zone))
  have started : slot.start = start := congrArg Window.start window
  simp [Tables.isPlanOf, planTeam, day, started]

end Ledger

end Staffing
