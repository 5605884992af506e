import Staffing.Proofs.Changes

/-!
# Keys

Every table has a key, and a team lists a provider once. Writes refuse a key that is taken and
never change one, so keys are unique in all tables that a run can reach.

* `Tables.Keyed` — keys are unique
* `Step.keyed` — every step keeps that
-/

namespace Staffing

variable {now : Instant} {t t' : Tables}

namespace Tables

/-- Keys of plans, slots and locks are unique. -/
structure LedgerKeyed (t : Tables) : Prop where
  plans : (t.plans.map (·.id)).Nodup
  slots : (t.slots.map (·.id)).Nodup
  locks : (t.locks.map (·.id)).Nodup

/-- Keys are unique. -/
structure Keyed (t : Tables) : Prop extends RosterKeyed t, LedgerKeyed t where
  jobs : (t.jobs.map (·.id)).Nodup
  assignments : (t.assignments.map (·.id)).Nodup

theorem Keyed.empty : Keyed {} where
  providers := List.nodup_nil
  teams := List.nodup_nil
  members := fun _ h => absurd h List.not_mem_nil
  jobs := List.nodup_nil
  assignments := List.nodup_nil
  plans := List.nodup_nil
  slots := List.nodup_nil
  locks := List.nodup_nil

end Tables

namespace Calm

theorem rosterKeyed (h : Calm now t t') (keyed : t.RosterKeyed) : t'.RosterKeyed := by
  rcases h.roster_cases with grows | ⟨providers, teams⟩
  · exact grows.keyed keyed
  · exact ⟨providers ▸ keyed.providers, teams ▸ keyed.teams, teams ▸ keyed.members⟩

theorem jobs_nodup (h : Calm now t t') (nodup : (t.jobs.map (·.id)).Nodup) :
    (t'.jobs.map (·.id)).Nodup := by
  rcases h.jobs_cases with same | ⟨n, id, fresh, -, -, -, added⟩ | ⟨id, f, hf, updated⟩
  · rw [same]
    exact nodup
  · rw [added]
    exact nodup_map_append nodup fresh
  · rw [updated, map_updateWhere fun j => (hf j).1]
    exact nodup

theorem assignments_nodup (h : Calm now t t') (nodup : (t.assignments.map (·.id)).Nodup) :
    (t'.assignments.map (·.id)).Nodup := by
  rcases h.assignments_cases with same | ⟨f, hf, cancelled⟩
    | ⟨j, teamId, ids, rows, staffs, -, added⟩
  · rw [same]
    exact nodup
  · rw [cancelled, List.map_map, List.map_congr_left fun a _ => ?_]
    · exact nodup
    · rcases hf a with same | same <;> rw [Function.comp_apply, same]
  · -- New ids differ from one another and from those there were.
    rw [added, List.map_append, List.map_map, List.nodup_append]
    refine ⟨nodup, staffs.ids_nodup, ?_⟩
    intro k hk k' hk'
    obtain ⟨b, hb, rfl⟩ := List.mem_map.mp hk
    obtain ⟨a, ha, rfl⟩ := List.mem_map.mp hk'
    exact staffs.ids_fresh a ha b hb

theorem locks_nodup (h : Calm now t t') (nodup : (t.locks.map (·.id)).Nodup) :
    (t'.locks.map (·.id)).Nodup := by
  rcases h.locks_cases with same | ⟨-, ⟨l, j, p, fresh, -, -, -, added⟩ | ⟨l, -, -, confirmed⟩
    | ⟨l, -, reason, -, released⟩⟩
  · rw [same]
    exact nodup
  · rw [added]
    exact nodup_map_append nodup fresh
  · rw [confirmed, Tables.lockIds_setLockState]
    exact nodup
  · rw [released, Tables.lockIds_setLockState]
    exact nodup

theorem slots_nodup (h : Calm now t t') (nodup : (t.slots.map (·.id)).Nodup) :
    (t'.slots.map (·.id)).Nodup := by
  cases h with
  | roster grows => exact grows.slots ▸ nodup
  | @cancel jobId _ =>
    obtain ⟨f, -, frame⟩ := Tables.cancelled_frame jobId now t
    rw [frame]
    exact nodup
  | newSlot fresh => exact nodup_map_append nodup fresh
  | resizeSlot => exact (Tables.slotIds_setSlotCapacity ..).symm ▸ nodup
  | @release l reason _ _ => exact (Tables.slotIds_giveBack l t).symm ▸ nodup
  | _ => exact nodup

theorem plans_nodup (h : Calm now t t') (nodup : (t.plans.map (·.id)).Nodup) :
    (t'.plans.map (·.id)).Nodup := by
  cases h with
  | roster grows => exact grows.plans ▸ nodup
  | @cancel jobId _ =>
    obtain ⟨f, -, frame⟩ := Tables.cancelled_frame jobId now t
    rw [frame]
    exact nodup
  | newPlan fresh => exact nodup_map_append nodup fresh
  | resizePlan =>
    show ((updateWhere _ _ t.plans).map (·.id)).Nodup
    rw [map_updateWhere]
    · exact nodup
    · exact fun _ => rfl
  | @release l reason _ _ => exact (Tables.planIds_giveBack l t).symm ▸ nodup
  | _ => exact nodup

theorem keyed (h : Calm now t t') (keyed : t.Keyed) : t'.Keyed where
  toRosterKeyed := h.rosterKeyed keyed.toRosterKeyed
  jobs := h.jobs_nodup keyed.jobs
  assignments := h.assignments_nodup keyed.assignments
  plans := h.plans_nodup keyed.plans
  slots := h.slots_nodup keyed.slots
  locks := h.locks_nodup keyed.locks

end Calm

theorem Ebb.keyed {p q : Tables × List String} (h : Ebb now p q) (keyed : p.1.Keyed) :
    q.1.Keyed := by
  cases h with
  | calm h => exact h.keyed keyed
  | settle => exact { keyed with locks := (Tables.lockIds_setLockState ..).symm ▸ keyed.locks }

/-- **Every step keeps keys unique.** -/
theorem Step.keyed {p q : Tables × List String} (h : Step now p q) (keyed : p.1.Keyed) :
    q.1.Keyed := by
  cases h with
  | ebb h => exact h.keyed keyed
  | @holdTeam t _ l _ slot _ fresh =>
    exact { keyed with
      plans := (Tables.planIds_adjustBooking slot l.count t).symm ▸ keyed.plans
      slots := (Tables.slotIds_adjustBooking slot l.count t).symm ▸ keyed.slots
      locks := nodup_map_append keyed.locks fresh }

theorem Calms.keyed (h : Calms now t t') (keyed : t.Keyed) : t'.Keyed := by
  induction h with
  | refl => exact keyed
  | tail _ step ih => exact step.keyed ih

theorem Steps.keyed {p q : Tables × List String} (h : Steps now p q) (keyed : p.1.Keyed) :
    q.1.Keyed := by
  induction h with
  | refl => exact keyed
  | tail _ step ih => exact step.keyed ih

/-- What every step keeps, several keep. -/
theorem Steps.holds {I : Tables × List String → Prop}
    (keeps : ∀ p q, p.1.Keyed → I p → Step now p q → I q) {p q : Tables × List String}
    (h : Steps now p q) (keyed : p.1.Keyed) (start : I p) : I q := by
  induction h with
  | refl => exact start
  | tail before step ih => exact keeps _ _ (Steps.keyed before keyed) ih step

end Staffing
