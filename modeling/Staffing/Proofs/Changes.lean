import Staffing.Proofs.Writes

/-!
# Changes

What a calm step does to each table. An invariant that speaks of some of the tables has to be
checked against those of their changes alone.

* `Calm.roster_cases`, `Calm.jobs_cases`, `Calm.assignments_cases`, `Calm.locks_cases`
* `Tables.JobsStay`, `Calm.jobsStay` — jobs stay where they are
-/

namespace Staffing

variable {now : Instant} {t t' : Tables}

namespace Tables.RosterGrows

theorem jobs (h : t.RosterGrows t') : t'.jobs = t.jobs := by rw [h.others]

theorem assignments (h : t.RosterGrows t') : t'.assignments = t.assignments := by rw [h.others]

theorem plans (h : t.RosterGrows t') : t'.plans = t.plans := by rw [h.others]

theorem slots (h : t.RosterGrows t') : t'.slots = t.slots := by rw [h.others]

theorem locks (h : t.RosterGrows t') : t'.locks = t.locks := by rw [h.others]

end Tables.RosterGrows

namespace Tables

/-- No job was taken away, and none has moved. -/
structure JobsStay (t t' : Tables) : Prop where
  stored : ∀ j ∈ t.jobs, ∃ j' ∈ t'.jobs, j'.id = j.id ∧ j'.window = j.window
  windows : ∀ j' ∈ t'.jobs, t.hasJob j'.id = true →
    ∃ j ∈ t.jobs, j.id = j'.id ∧ j.window = j'.window

theorem JobsStay.of_eq (same : t'.jobs = t.jobs) : t.JobsStay t' where
  stored := fun j hj => ⟨j, same ▸ hj, rfl, rfl⟩
  windows := fun j hj _ => ⟨j, same ▸ hj, rfl, rfl⟩

theorem JobsStay.congr {u : Tables} (h : t.JobsStay t') (same : u.jobs = t'.jobs) :
    t.JobsStay u where
  stored := same ▸ h.stored
  windows := same ▸ h.windows

theorem JobsStay.hasJob (h : t.JobsStay t') {id : String} (known : t.hasJob id = true) :
    t'.hasJob id = true := by
  obtain ⟨j, hj, rfl⟩ := any_key.mp known
  obtain ⟨j', hj', own, -⟩ := h.stored j hj
  exact any_key.mpr ⟨j', hj', own⟩

end Tables

namespace Calm

/-- Providers and teams change only by a step of their own. -/
theorem roster_cases (h : Calm now t t') :
    t.RosterGrows t' ∨ t'.providers = t.providers ∧ t'.teams = t.teams := by
  cases h with
  | roster grows => exact .inl grows
  | @cancel jobId _ =>
    obtain ⟨f, -, frame⟩ := Tables.cancelled_frame jobId now t
    rw [frame]
    exact .inr ⟨rfl, rfl⟩
  | release _ _ =>
    rw [Tables.released_frame]
    exact .inr ⟨rfl, rfl⟩
  | _ => exact .inr ⟨rfl, rfl⟩

/-- Jobs stay as they are, one is added, or one changes, but neither its id nor what it asks for. -/
theorem jobs_cases (h : Calm now t t') :
    t'.jobs = t.jobs
      ∨ (∃ n : NewJob, ∃ id, (∀ k ∈ t.jobs, k.id ≠ id) ∧
          n.start.wholeSecond < n.stop.wholeSecond ∧ 1 ≤ n.requiredMembers ∧
          n.requiredMembers ≤ 20 ∧ t'.jobs = t.jobs ++ [(n.pending id now).stored])
      ∨ ∃ id, ∃ f : Job → Job,
          (∀ j, (f j).id = j.id ∧ (f j).window = j.window ∧
            (f j).requiredMembers = j.requiredMembers) ∧
          t'.jobs = updateWhere (·.id == id) f t.jobs := by
  cases h with
  | roster grows => exact .inl grows.jobs
  | book fresh lasts least most => exact .inr (.inl ⟨_, _, fresh, lasts, least, most, rfl⟩)
  | @cancel jobId _ =>
    obtain ⟨f, -, frame⟩ := Tables.cancelled_frame jobId now t
    rw [frame]
    exact .inr (.inr ⟨jobId, fun j => { j with status := .cancelled, updatedAt := now.wholeSecond },
      fun _ => ⟨rfl, rfl, rfl⟩, rfl⟩)
  | release _ _ =>
    rw [Tables.released_frame]
    exact .inl rfl
  | commit | staff | note =>
    refine .inr (.inr ⟨_, _, ?_, rfl⟩)
    exact fun _ => ⟨rfl, rfl, rfl⟩
  | _ => exact .inl rfl

/-- Jobs are never taken away, and they do not move. -/
theorem jobsStay (h : Calm now t t') : t.JobsStay t' := by
  rcases h.jobs_cases with same | ⟨n, id, fresh, -, -, -, added⟩ | ⟨id, f, hf, updated⟩
  · exact .of_eq same
  · constructor
    · intro j hj
      exact ⟨j, added ▸ List.mem_append_left _ hj, rfl, rfl⟩
    · rw [added]
      intro j' hj' known
      rcases List.mem_append.mp hj' with old | new
      · exact ⟨j', old, rfl, rfl⟩
      · obtain ⟨j, hj, same⟩ := any_key.mp known
        rw [List.mem_singleton.mp new] at same
        exact absurd same (fresh j hj)
  · have keeps : ∀ j, (if (j.id == id) = true then f j else j).id = j.id ∧
        (if (j.id == id) = true then f j else j).window = j.window := by
      intro j
      split
      · exact ⟨(hf j).1, (hf j).2.1⟩
      · exact ⟨rfl, rfl⟩
    constructor
    · intro j hj
      exact ⟨_, updated ▸ mem_updateWhere.mpr ⟨j, hj, rfl⟩, keeps j⟩
    · rw [updated]
      intro j' hj' _
      obtain ⟨j, hj, rfl⟩ := mem_updateWhere.mp hj'
      exact ⟨j, hj, (keeps j).1.symm, (keeps j).2.symm⟩

/-- Assignments stay as they are, some are cancelled, or a job is staffed that has no live one. -/
theorem assignments_cases (h : Calm now t t') :
    t'.assignments = t.assignments
      ∨ (∃ f : Assignment → Assignment, (∀ a, f a = a ∨ f a = { a with status := .cancelled }) ∧
          t'.assignments = t.assignments.map f)
      ∨ ∃ (j : Job) (teamId : Option String) (providerIds : List String) (rows : List Assignment),
          t.Staffs j teamId providerIds now rows ∧ t.assignmentsFor j.id = [] ∧
          t'.assignments = t.assignments ++ rows.map Assignment.stored := by
  cases h with
  | roster grows => exact .inl grows.assignments
  | @cancel jobId _ =>
    obtain ⟨f, hf, frame⟩ := Tables.cancelled_frame jobId now t
    rw [frame]
    exact .inr (.inl ⟨f, hf, rfl⟩)
  | release _ _ =>
    rw [Tables.released_frame]
    exact .inl rfl
  | commit _ _ vacant staffs _ => exact .inr (.inr ⟨_, _, _, _, staffs, vacant, rfl⟩)
  | staff _ _ vacant _ staffs => exact .inr (.inr ⟨_, _, _, _, staffs, vacant, rfl⟩)
  | _ => exact .inl rfl

/-- Locks stay as they are, or jobs do, and a lock on a provider is added, a held one is confirmed,
or a live one is released. -/
theorem locks_cases (h : Calm now t t') :
    t'.locks = t.locks ∨ t'.jobs = t.jobs ∧
      ((∃ (l : Lock) (j : Job) (providerId : String), (∀ k ∈ t.locks, k.id ≠ l.id) ∧
          t.job? l.jobId = some j ∧ l.target = .provider providerId ∧
          t.providerLocked providerId j.window now none = false ∧
          t'.locks = t.locks ++ [l.stored])
      ∨ (∃ l ∈ t.locks, l.status = .held ∧ t'.locks = (t.setLockState l.id .confirmed none
          (Locks.confirmed l now).expiresAt now).locks)
      ∨ ∃ l ∈ t.locks, ∃ reason, l.isLive = true ∧
          t'.locks = (t.setLockState l.id .released (some reason) l.expiresAt now).locks) := by
  cases h with
  | roster grows => exact .inl grows.locks
  | @cancel jobId _ =>
    obtain ⟨f, -, frame⟩ := Tables.cancelled_frame jobId now t
    rw [frame]
    exact .inl rfl
  | holdProvider fresh job _ target _ _ _ _ unlocked _ =>
    exact .inr ⟨rfl, .inl ⟨_, _, _, fresh, job, target, unlocked, rfl⟩⟩
  | confirm hl held => exact .inr ⟨rfl, .inr (.inl ⟨_, hl, held, rfl⟩)⟩
  | @release l reason hl live =>
    rw [Tables.released_frame]
    exact .inr ⟨rfl, .inr (.inr ⟨l, hl, reason, live, rfl⟩)⟩
  | _ => exact .inl rfl

end Calm

end Staffing
