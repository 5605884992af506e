import Staffing.Proofs.Turns

/-!
# What becomes of a job

A job is never taken away, and what it asks for never changes. Once it is no longer pending it never
is again, once it is cancelled it stays so, and while it is pending the instants at which a fallback
was requested and the job was escalated stay as they were first set.

* `Job.Becomes` — that, of a job and what has become of it
* `Turn.becomes` — an operation does that to every job
* `Run.becomes` — a run does that to every job
* `Run.Recalls`, `Run.reads_same` — a choice that was made on older tables was made for what the job
  still asks for
-/

namespace Staffing

variable {now : Instant} {t t' : Tables} {e e₀ e' : Engine} {op : Operation}
  {past : List (Engine × Operation)}

namespace Job

/-- What may become of a job. -/
structure Becomes (j j' : Job) : Prop where
  id : j'.id = j.id
  window : j'.window = j.window
  requiredMembers : j'.requiredMembers = j.requiredMembers
  cancelled : j.status = .cancelled → j'.status = .cancelled
  pending : j'.isPending = true → j.isPending = true
  requested : j'.isPending = true →
    ∀ i, j.fallbackRequestedAt = some i → j'.fallbackRequestedAt = some i
  escalated : j'.isPending = true →
    ∀ i, j.fallbackEscalatedAt = some i → j'.fallbackEscalatedAt = some i

theorem Becomes.refl (j : Job) : j.Becomes j where
  id := rfl
  window := rfl
  requiredMembers := rfl
  cancelled := fun h => h
  pending := fun h => h
  requested := fun _ _ h => h
  escalated := fun _ _ h => h

theorem Becomes.trans {j j' j'' : Job} (h : j.Becomes j') (h' : j'.Becomes j'') :
    j.Becomes j'' where
  id := h'.id.trans h.id
  window := h'.window.trans h.window
  requiredMembers := h'.requiredMembers.trans h.requiredMembers
  cancelled := fun ended => h'.cancelled (h.cancelled ended)
  pending := fun waits => h.pending (h'.pending waits)
  requested := fun waits i set => h'.requested waits i (h.requested (h'.pending waits) i set)
  escalated := fun waits i set => h'.escalated waits i (h.escalated (h'.pending waits) i set)

/-- The instants of fallback and escalation are whole seconds. -/
def StampsWhole (j : Job) : Prop :=
  j.fallbackRequestedAt.map Instant.wholeSecond = j.fallbackRequestedAt ∧
    j.fallbackEscalatedAt.map Instant.wholeSecond = j.fallbackEscalatedAt

theorem isPending_iff {j : Job} : j.isPending = true ↔ j.status = .pendingProvider := by
  unfold isPending
  rw [decide_eq_true_iff]

/-- A job that is over becomes nothing else. -/
theorem Becomes.of_not_pending {j j' : Job} (id : j'.id = j.id) (window : j'.window = j.window)
    (requiredMembers : j'.requiredMembers = j.requiredMembers)
    (cancelled : j.status = .cancelled → j'.status = .cancelled)
    (ended : j'.isPending = false) : j.Becomes j' where
  id := id
  window := window
  requiredMembers := requiredMembers
  cancelled := cancelled
  pending := fun waits => absurd (ended.symm.trans waits) Bool.false_ne_true
  requested := fun waits => absurd (ended.symm.trans waits) Bool.false_ne_true
  escalated := fun waits => absurd (ended.symm.trans waits) Bool.false_ne_true

end Job

/-- Whole seconds are rounded to themselves. -/
theorem map_wholeSecond_wholeSecond (i : Option Instant) :
    (i.map Instant.wholeSecond).map Instant.wholeSecond = i.map Instant.wholeSecond := by
  cases i with
  | none => rfl
  | some i => exact congrArg some (Instant.wholeSecond_wholeSecond i)

namespace Turn

/-- Jobs stay as they are, one is added that is pending, or one changes to what may become of it. -/
theorem jobs_cases (h : Turn e op e') (keyed : (e.store.tables.jobs.map (·.id)).Nodup)
    (whole : ∀ j ∈ e.store.tables.jobs, j.StampsWhole) :
    e'.store.tables.jobs = e.store.tables.jobs
      ∨ (∃ (n : NewJob) (id : String), (∀ j ∈ e.store.tables.jobs, j.id ≠ id) ∧
          e'.store.tables.jobs = e.store.tables.jobs ++ [(n.pending id e.now).stored])
      ∨ ∃ id f, e'.store.tables.jobs = updateWhere (·.id == id) f e.store.tables.jobs ∧
          ∀ j ∈ e.store.tables.jobs, j.id = id → j.Becomes (f j) ∧ (f j).StampsWhole := by
  cases h with
  | rest _ same => exact .inl same.jobs
  | book fresh same => exact .inr (.inl ⟨_, _, fresh, same.jobs⟩)
  | @cancel actor jobId _ same =>
    obtain ⟨f, -, frame⟩ := Tables.cancelled_frame jobId e.now e.store.tables
    refine .inr (.inr ⟨jobId, _, same.jobs.trans (congrArg Tables.jobs frame), fun j hj own => ?_⟩)
    exact ⟨.of_not_pending rfl rfl rfl (fun _ => rfl) rfl, whole j hj⟩
  | staff _ found pending _ _ same =>
    refine .inr (.inr ⟨_, _, same.jobs, fun j hj own => ?_⟩)
    obtain rfl := eq_of_find?_key keyed found hj own
    refine ⟨.of_not_pending rfl rfl rfl (fun ended => ?_) rfl, rfl, rfl⟩
    rw [Job.isPending_iff.mp pending] at ended
    cases ended
  | note found pending _ jobs _ _ =>
    refine .inr (.inr ⟨_, _, jobs, fun j hj own => ?_⟩)
    obtain rfl := eq_of_find?_key keyed found hj (own.trans (mem_of_find?_key found).2)
    obtain ⟨requested, escalated⟩ := whole j hj
    refine ⟨⟨rfl, rfl, rfl, fun h => h, fun h => h, fun _ i set => ?_, fun _ i set => ?_⟩, ?_⟩
    · show Option.map _ (if _ then _ else _) = some i
      rw [set] at requested ⊢
      exact requested
    · show Option.map _ (if _ then _ else _) = some i
      rw [set] at escalated ⊢
      rw [Option.isNone_some, Bool.and_false]
      exact escalated
    · exact ⟨map_wholeSecond_wholeSecond _, map_wholeSecond_wholeSecond _⟩

theorem becomes (h : Turn e op e') (keyed : (e.store.tables.jobs.map (·.id)).Nodup)
    (whole : ∀ j ∈ e.store.tables.jobs, j.StampsWhole) :
    ∀ j ∈ e.store.tables.jobs, ∃ j' ∈ e'.store.tables.jobs, j.Becomes j' := by
  intro j hj
  rcases h.jobs_cases keyed whole with same | ⟨n, id, -, added⟩ | ⟨id, f, updated, changes⟩
  · exact ⟨j, same ▸ hj, .refl j⟩
  · exact ⟨j, added ▸ List.mem_append_left _ hj, .refl j⟩
  · refine ⟨_, updated ▸ mem_updateWhere.mpr ⟨j, hj, rfl⟩, ?_⟩
    split
    · next own => exact (changes j hj (beq_iff_eq.mp own)).1
    · exact .refl j

theorem stampsWhole (h : Turn e op e') (keyed : (e.store.tables.jobs.map (·.id)).Nodup)
    (whole : ∀ j ∈ e.store.tables.jobs, j.StampsWhole) :
    ∀ j ∈ e'.store.tables.jobs, j.StampsWhole := by
  intro j' hj'
  rcases h.jobs_cases keyed whole with same | ⟨n, id, -, added⟩ | ⟨id, f, updated, changes⟩
  · exact whole j' (same ▸ hj')
  · rw [added] at hj'
    rcases List.mem_append.mp hj' with old | new
    · exact whole j' old
    · rw [List.mem_singleton.mp new]
      exact ⟨rfl, rfl⟩
  · rw [updated] at hj'
    obtain ⟨j, hj, rfl⟩ := mem_updateWhere.mp hj'
    split
    · next own => exact (changes j hj (beq_iff_eq.mp own)).2
    · exact whole j hj

end Turn

namespace Run

/-- What every turn keeps, every run has. -/
theorem turns {P : List (Engine × Operation) → Engine → Prop} (run : Run past e)
    (start : ∀ e : Engine, e.store.tables = {} → P [] e)
    (turn : ∀ past e op e', Run past e → P past e → op.IsAdmissible → Turn e op e' →
      e'.Ready → P (past ++ [(e, op)]) e') : P past e := by
  refine (run.induct (P := fun past e => Run past e ∧ P past e) ?_ ?_).2
  · exact fun e empty idle quiet => ⟨.start empty idle quiet, start e empty⟩
  · rintro past e op ⟨run, h⟩ admissible
    have run' := run.operation op admissible
    exact ⟨run', turn past e op _ run h admissible (op.turn run.ready admissible) run'.ready⟩

theorem stampsWhole (run : Run past e) : ∀ j ∈ e.store.tables.jobs, j.StampsWhole := by
  refine run.turns (P := fun _ e => ∀ j ∈ e.store.tables.jobs, j.StampsWhole) ?_ ?_
  · intro e empty j hj
    rw [empty] at hj
    cases hj
  · intro past e op e' run whole _ turn _
    exact turn.stampsWhole run.ready.keyed.jobs whole

/-- **What becomes of a job over a run.** A job that an operation of the run has found is still
there. -/
theorem becomes (run : Run past e) (made : (e₀, op) ∈ past) :
    ∀ j ∈ e₀.store.tables.jobs, ∃ j' ∈ e.store.tables.jobs, j.Becomes j' := by
  refine run.turns (P := fun past e => ∀ e₀ op, (e₀, op) ∈ past →
    ∀ j ∈ e₀.store.tables.jobs, ∃ j' ∈ e.store.tables.jobs, j.Becomes j') ?_ ?_ e₀ op made
  · exact fun _ _ _ _ never => absurd never List.not_mem_nil
  · intro past e op e' run earlier _ turn _ e₀ op₀ made j hj
    have next := turn.becomes run.ready.keyed.jobs run.stampsWhole
    rcases List.mem_append.mp made with before | last
    · obtain ⟨j₁, hj₁, becomes⟩ := earlier e₀ op₀ before j hj
      obtain ⟨j₂, hj₂, becomes'⟩ := next j₁ hj₁
      exact ⟨j₂, hj₂, becomes.trans becomes'⟩
    · obtain ⟨rfl, rfl⟩ := Prod.mk.inj (List.mem_singleton.mp last)
      exact next j hj

/-- The same for a job that an operation of the run has left. -/
theorem after_becomes (run : Run past e) (made : (e₀, op) ∈ past) :
    ∀ j ∈ (op.after e₀).store.tables.jobs, ∃ j' ∈ e.store.tables.jobs, j.Becomes j' := by
  intro j hj
  rcases run.after_cases made with here | ⟨op', later⟩
  · exact ⟨j, here ▸ hj, .refl j⟩
  · exact run.becomes later j hj

/-- The same for the job as it is, which is the only one of its id. -/
theorem becomes_of_id (run : Run past e) (made : (e₀, op) ∈ past) {j₀ j : Job}
    (hj₀ : j₀ ∈ e₀.store.tables.jobs) (hj : j ∈ e.store.tables.jobs) (same : j₀.id = j.id) :
    j₀.Becomes j := by
  obtain ⟨j', hj', becomes⟩ := run.becomes made j₀ hj₀
  obtain rfl : j' = j := List.inj_on_of_nodup_map run.ready.keyed.jobs hj' hj
    (becomes.id.trans same)
  exact becomes

end Run

/-! ## Choices that were made before -/

/-- If the operation commits a choice that was made on other tables, their jobs were those of one of
these engines. -/
def Operation.Recalls (seen : List Engine) : Operation → Prop
  | commitSeen view _ _ => ∃ e ∈ seen, view.store.tables.jobs = e.store.tables.jobs
  | _ => True

namespace Run

/-- Every choice that was committed had been made for the jobs as they were then or earlier: as the
operation or one before it found them, or as they are in one of these engines. -/
def Recalls (seen : List Engine) : List (Engine × Operation) → Prop
  | [] => True
  | (e, op) :: rest => op.Recalls (seen ++ [e]) ∧ Recalls (seen ++ [e]) rest

theorem recalls_append {seen : List Engine} : Recalls seen (past ++ [(e, op)]) ↔
    Recalls seen past ∧ op.Recalls (seen ++ past.map (·.1) ++ [e]) := by
  induction past generalizing seen with
  | nil =>
    rw [List.nil_append, List.map_nil, List.append_nil]
    exact and_comm
  | cons first rest ih =>
    obtain ⟨e₀, op₀⟩ := first
    rw [List.cons_append, Recalls, Recalls, ih, and_assoc, List.map_cons,
      List.append_cons seen e₀ (rest.map (·.1))]

/-- **A job that was read before asked for what it asks for now.** -/
theorem reads_same (run : Run past e) (recalls : Recalls [] (past ++ [(e, op)])) {j stored : Job}
    (reads : op.Reads e j) (found : e.store.tables.job? j.id = some stored) :
    j.window = stored.window ∧ j.requiredMembers = stored.requiredMembers := by
  have last := (recalls_append.mp recalls).2
  obtain ⟨hstored, ofStored⟩ := mem_of_find?_key found
  have now {jobId : String} (read : e.store.tables.job? jobId = some j) :
      j.window = stored.window ∧ j.requiredMembers = stored.requiredMembers := by
    rw [(mem_of_find?_key read).2, read] at found
    obtain rfl := Option.some.inj found
    exact ⟨rfl, rfl⟩
  cases op with
  | autoAssign jobId _ => exact now reads
  | promote jobId _ => exact now reads
  | commitSeen view jobId _ =>
    obtain ⟨e₀, seen, jobs⟩ := last
    have read : e₀.store.tables.job? jobId = some j := by
      unfold Tables.job?
      rw [← jobs]
      exact reads
    rw [List.nil_append] at seen
    rcases List.mem_append.mp seen with earlier | current
    · obtain ⟨⟨_, op₀⟩, made, rfl⟩ := List.mem_map.mp earlier
      have becomes := run.becomes_of_id made (mem_of_find?_key read).1 hstored ofStored.symm
      exact ⟨becomes.window.symm, becomes.requiredMembers.symm⟩
    · rw [List.mem_singleton.mp current] at read
      exact now read
  | _ => exact reads.elim

end Run

end Staffing
