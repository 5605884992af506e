import Staffing.Proofs.Tally

/-!
# Retry sweeps

A retry sweep lists the jobs that are due and goes through them: it tries to match a job, and counts
the attempt if it has failed. When sweeps do not overlap, no failed attempt at a job that is still
pending is passed over, so the tally of the job is exact. The calls between the steps of a sweep may
be any, and a sweep may break off anywhere.

* `Pass`, `Sweeping` — a sweep on its way, and runs with one at most
* `Sweeping.sweep` — a whole run of the sweep is such steps
* `Pass.Fits` — what the sweep may count on
* `Sweeping.tallied` — every failed attempt counts
* `retries_bounded` — the bounds in whatever order attempts are counted, and the exact figures when
  sweeps do not overlap
-/

namespace Staffing

variable {now staleBefore : Instant} {t t' : Tables} {e : Engine} {op : Operation} {j : Job}
  {maxRetries : Nat} {team : Option String} {past : List (Engine × Operation)}

/-! ## Sweeps -/

theorem Tables.mem_jobsDue : j ∈ t.jobsDue now staleBefore maxRetries ↔
    j ∈ t.jobs ∧ isDue now staleBefore maxRetries j = true := by
  unfold jobsDue
  rw [(List.mergeSort_perm _ _).mem_iff]
  exact List.mem_filter

/-- A job that is listed is pending, has not been changed for some time, and has an attempt or the
escalation left. -/
theorem Tables.of_mem_jobsDue (listed : j ∈ t.jobsDue now staleBefore maxRetries) :
    j ∈ t.jobs ∧ j.isPending = true ∧ j.updatedAt ≤ staleBefore.wholeSecond ∧
      (j.retryCount < maxRetries ∨ j.fallbackEscalatedAt = none) := by
  obtain ⟨stored, due⟩ := mem_jobsDue.mp listed
  simp only [isDue, Bool.and_eq_true, Bool.or_eq_true, decide_eq_true_eq,
    Option.isNone_iff_eq_none] at due
  obtain ⟨⟨⟨⟨pending, -⟩, -⟩, since⟩, left⟩ := due
  exact ⟨stored, pending, since, left⟩

/-- A retry sweep on its way. -/
structure Pass where
  now : Instant
  staleBefore : Instant
  /-- The job whose attempt has just failed, as it was listed. -/
  missed : Option Job
  /-- The listed jobs still to be tried. -/
  left : List Job

namespace Pass

/-- The jobs for which the sweep may still count a failed attempt. -/
def jobs (p : Pass) : List Job := p.missed.toList ++ p.left

/-- The pass after the attempt at a listed job: it has missed the job unless it was matched. -/
def tried (now staleBefore : Instant) (j : Job) (left : List Job) (e : Engine) : Pass :=
  match Engine.autoAssign j.id now e with
  | .ok (some _) _ => ⟨now, staleBefore, none, left⟩
  | _ => ⟨now, staleBefore, some j, left⟩

/-- What a sweep may count on: it counts an attempt for a job once at most, and a listed job that
is still pending has not been changed since it was listed, and has an attempt or the escalation
left. -/
structure Fits (p : Pass) (maxRetries : Nat) (t : Tables) : Prop where
  distinct : (p.jobs.map (·.id)).Nodup
  known : ∀ l ∈ p.jobs, t.hasJob l.id = true
  due : ∀ l ∈ p.jobs, ∀ j ∈ t.jobs, j.id = l.id → j.isPending = true →
    j.updatedAt.wholeSecond ≤ p.staleBefore.wholeSecond ∧
      (j.retryCount < maxRetries ∨ j.fallbackEscalatedAt = none)

namespace Fits

variable {p p' : Pass}

/-- That holds all the more when fewer jobs are left. -/
theorem sublist (h : p.Fits maxRetries t) (fewer : p'.jobs.Sublist p.jobs)
    (same : p'.staleBefore = p.staleBefore) : p'.Fits maxRetries t where
  distinct := h.distinct.sublist (fewer.map _)
  known l hl := h.known l (fewer.subset hl)
  due l hl := same ▸ h.due l (fewer.subset hl)

theorem uncounted (h : p.Fits maxRetries t) (same : t.Uncounted t')
    (kept : ∀ id, t.hasJob id = true → t'.hasJob id = true) : p.Fits maxRetries t' where
  distinct := h.distinct
  known l hl := kept _ (h.known l hl)
  due l hl j' hj' own pending := by
    rcases same.jobs j' hj' with old | ⟨fresh, -⟩ | ⟨ended, -⟩
    · exact h.due l hl j' old own pending
    · obtain ⟨j, hj, ofListed⟩ := any_key.mp (h.known l hl)
      exact absurd (ofListed.trans own.symm) (fresh j hj)
    · exact absurd (pending.symm.trans ended) (by decide)

/-- An attempt at another job makes no difference. -/
theorem counted (h : p.Fits maxRetries t) (counts : t.Counted t' j maxRetries team now)
    (others : ∀ l ∈ p.jobs, l.id ≠ j.id)
    (kept : ∀ id, t.hasJob id = true → t'.hasJob id = true) : p.Fits maxRetries t' where
  distinct := h.distinct
  known l hl := kept _ (h.known l hl)
  due l hl j' hj' own pending := by
    rcases counts.jobs j' hj' with rfl | ⟨old, -⟩
    · exact absurd own.symm (others l hl)
    · exact h.due l hl j' old own pending

/-- Jobs that have just been listed are as they were listed. -/
theorem listed (keyed : (t.jobs.map (·.id)).Nodup) :
    (⟨now, staleBefore, none, t.jobsDue now staleBefore maxRetries⟩ : Pass).Fits maxRetries t := by
  constructor
  case distinct =>
    show ((t.jobsDue now staleBefore maxRetries).map (·.id)).Nodup
    unfold Tables.jobsDue
    rw [((List.mergeSort_perm _ _).map _).nodup_iff]
    exact keyed.sublist (List.filter_sublist.map _)
  case known => exact fun l hl => any_key.mpr ⟨l, (Tables.of_mem_jobsDue hl).1, rfl⟩
  case due =>
    intro l hl j hj own pending
    obtain ⟨stored, -, since, left⟩ := Tables.of_mem_jobsDue hl
    obtain rfl := List.inj_on_of_nodup_map keyed hj stored own
    have since := Instant.wholeSecond_mono since
    rw [Instant.wholeSecond_wholeSecond] at since
    exact ⟨since, left⟩

end Fits

end Pass

/-- The id of the job for which the operation is to count a failed attempt. -/
def Operation.recorded? : Operation → Option String
  | recordFailure j .. => some j.id
  | _ => none

/-- A run on which retry sweeps do not overlap: at most one is on its way, and only it counts failed
attempts. The calls between its steps are any. -/
inductive Sweeping (maxRetries : Nat) : List (Engine × Operation) → Engine → Option Pass → Prop
  | start {e : Engine} :
      e.store.tables = {} → e.store.saved = none → e.priceSource.IsQuiet →
      Sweeping maxRetries [] e none
  /-- A call of any kind. -/
  | call {past : List (Engine × Operation)} {e : Engine} {pass : Option Pass} (op : Operation) :
      Sweeping maxRetries past e pass → op.IsAdmissible → op.recorded? = none →
      Sweeping maxRetries (past ++ [(e, op)]) (op.after e) pass
  /-- The sweep lists the jobs that are due. -/
  | list {past : List (Engine × Operation)} {e : Engine} (now staleBefore : Instant) :
      Sweeping maxRetries past e none →
      Sweeping maxRetries past e
        (some ⟨now, staleBefore, none, e.store.tables.jobsDue now staleBefore maxRetries⟩)
  /-- It tries to match the next job. -/
  | attempt {past : List (Engine × Operation)} {e : Engine} {now staleBefore : Instant} {j : Job}
      {left : List Job} :
      Sweeping maxRetries past e (some ⟨now, staleBefore, none, j :: left⟩) →
      Sweeping maxRetries (past ++ [(e, .autoAssign j.id now)])
        ((Operation.autoAssign j.id now).after e) (some (Pass.tried now staleBefore j left e))
  /-- It counts the attempt, which has failed. -/
  | record {past : List (Engine × Operation)} {e : Engine} {now staleBefore : Instant} {j : Job}
      {left : List Job} :
      Sweeping maxRetries past e (some ⟨now, staleBefore, some j, left⟩) →
      Sweeping maxRetries (past ++ [(e, .recordFailure j maxRetries now staleBefore)])
        ((Operation.recordFailure j maxRetries now staleBefore).after e)
        (some ⟨now, staleBefore, none, left⟩)
  /-- It is done, or breaks off. -/
  | finish {past : List (Engine × Operation)} {e : Engine} {pass : Pass} :
      Sweeping maxRetries past e (some pass) → Sweeping maxRetries past e none

namespace Sweeping

variable {pass : Option Pass}

theorem run (h : Sweeping maxRetries past e pass) : Run past e := by
  induction h with
  | start empty idle quiet => exact .start empty idle quiet
  | call op _ admissible _ ih => exact ih.operation op admissible
  | list _ _ _ ih => exact ih
  | attempt _ ih => exact ih.operation _ trivial
  | record _ ih => exact ih.operation _ trivial
  | finish _ ih => exact ih

theorem allows (h : Sweeping maxRetries past e pass) : Run.Allows maxRetries past := by
  have append {past : List (Engine × Operation)} {e : Engine} {op : Operation}
      (before : Run.Allows maxRetries past)
      (last : ∀ j m now staleBefore, op = .recordFailure j m now staleBefore → m = maxRetries) :
      Run.Allows maxRetries (past ++ [(e, op)]) := by
    intro e' j m now staleBefore made
    rcases List.mem_append.mp made with earlier | current
    · exact before e' j m now staleBefore earlier
    · exact last j m now staleBefore (Prod.mk.inj (List.mem_singleton.mp current)).2.symm
  induction h with
  | start => exact fun _ _ _ _ _ never => absurd never List.not_mem_nil
  | call op _ _ uncounted ih =>
    exact append ih fun j m now staleBefore same => by rw [same] at uncounted; cases uncounted
  | list _ _ _ ih => exact ih
  | attempt _ ih => exact append ih fun _ _ _ _ same => by cases same
  | record _ ih => exact append ih fun _ _ _ _ same => (by cases same; rfl)
  | finish _ ih => exact ih

/-- A listed job is tried, and the attempt is counted if it has failed. -/
theorem retryOne {left : List Job}
    (h : Sweeping maxRetries past e (some ⟨now, staleBefore, none, j :: left⟩)) :
    Sweeping maxRetries
      (past ++ Operation.trace (Sweep.retryParts maxRetries now staleBefore j e) e)
      (Operation.afterAll (Sweep.retryParts maxRetries now staleBefore j e) e)
      (some ⟨now, staleBefore, none, left⟩) := by
  have counts (missed : Sweeping maxRetries (past ++ [(e, .autoAssign j.id now)])
      ((Operation.autoAssign j.id now).after e) (some ⟨now, staleBefore, some j, left⟩)) :
      Sweeping maxRetries
        (past ++ Operation.trace
          [.autoAssign j.id now, .recordFailure j maxRetries now staleBefore] e)
        (Operation.afterAll [.autoAssign j.id now, .recordFailure j maxRetries now staleBefore] e)
        (some ⟨now, staleBefore, none, left⟩) := by
    have counted := missed.record
    rw [List.append_assoc] at counted
    exact counted
  have tried := h.attempt
  unfold Pass.tried at tried
  unfold Sweep.retryParts
  -- An attempt comes to nothing if it fails and if it answers that nobody can go.
  cases attempted : Engine.autoAssign j.id now e with
  | ok answer e₁ =>
    rw [attempted] at tried
    cases answer with
    | some selection => exact tried
    | none => exact counts tried
  | error fault e₁ =>
    rw [attempted] at tried
    exact counts tried

/-- A sweep that has listed some jobs goes through them. -/
theorem forEach {jobs : List Job}
    (h : Sweeping maxRetries past e (some ⟨now, staleBefore, none, jobs⟩)) :
    Sweeping maxRetries
      (past ++ Operation.trace
        (Operation.forEach (Sweep.retryParts maxRetries now staleBefore) jobs e) e)
      (Operation.afterAll
        (Operation.forEach (Sweep.retryParts maxRetries now staleBefore) jobs e) e)
      (some ⟨now, staleBefore, none, []⟩) := by
  induction jobs generalizing past e with
  | nil =>
    show Sweeping maxRetries (past ++ []) e _
    rw [List.append_nil]
    exact h
  | cons j left ih =>
    unfold Operation.forEach
    rw [Operation.trace_append, Operation.afterAll_append, ← List.append_assoc]
    exact ih h.retryOne

/-- **A whole run of the retry sweep is such steps.** -/
theorem sweep (h : Sweeping maxRetries past e none) (config : SweepConfig) (now : Instant)
    (same : config.maxRetries = maxRetries) :
    Sweeping maxRetries
      (past ++ Operation.trace (Sweep.Kind.retry.parts config now e) e)
      (after ((Sweep.retry config).run now) e) none := by
  obtain rfl := same
  rw [Sweep.after_retry]
  exact (h.list now (now - config.staleAfter * Instant.minute)).forEach.finish

end Sweeping

/-! ## Figures -/

namespace Run

/-- How many failed attempts were to be counted for the job. -/
def recorded (past : List (Engine × Operation)) (jobId : String) : Nat :=
  past.countP (·.2.recorded? == some jobId)

theorem recorded_of_none (none : op.recorded? = none) :
    recorded (past ++ [(e, op)]) = recorded past := by
  funext id
  unfold recorded
  rw [List.countP_append, List.countP_singleton, none]
  rfl

theorem recorded_of_some {id : String} (some : op.recorded? = some id) :
    recorded (past ++ [(e, op)]) = Function.update (recorded past) id (recorded past id + 1) := by
  funext other
  unfold recorded
  rw [List.countP_append, List.countP_singleton, some]
  by_cases same : other = id
  · rw [same, Function.update_self, if_pos (beq_self_eq_true _)]
  · rw [Function.update_of_ne same, if_neg (by simpa using Ne.symm same), Nat.add_zero]

/-- What an operation keeps that is not to count a failed attempt. -/
theorem uncounted (run : Run past e) (admissible : op.IsAdmissible) (none : op.recorded? = none) :
    e.store.tables.Uncounted (op.after e).store.tables ∧
      ∀ id, e.store.tables.hasJob id = true → (op.after e).store.tables.hasJob id = true := by
  have turn := op.turn run.ready admissible
  refine ⟨?_, fun _ => turn.hasJob run.ready.keyed.jobs run.stampsWhole⟩
  rcases turn.failure_cases run.ready.keyed.jobs with ⟨-, same⟩ | ⟨_, _, _, _, _, _, rfl, -⟩
  · exact same
  · cases none

/-- **A sweep counts the attempt that it has missed,** unless the job is not pending any more. -/
theorem record (run : Run past e) {k : String → Nat} {l : Job} {left : List Job}
    (positive : 1 ≤ maxRetries)
    (ofJobs : ∀ event ∈ e.store.tables.retries, e.store.tables.hasJob event.jobId = true)
    (tallied : e.store.tables.Tallied maxRetries k)
    (fits : (⟨now, staleBefore, some l, left⟩ : Pass).Fits maxRetries e.store.tables) :
    let e' := (Operation.recordFailure l maxRetries now staleBefore).after e
    e'.store.tables.Tallied maxRetries (Function.update k l.id (k l.id + 1)) ∧
      (⟨now, staleBefore, none, left⟩ : Pass).Fits maxRetries e'.store.tables := by
  intro e'
  have keyed := run.ready.keyed.jobs
  have turn : Turn e (.recordFailure l maxRetries now staleBefore) e' :=
    Operation.turn _ run.ready trivial
  have kept : ∀ id, e.store.tables.hasJob id = true → e'.store.tables.hasJob id = true :=
    fun _ => turn.hasJob keyed run.stampsWhole
  obtain ⟨once, -⟩ : l.id ∉ left.map (·.id) ∧ (left.map (·.id)).Nodup :=
    List.nodup_cons.mp fits.distinct
  have remaining : (⟨now, staleBefore, none, left⟩ : Pass).Fits maxRetries e.store.tables :=
    fits.sublist (List.sublist_cons_self l left) rfl
  have missed : l ∈ (⟨now, staleBefore, some l, left⟩ : Pass).jobs := List.mem_cons_self
  rcases turn.failure_cases keyed with
    ⟨passes, same⟩ | ⟨j, stored, m, i, since, team, same, own, -, counts⟩
  · -- It has passed over the job, which then is not pending.
    refine ⟨Tables.Tallied.uncounted ?_ positive ofJobs same kept, remaining.uncounted same kept⟩
    refine tallied.congr (fun id counted => ?_) fun j hj pending => ?_
    · by_cases own : id = l.id
      · exact own ▸ fits.known l missed
      · rw [Function.update_of_ne own] at counted
        exact tallied.known id counted
    · refine Function.update_of_ne (fun own => ?_) _ _
      have found := (find?_key_eq_some keyed).mpr ⟨hj, own⟩
      exact absurd (fits.due l missed j hj own pending).1 (not_le.mpr (passes j found pending))
  · cases same
    have lt : k stored.id < maxRetries := (tallied.jobs stored counts.stored counts.pending).lt
      (fits.due l missed stored counts.stored own counts.pending).2
    rw [← own]
    refine ⟨tallied.counted lt counts kept, remaining.counted counts (fun o ho same => ?_) kept⟩
    exact once (List.mem_map.mpr ⟨o, ho, same.trans own⟩)

end Run

namespace Sweeping

variable {pass : Option Pass}

/-- **When retry sweeps do not overlap, every failed attempt counts.** -/
theorem tallied (h : Sweeping maxRetries past e pass) (positive : 1 ≤ maxRetries) :
    e.store.tables.Tallied maxRetries (Run.recorded past) ∧
      ∀ p, pass = some p → p.Fits maxRetries e.store.tables := by
  induction h with
  | start empty _ _ =>
    rw [empty]
    exact ⟨⟨fun id h => absurd rfl h, fun _ h => absurd h List.not_mem_nil⟩,
      fun _ h => by cases h⟩
  | @call past e pass op before admissible none ih =>
    obtain ⟨same, kept⟩ := before.run.uncounted admissible none
    have ofJobs := (before.run.noticesOnce before.allows).known
    rw [Run.recorded_of_none none]
    exact ⟨ih.1.uncounted positive ofJobs same kept, fun p on => (ih.2 p on).uncounted same kept⟩
  | list _ _ before ih =>
    refine ⟨ih.1, fun p on => ?_⟩
    obtain rfl := Option.some.inj on
    exact .listed before.run.ready.keyed.jobs
  | @attempt past e now staleBefore j left before ih =>
    have admissible : (Operation.autoAssign j.id now).IsAdmissible := trivial
    obtain ⟨same, kept⟩ := before.run.uncounted admissible rfl
    have ofJobs := (before.run.noticesOnce before.allows).known
    rw [Run.recorded_of_none rfl]
    refine ⟨ih.1.uncounted positive ofJobs same kept, fun p on => ?_⟩
    obtain rfl := Option.some.inj on
    refine ((ih.2 _ rfl).uncounted same kept).sublist ?_ ?_
    · unfold Pass.tried
      split
      · exact List.sublist_cons_self j left
      · exact .refl _
    · unfold Pass.tried
      split <;> rfl
  | record before ih =>
    have ofJobs := (before.run.noticesOnce before.allows).known
    obtain ⟨tallied, fits⟩ := before.run.record positive ofJobs ih.1 (ih.2 _ rfl)
    rw [Run.recorded_of_some rfl]
    refine ⟨tallied, fun p on => ?_⟩
    obtain rfl := Option.some.inj on
    exact fits
  | finish _ ih => exact ⟨ih.1, fun _ h => by cases h⟩

end Sweeping

/-- **Retries are bounded, and a job is escalated once.** In whatever order attempts are counted,
the count stays within the number of retries, a fallback is requested and the job is escalated once
at most, and the instants at which that was done stay as they are while the job is pending. When
retry sweeps do not overlap, a job that is still pending has the count `k` after `k` failed
attempts; of each was told that it failed, the fallback was requested with the first and the job
escalated with the last one; and from then on the job is not listed. -/
theorem retries_bounded (positive : 1 ≤ maxRetries) (run : Run past e)
    (allows : Run.Allows maxRetries past) (hj : j ∈ e.store.tables.jobs) :
    (j.retryCount ≤ maxRetries ∧ ∀ n : Notice, e.store.tables.timesTold n j.id ≤ 1 ∧
      ∀ e₀ op, (e₀, op) ∈ past → ∀ j₀ ∈ e₀.store.tables.jobs, j₀.id = j.id → j.isPending = true →
        ∀ i, n.stamp j₀ = some i → n.stamp j = some i) ∧
    ∀ pass, Sweeping maxRetries past e pass →
      (j.isPending = true → e.store.tables.Tally maxRetries (Run.recorded past j.id) j) ∧
      (maxRetries ≤ Run.recorded past j.id →
        ∀ now staleBefore, j ∉ e.store.tables.jobsDue now staleBefore maxRetries) := by
  refine ⟨⟨(run.noticesOnce allows).count j hj, fun n => ⟨(run.noticesOnce allows).once n j.id,
    fun e₀ op made j₀ hj₀ same => (run.becomes_of_id made hj₀ hj same).stamp n⟩⟩, ?_⟩
  intro pass sweeping
  obtain ⟨tallied, -⟩ := sweeping.tallied positive
  refine ⟨tallied.jobs j hj, fun all now staleBefore listed => ?_⟩
  obtain ⟨-, pending, -, left⟩ := Tables.of_mem_jobsDue listed
  exact absurd ((tallied.jobs j hj pending).lt left) (not_lt.mpr all)

namespace Sample

/-- Two retries, of jobs that have not changed for five minutes. -/
def twoRetries : SweepConfig := { maxRetries := 2, staleAfter := 5 }

end Sample

/-- A job that nobody can go to, and two retry sweeps: the job is escalated after the second one. -/
theorem retries_bounded_twoSweeps : ∃ past e, Sweeping 2 past e none ∧
    ∃ j ∈ e.store.tables.jobs, j.isPending = true ∧ j.retryCount = 2 ∧
      (∀ n : Notice, e.store.tables.timesTold n j.id ≤ 1) ∧
      e.store.tables.retriesOf j.id = [.matchRetryFailed j.id 1, .fallbackRequested j.id none,
        .matchRetryFailed j.id 2, .jobEscalated j.id 2 none] ∧
      ∀ now staleBefore, j ∉ e.store.tables.jobsDue now staleBefore 2 := by
  have booked : Sweeping 2 _ _ none :=
    .call (.createJob (Sample.job 9)) (.start (e := Sample.engine) rfl rfl fun _ _ _ => rfl)
      trivial rfl
  have twice := (booked.sweep Sample.twoRetries (6 * Instant.minute) rfl).sweep Sample.twoRetries
    (12 * Instant.minute) rfl
  obtain ⟨past, e, sweeping, recorded, j, hj, own, pending, team⟩ : ∃ past e,
      Sweeping 2 past e none ∧ Run.recorded past (idText "job" 0) = 2 ∧
      ∃ j ∈ e.store.tables.jobs, j.id = idText "job" 0 ∧ j.isPending = true ∧
        j.fallbackTeam = none := by
    refine ⟨_, _, twice, ?_, ?_⟩
    · decide +kernel
    · decide +kernel
  rw [← own] at recorded
  obtain ⟨⟨-, once⟩, figures⟩ := retries_bounded (by decide) sweeping.run sweeping.allows hj
  obtain ⟨tally, done⟩ := figures none sweeping
  have told := (tally pending).told
  rw [recorded, team] at told
  exact ⟨past, e, sweeping, j, hj, pending, recorded ▸ (tally pending).count,
    fun n => (once n).1, told, done recorded.ge⟩

end Staffing
