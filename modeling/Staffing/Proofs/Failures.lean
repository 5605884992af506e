import Staffing.Proofs.JobHistory

/-!
# Failed attempts at matching

A failed attempt at matching a job is counted in the job and told of. In whatever order attempts are
counted, the count stays within the number of retries; a fallback is requested once and the job is
escalated once. For the job knows when that was while it is pending, and no attempt is counted for
a job that is not.

* `Notice` — what is told of a job once
* `Job.counted` — a job after one more failed attempt has been counted
* `Turn.failure_cases` — an operation counts one failed attempt for one job, or none
* `Run.noticesOnce` — the bounds, after every run
-/

namespace Staffing

variable {now : Instant} {t t' : Tables} {e e' : Engine} {op : Operation} {j : Job}
  {maxRetries : Nat} {team : Option String} {past : List (Engine × Operation)}

/-- What is told of a job once: that a fallback is requested, and that the job is escalated. -/
inductive Notice where
  | fallback
  | escalation

namespace Notice

/-- Does the event tell that of the job? -/
def tells (jobId : String) : Notice → Event → Bool
  | fallback, .fallbackRequested id _ => id == jobId
  | escalation, .jobEscalated id _ _ => id == jobId
  | _, _ => false

/-- The instant at which it was told, as the job knows it. -/
def stamp (j : Job) : Notice → Option Instant
  | fallback => j.fallbackRequestedAt
  | escalation => j.fallbackEscalatedAt

theorem tells_jobId {n : Notice} {jobId : String} {event : Event}
    (told : n.tells jobId event = true) : event.jobId = jobId := by
  unfold tells at told
  split at told
  · exact beq_iff_eq.mp told
  · exact beq_iff_eq.mp told
  · cases told

end Notice

/-- A stamp of a pending job stays as it is. -/
theorem Job.Becomes.stamp {j j' : Job} (h : j.Becomes j') (n : Notice)
    (pending : j'.isPending = true) (i : Instant) (set : n.stamp j = some i) :
    n.stamp j' = some i := by
  cases n with
  | fallback => exact h.requested pending i set
  | escalation => exact h.escalated pending i set

namespace Job

/-- The stored job after one more failed attempt has been counted. -/
def counted (j : Job) (maxRetries : Nat) (team : Option String) (now : Instant) : Job :=
  let noted := (Sweep.afterFailure j maxRetries team now).1
  { j with
    retryCount := noted.retryCount
    fallbackTeam := noted.fallbackTeam
    fallbackRequestedAt := noted.fallbackRequestedAt.map Instant.wholeSecond
    fallbackEscalatedAt := noted.fallbackEscalatedAt.map Instant.wholeSecond
    updatedAt := now.wholeSecond }

/-- Nothing has been counted for the job or told of it. -/
structure IsNew (j : Job) : Prop where
  count : j.retryCount = 0
  stamps : ∀ n : Notice, n.stamp j = none

/-- A stamp that is set stays set. -/
theorem stamp_of_counted {n : Notice} (unset : n.stamp (j.counted maxRetries team now) = none) :
    n.stamp j = none := by
  cases n with
  | fallback =>
    cases requested : j.fallbackRequestedAt with
    | none => exact requested
    | some i => simp [Notice.stamp, counted, Sweep.afterFailure, requested] at unset
  | escalation =>
    cases escalated : j.fallbackEscalatedAt with
    | none => exact escalated
    | some i => simp [Notice.stamp, counted, Sweep.afterFailure, escalated] at unset

end Job

namespace Sweep

/-- All that is told of a failed attempt is told of its job. -/
theorem afterFailure_jobId : ∀ event ∈ (afterFailure j maxRetries team now).2,
    event.jobId = j.id := by
  intro event told
  unfold afterFailure at told
  simp only [List.mem_append, List.mem_singleton, List.mem_ite_nil_right] at told
  obtain (rfl | ⟨-, rfl⟩) | ⟨-, rfl⟩ := told <;> rfl

/-- **What is told once is told when its stamp is set.** -/
theorem afterFailure_tells (n : Notice) :
    (afterFailure j maxRetries team now).2.countP (n.tells j.id)
      = if n.stamp j = none ∧ n.stamp (j.counted maxRetries team now) ≠ none then 1 else 0 := by
  -- Whether it is told depends on the stamps and, for the escalation, on the attempts left.
  cases requested : j.fallbackRequestedAt <;> cases escalated : j.fallbackEscalatedAt <;>
    by_cases last : maxRetries ≤ min (j.retryCount + 1) maxRetries <;> cases n <;>
    simp [afterFailure, Job.counted, Notice.tells, Notice.stamp, requested, escalated, last]

end Sweep

/-! ## Turns -/

namespace Tables

/-- No failed attempt was counted or told of: jobs are as they were, new, or not pending. -/
structure Uncounted (t t' : Tables) : Prop where
  retries : t'.retries = t.retries
  jobs : ∀ j' ∈ t'.jobs, j' ∈ t.jobs ∨ ((∀ j ∈ t.jobs, j.id ≠ j'.id) ∧ j'.IsNew) ∨
    j'.isPending = false ∧ ∃ j ∈ t.jobs, j'.retryCount ≤ j.retryCount

/-- A failed attempt was counted for the pending job `j`, and told of. -/
structure Counted (t t' : Tables) (j : Job) (maxRetries : Nat) (team : Option String)
    (now : Instant) : Prop where
  stored : j ∈ t.jobs
  pending : j.isPending = true
  retries : t'.retries = t.retries ++ (Sweep.afterFailure j maxRetries team now).2
  jobs : ∀ j' ∈ t'.jobs, j' = j.counted maxRetries team now ∨ j' ∈ t.jobs ∧ j'.id ≠ j.id

/-- An update after which the job is not pending. -/
theorem Uncounted.of_update {id : String} {f : Job → Job} (retries : t'.retries = t.retries)
    (jobs : t'.jobs = updateWhere (·.id == id) f t.jobs)
    (ended : ∀ j, (f j).isPending = false) (count : ∀ j, (f j).retryCount ≤ j.retryCount) :
    t.Uncounted t' where
  retries := retries
  jobs j' hj' := by
    rw [jobs] at hj'
    obtain ⟨j, hj, rfl⟩ := mem_updateWhere.mp hj'
    split
    · exact .inr (.inr ⟨ended j, j, hj, count j⟩)
    · exact .inl hj

end Tables

namespace Turn

/-- **An operation counts one failed attempt for one job, or none.** -/
theorem failure_cases (h : Turn e op e') (keyed : (e.store.tables.jobs.map (·.id)).Nodup) :
    (op.Passes e ∧ e.store.tables.Uncounted e'.store.tables) ∨
      ∃ j stored maxRetries now staleBefore team,
        op = .recordFailure j maxRetries now staleBefore ∧ stored.id = j.id ∧
        stored.updatedAt.wholeSecond ≤ staleBefore.wholeSecond ∧
        e.store.tables.Counted e'.store.tables stored maxRetries team now := by
  cases h with
  | rest passes same =>
    exact .inl ⟨passes, same.retries, fun j hj => .inl (same.jobs ▸ hj)⟩
  | book fresh same =>
    refine .inl ⟨trivial, same.retries, fun j hj => ?_⟩
    rw [same.jobs] at hj
    rcases List.mem_append.mp hj with old | new
    · exact .inl old
    · rw [List.mem_singleton.mp new]
      exact .inr (.inl ⟨fresh, rfl, fun n => by cases n <;> rfl⟩)
  | @cancel actor jobId _ same =>
    have frame := Tables.cancelled_eq jobId e.now e.store.tables
    refine .inl ⟨trivial, .of_update ?_ (same.jobs.trans (congrArg Tables.jobs frame))
      (fun _ => rfl) fun _ => le_refl _⟩
    rw [same.retries, frame]
    rfl
  | @staff _ _ _ _ _ _ _ _ reads _ _ _ _ same =>
    refine .inl ⟨?_, .of_update same.retries same.jobs (fun _ => rfl) fun _ => Nat.zero_le _⟩
    cases op with
    | recordFailure => exact reads.elim
    | _ => trivial
  | @note j stored maxRetries now staleBefore team _ found pending since jobs _ retries =>
    obtain ⟨hstored, own⟩ := mem_of_find?_key found
    refine .inr ⟨j, stored, maxRetries, now, staleBefore, team, rfl, own, since, hstored, pending,
      retries, fun j' hj' => ?_⟩
    rw [jobs] at hj'
    obtain ⟨k, hk, rfl⟩ := mem_updateWhere.mp hj'
    split
    · next hit =>
      obtain rfl := List.inj_on_of_nodup_map keyed hk hstored (beq_iff_eq.mp hit)
      exact .inl rfl
    · next miss => exact .inr ⟨hk, fun same => miss (beq_iff_eq.mpr same)⟩

theorem hasJob (h : Turn e op e') (keyed : (e.store.tables.jobs.map (·.id)).Nodup)
    (whole : ∀ j ∈ e.store.tables.jobs, j.StampsWhole) {id : String}
    (known : e.store.tables.hasJob id = true) : e'.store.tables.hasJob id = true := by
  obtain ⟨j, hj, own⟩ := any_key.mp known
  obtain ⟨j', hj', becomes⟩ := h.becomes keyed whole j hj
  exact any_key.mpr ⟨j', hj', becomes.id.trans own⟩

end Turn

/-! ## Bounds -/

namespace Tables

/-- How often that has been told of the job. -/
def timesTold (t : Tables) (n : Notice) (jobId : String) : Nat := t.retries.countP (n.tells jobId)

/-- What is told is about stored jobs, counts stay within the number of retries, and what is told
once is told once, and not while a pending job has no stamp of it. -/
structure NoticesOnce (t : Tables) (maxRetries : Nat) : Prop where
  known : ∀ event ∈ t.retries, t.hasJob event.jobId = true
  count : ∀ j ∈ t.jobs, j.retryCount ≤ maxRetries
  once : ∀ n jobId, t.timesTold n jobId ≤ 1
  silent : ∀ n : Notice, ∀ j ∈ t.jobs, j.isPending = true → n.stamp j = none →
    t.timesTold n j.id = 0

namespace NoticesOnce

/-- Nothing has been told of a job that is not stored. -/
theorem timesTold_of_unknown (h : t.NoticesOnce maxRetries) (n : Notice) {jobId : String}
    (unknown : ∀ j ∈ t.jobs, j.id ≠ jobId) : t.timesTold n jobId = 0 := by
  refine List.countP_eq_zero.mpr fun event told tells => ?_
  obtain ⟨j, hj, own⟩ := any_key.mp (h.known event told)
  exact unknown j hj (own.trans (Notice.tells_jobId tells))

theorem uncounted (h : t.NoticesOnce maxRetries) (same : t.Uncounted t')
    (kept : ∀ id, t.hasJob id = true → t'.hasJob id = true) : t'.NoticesOnce maxRetries := by
  have times (n : Notice) (jobId : String) : t'.timesTold n jobId = t.timesTold n jobId :=
    congrArg (List.countP _) same.retries
  constructor
  case known => exact fun event told => kept _ (h.known event (same.retries ▸ told))
  case count =>
    intro j' hj'
    rcases same.jobs j' hj' with old | ⟨-, new⟩ | ⟨-, j, hj, le⟩
    · exact h.count j' old
    · exact new.count ▸ Nat.zero_le _
    · exact le.trans (h.count j hj)
  case once => exact fun n jobId => times n jobId ▸ h.once n jobId
  case silent =>
    intro n j' hj' pending unset
    rw [times]
    rcases same.jobs j' hj' with old | ⟨fresh, -⟩ | ⟨ended, -⟩
    · exact h.silent n j' old pending unset
    · exact h.timesTold_of_unknown n fresh
    · exact absurd (pending.symm.trans ended) (by decide)

theorem counted (h : t.NoticesOnce maxRetries) (counts : t.Counted t' j maxRetries team now)
    (kept : ∀ id, t.hasJob id = true → t'.hasJob id = true) : t'.NoticesOnce maxRetries := by
  have told : ∀ event ∈ (Sweep.afterFailure j maxRetries team now).2, event.jobId = j.id :=
    Sweep.afterFailure_jobId
  have times (n : Notice) (jobId : String) : t'.timesTold n jobId = t.timesTold n jobId +
      (Sweep.afterFailure j maxRetries team now).2.countP (n.tells jobId) := by
    unfold timesTold
    rw [counts.retries, List.countP_append]
  have others (n : Notice) {jobId : String} (other : jobId ≠ j.id) :
      t'.timesTold n jobId = t.timesTold n jobId := by
    rw [times, List.countP_eq_zero.mpr, Nat.add_zero]
    exact fun event mem tells => other ((Notice.tells_jobId tells).symm.trans (told event mem))
  have own (n : Notice) := (times n j.id).trans (congrArg _ (Sweep.afterFailure_tells n))
  constructor
  case known =>
    intro event mem
    rw [counts.retries] at mem
    rcases List.mem_append.mp mem with old | new
    · exact kept _ (h.known event old)
    · exact kept _ (any_key.mpr ⟨j, counts.stored, (told event new).symm⟩)
  case count =>
    intro j' hj'
    rcases counts.jobs j' hj' with rfl | ⟨old, -⟩
    · exact Nat.min_le_right _ _
    · exact h.count j' old
  case once =>
    intro n jobId
    by_cases same : jobId = j.id
    · rw [same, own]
      split
      · next hit => rw [h.silent n j counts.stored counts.pending hit.1]
      · exact h.once n j.id
    · exact others n same ▸ h.once n jobId
  case silent =>
    intro n j' hj' pending unset
    rcases counts.jobs j' hj' with rfl | ⟨old, other⟩
    · show t'.timesTold n j.id = 0
      rw [own, if_neg fun hit => hit.2 unset, Nat.add_zero]
      exact h.silent n j counts.stored counts.pending (Job.stamp_of_counted unset)
    · exact (others n other).trans (h.silent n j' old pending unset)

end NoticesOnce

end Tables

/-! ## Runs -/

namespace Run

/-- Whenever a failed attempt was counted, there were so many retries. -/
def Allows (maxRetries : Nat) (past : List (Engine × Operation)) : Prop :=
  ∀ e j m now staleBefore, (e, .recordFailure j m now staleBefore) ∈ past → m = maxRetries

/-- **Counts stay within the number of retries, and what is told once is told once,** in whatever
order attempts are counted. -/
theorem noticesOnce (run : Run past e) (allows : Allows maxRetries past) :
    e.store.tables.NoticesOnce maxRetries := by
  refine run.turns
    (P := fun past e => Allows maxRetries past → e.store.tables.NoticesOnce maxRetries) ?_ ?_ allows
  · intro e empty _
    rw [empty]
    exact ⟨fun _ h => absurd h List.not_mem_nil, fun _ h => absurd h List.not_mem_nil,
      fun _ _ => Nat.zero_le _, fun _ _ h => absurd h List.not_mem_nil⟩
  · intro past e op e' run ih _ turn _ allows
    have before : e.store.tables.NoticesOnce maxRetries :=
      ih fun e j m now staleBefore made =>
        allows e j m now staleBefore (List.mem_append_left _ made)
    have kept : ∀ id, e.store.tables.hasJob id = true → e'.store.tables.hasJob id = true :=
      fun _ => turn.hasJob run.ready.keyed.jobs run.stampsWhole
    rcases turn.failure_cases run.ready.keyed.jobs with
      ⟨-, same⟩ | ⟨j, stored, m, now, staleBefore, team, rfl, -, -, counts⟩
    · exact before.uncounted same kept
    · obtain rfl := allows e j m now staleBefore
        (List.mem_append_right _ (List.mem_singleton_self _))
      exact before.counted counts kept

end Run

end Staffing
