import Staffing.Proofs.Failures

/-!
# The tally of failed attempts

A pending job that has had `k` failed attempts, none of which was passed over, has the count `k`,
and of it was told one story: that each attempt failed, with the first that a fallback is requested,
and with the last that the job is escalated.

* `Sweep.story` — what is told of a job over its failed attempts
* `Tables.Tally` — a job has had `k` failed attempts
* `Tables.Tally.counted` — one more is one more in the tally
* `Tables.Tallied` — every pending job has its tally
-/

namespace Staffing

variable {now : Instant} {t t' : Tables} {j : Job} {maxRetries k : Nat} {team : Option String}

/-! ## Stories -/

namespace Sweep

/-- What is told of the `i`-th failed attempt, counted from 1. -/
def failure (jobId : String) (team : Option String) (maxRetries i : Nat) : List Event :=
  [.matchRetryFailed jobId i]
    ++ (if i = 1 then [.fallbackRequested jobId team] else [])
    ++ (if i = maxRetries then [.jobEscalated jobId i team] else [])

/-- What is told of the first `k` failed attempts. -/
def story (jobId : String) (team : Option String) (maxRetries k : Nat) : List Event :=
  (List.range k).flatMap fun i => failure jobId team maxRetries (i + 1)

theorem story_succ (jobId : String) (team : Option String) (maxRetries k : Nat) :
    story jobId team maxRetries (k + 1)
      = story jobId team maxRetries k ++ failure jobId team maxRetries (k + 1) := by
  unfold story
  rw [List.range_succ, List.flatMap_append, List.flatMap_singleton]

end Sweep

namespace Tables

/-- What has been told of the failed attempts at matching a job, oldest first. -/
def retriesOf (t : Tables) (jobId : String) : List Event := t.retries.filter (·.jobId == jobId)

/-- The job has had `k` failed attempts: they are counted, within the number of retries, and told
of; the fallback was requested with the first, and the job escalated with the last. -/
structure Tally (t : Tables) (maxRetries k : Nat) (j : Job) : Prop where
  count : j.retryCount = k
  atMost : k ≤ maxRetries
  requested : j.fallbackRequestedAt.isSome ↔ 1 ≤ k
  escalated : j.fallbackEscalatedAt.isSome ↔ k = maxRetries
  told : t.retriesOf j.id = Sweep.story j.id j.fallbackTeam maxRetries k

/-- The tally of a job is in the job and in what was told of it. -/
theorem Tally.congr (h : t.Tally maxRetries k j) (same : t'.retriesOf j.id = t.retriesOf j.id) :
    t'.Tally maxRetries k j :=
  { h with told := same.trans h.told }

/-- A job with an attempt or the escalation left has not had all attempts. -/
theorem Tally.lt (h : t.Tally maxRetries k j)
    (due : j.retryCount < maxRetries ∨ j.fallbackEscalatedAt = none) : k < maxRetries := by
  rcases due with attempt | escalation
  · exact h.count ▸ attempt
  · refine lt_of_le_of_ne h.atMost fun last => ?_
    have set := h.escalated.mpr last
    rw [escalation] at set
    cases set

/-- The count after one more failed attempt. -/
theorem Tally.next (h : t.Tally maxRetries k j) (left : k < maxRetries) :
    min (j.retryCount + 1) maxRetries = k + 1 := by
  rw [h.count]
  exact Nat.min_eq_left left

theorem Tally.unescalated (h : t.Tally maxRetries k j) (left : k < maxRetries) :
    j.fallbackEscalatedAt = none := by
  rw [← Option.not_isSome_iff_eq_none, h.escalated]
  exact left.ne

/-- The next failed attempt is the one to escalate after if it is the last. -/
theorem Tally.escalates (h : t.Tally maxRetries k j) (left : k < maxRetries) :
    (decide (maxRetries ≤ min (j.retryCount + 1) maxRetries) && j.fallbackEscalatedAt.isNone) = true
      ↔ k + 1 = maxRetries := by
  rw [h.next left, h.unescalated left, Option.isNone_none, Bool.and_true, decide_eq_true_iff]
  omega

/-- What is told of a failed attempt is the next part of the story. -/
theorem Tally.afterFailure (h : t.Tally maxRetries k j) (left : k < maxRetries) :
    (Sweep.afterFailure j maxRetries team now).2
      = Sweep.failure j.id (j.counted maxRetries team now).fallbackTeam maxRetries (k + 1) := by
  have first : j.fallbackRequestedAt.isNone = true ↔ k + 1 = 1 := by
    rw [Option.isNone_iff_eq_none, ← Option.not_isSome_iff_eq_none, h.requested]
    omega
  show [_] ++ ite _ _ _ ++ ite _ _ _ = [_] ++ ite _ _ _ ++ ite _ _ _
  rw [if_congr first rfl rfl, if_congr (h.escalates left) rfl rfl, h.next left]
  rfl

/-- A story that has begun keeps its team. -/
theorem Tally.story_counted (h : t.Tally maxRetries k j) :
    Sweep.story j.id (j.counted maxRetries team now).fallbackTeam maxRetries k
      = Sweep.story j.id j.fallbackTeam maxRetries k := by
  cases k with
  | zero => rfl
  | succ k =>
    obtain ⟨i, requested⟩ := Option.isSome_iff_exists.mp (h.requested.mpr (Nat.le_add_left _ _))
    show Sweep.story j.id (if j.fallbackRequestedAt.isNone then team else j.fallbackTeam) _ _ = _
    rw [requested]
    rfl

/-- **One more failed attempt is one more in the tally.** -/
theorem Tally.counted (h : t.Tally maxRetries k j) (left : k < maxRetries)
    (counts : t.Counted t' j maxRetries team now) :
    t'.Tally maxRetries (k + 1) (j.counted maxRetries team now) := by
  constructor
  case count => exact h.next left
  case atMost => exact left
  case requested =>
    refine iff_of_true ?_ (Nat.le_add_left _ _)
    show (Option.map _ (ite _ _ _)).isSome = true
    cases j.fallbackRequestedAt <;> rfl
  case escalated =>
    show (Option.map _ (ite _ _ _)).isSome = true ↔ _
    rw [Option.isSome_map]
    by_cases last : k + 1 = maxRetries
    · rw [if_pos ((h.escalates left).mpr last)]
      exact iff_of_true rfl last
    · rw [if_neg fun hit => last ((h.escalates left).mp hit), h.unescalated left]
      exact iff_of_false Bool.false_ne_true last
  case told =>
    have own : (Sweep.afterFailure j maxRetries team now).2.filter (·.jobId == j.id)
        = (Sweep.afterFailure j maxRetries team now).2 :=
      List.filter_eq_self.mpr fun event mem => beq_iff_eq.mpr (Sweep.afterFailure_jobId event mem)
    have told : t.retries.filter (·.jobId == j.id) = _ := h.told
    show t'.retries.filter (·.jobId == j.id)
      = Sweep.story j.id (j.counted maxRetries team now).fallbackTeam maxRetries (k + 1)
    rw [counts.retries, List.filter_append, own, h.afterFailure left, told, Sweep.story_succ,
      h.story_counted]

/-! ## All pending jobs -/

/-- Every pending job has had as many failed attempts as `k` says, and only stored jobs have had
any. -/
structure Tallied (t : Tables) (maxRetries : Nat) (k : String → Nat) : Prop where
  known : ∀ id, k id ≠ 0 → t.hasJob id = true
  jobs : ∀ j ∈ t.jobs, j.isPending = true → t.Tally maxRetries (k j.id) j

/-- A new job has had no failed attempts, if nothing was told of it. -/
theorem Tally.new (new : j.IsNew) (positive : 1 ≤ maxRetries) (silent : t.retriesOf j.id = []) :
    t.Tally maxRetries 0 j where
  count := new.count
  atMost := Nat.zero_le _
  requested := by
    rw [show j.fallbackRequestedAt = none from new.stamps .fallback]
    exact iff_of_false Bool.false_ne_true (by decide)
  escalated := by
    rw [show j.fallbackEscalatedAt = none from new.stamps .escalation]
    exact iff_of_false Bool.false_ne_true (by omega)
  told := silent

namespace Tallied

variable {k k' : String → Nat}

theorem congr (h : t.Tallied maxRetries k) (known : ∀ id, k' id ≠ 0 → t.hasJob id = true)
    (same : ∀ j ∈ t.jobs, j.isPending = true → k' j.id = k j.id) : t.Tallied maxRetries k' where
  known := known
  jobs j hj pending := by
    rw [same j hj pending]
    exact h.jobs j hj pending

theorem uncounted (h : t.Tallied maxRetries k) (positive : 1 ≤ maxRetries)
    (ofJobs : ∀ event ∈ t.retries, t.hasJob event.jobId = true) (same : t.Uncounted t')
    (kept : ∀ id, t.hasJob id = true → t'.hasJob id = true) : t'.Tallied maxRetries k where
  known id counted := kept id (h.known id counted)
  jobs j' hj' pending := by
    have told : t'.retriesOf j'.id = t.retriesOf j'.id := congrArg (List.filter _) same.retries
    rcases same.jobs j' hj' with old | ⟨fresh, new⟩ | ⟨ended, -⟩
    · exact (h.jobs j' old pending).congr told
    · have unknown : ¬ t.hasJob j'.id = true :=
        fun hit => let ⟨j, hj, own⟩ := any_key.mp hit; fresh j hj own
      rw [not_not.mp fun counted => unknown (h.known j'.id counted)]
      refine .new new positive (told.trans (List.filter_eq_nil_iff.mpr fun event mem ofJob => ?_))
      exact unknown (beq_iff_eq.mp ofJob ▸ ofJobs event mem)
    · exact absurd (pending.symm.trans ended) (by decide)

theorem counted (h : t.Tallied maxRetries k) (left : k j.id < maxRetries)
    (counts : t.Counted t' j maxRetries team now)
    (kept : ∀ id, t.hasJob id = true → t'.hasJob id = true) :
    t'.Tallied maxRetries (Function.update k j.id (k j.id + 1)) where
  known id counted := by
    refine kept id ?_
    by_cases own : id = j.id
    · exact any_key.mpr ⟨j, counts.stored, own.symm⟩
    · rw [Function.update_of_ne own] at counted
      exact h.known id counted
  jobs j' hj' pending := by
    rcases counts.jobs j' hj' with rfl | ⟨old, other⟩
    · show t'.Tally _ (Function.update k j.id _ j.id) _
      rw [Function.update_self]
      exact (h.jobs j counts.stored counts.pending).counted left counts
    · rw [Function.update_of_ne other]
      refine (h.jobs j' old pending).congr ?_
      have others :
          (Sweep.afterFailure j maxRetries team now).2.filter (·.jobId == j'.id) = [] := by
        refine List.filter_eq_nil_iff.mpr fun event mem ofJob => ?_
        exact other ((beq_iff_eq.mp ofJob).symm.trans (Sweep.afterFailure_jobId event mem))
      unfold retriesOf
      rw [counts.retries, List.filter_append, others, List.append_nil]

end Tallied

end Tables

end Staffing
