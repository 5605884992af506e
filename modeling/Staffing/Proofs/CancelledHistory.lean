import Staffing.Proofs.AllOrNothing
import Staffing.Proofs.DoubleBooking

/-!
# What cancelling a job does to the past

Cancelling a job is there to end what is still to come of it: assignments that occupy the calendar
of a provider. Which assignments it ends is asked of a query for those that have not been cancelled,
and this one also finds those that are completed. A job with a completed assignment is therefore
cancelled together with its past, and the provider may no longer count as one who has served the
client.

* `Tables.assignments_cancelled` — all assignments of the job are cancelled, also completed ones
* `Tables.servedClient_cancelled` — who still counts as having served a client
* `Tables.KeepsHistory` — nothing is ended but what is still to come
* `cancelling_keeps_history_iff` — when the past is kept
* `not_cancelling_keeps_history` — a completed assignment is lost
-/

namespace Staffing

variable {t t' : Tables} {e : Engine} {j : Job} {a : Assignment} {actor : Actor}
  {jobId providerId client : String} {now : Instant} {days : Int}

/-! ## The tables -/

namespace Tables

/-- Just the assignments of the job are cancelled, all of them. -/
theorem assignments_cancelled (nodup : (t.assignments.map (·.id)).Nodup) :
    (t.cancelled jobId now).assignments = t.assignments.map fun a =>
      if a.jobId = jobId then { a with status := .cancelled } else a := by
  rw [cancelled_eq]
  refine List.map_congr_left fun a ha => ?_
  by_cases own : a.jobId = jobId
  · rw [if_pos own]
    by_cases live : a.isLive = true
    · rw [if_pos (any_key.mpr ⟨a, mem_assignmentsFor.mpr ⟨ha, own, live⟩, rfl⟩)]
    · have ended : a.status = .cancelled := by simpa [Assignment.isLive] using live
      have same : ({ a with status := .cancelled } : Assignment) = a := by rw [← ended]
      rw [same, ite_self]
  · rw [if_neg own, if_neg]
    intro hit
    obtain ⟨b, hb, same⟩ := any_key.mp hit
    obtain ⟨hb, ofJob, -⟩ := mem_assignmentsFor.mp hb
    obtain rfl := List.inj_on_of_nodup_map nodup hb ha same
    exact own ofJob

/-- The assignment is a completed one of the provider, on a job of the client. -/
structure Serves (t : Tables) (providerId client : String) (a : Assignment) : Prop where
  provider : a.providerId = providerId
  completed : a.status = .completed
  client : ∃ k ∈ t.jobs, k.id = a.jobId ∧ k.clientId = client

theorem servedClient_iff : (t.history providerId (some client) now days).servedClient = true ↔
    ∃ a ∈ t.assignments, t.Serves providerId client a := by
  unfold history
  simp only [Option.any_some, List.any_eq_true, List.mem_filter, Bool.and_eq_true, beq_iff_eq,
    decide_eq_true_iff]
  constructor
  · rintro ⟨a, ⟨ha, provider⟩, completed, ofClient⟩
    exact ⟨a, ha, provider, completed, ofClient⟩
  · rintro ⟨a, ha, provider, completed, ofClient⟩
    exact ⟨a, ⟨ha, provider⟩, completed, ofClient⟩

/-- Without a client there is none to have been served. -/
theorem servedClient_none : (t.history providerId none now days).servedClient = false := rfl

/-- Cancelling a job leaves the clients of all jobs as they are. -/
theorem serves_cancelled : (t.cancelled jobId now).Serves providerId client a ↔
    t.Serves providerId client a := by
  have clients : (t.cancelled jobId now).jobs.map (fun k => (k.id, k.clientId))
      = t.jobs.map fun k => (k.id, k.clientId) := by
    rw [cancelled_eq]
    show (updateWhere (·.id == jobId) _ t.jobs).map _ = _
    refine map_updateWhere (fun k => ?_) t.jobs
    rfl
  have ofClient (t : Tables) : (∃ k ∈ t.jobs, k.id = a.jobId ∧ k.clientId = client) ↔
      (a.jobId, client) ∈ t.jobs.map fun k => (k.id, k.clientId) := by
    simp only [List.mem_map, Prod.mk.injEq]
  constructor
  · rintro ⟨provider, completed, ofClient'⟩
    exact ⟨provider, completed, (ofClient t).mpr (clients ▸ (ofClient _).mp ofClient')⟩
  · rintro ⟨provider, completed, ofClient'⟩
    exact ⟨provider, completed, (ofClient _).mpr (clients ▸ (ofClient t).mp ofClient')⟩

/-- After a cancellation a provider has served a client if a completed assignment on another job
says so. -/
theorem servedClient_cancelled (nodup : (t.assignments.map (·.id)).Nodup) {now' : Instant} :
    ((t.cancelled jobId now').history providerId (some client) now days).servedClient = true ↔
      ∃ a ∈ t.assignments, a.jobId ≠ jobId ∧ t.Serves providerId client a := by
  rw [servedClient_iff, assignments_cancelled nodup]
  simp only [serves_cancelled]
  constructor
  · rintro ⟨b, hb, serves⟩
    obtain ⟨a, ha, rfl⟩ := List.mem_map.mp hb
    split at serves
    · cases serves.completed
    · next other => exact ⟨a, ha, other, serves⟩
  · rintro ⟨a, ha, other, serves⟩
    exact ⟨a, List.mem_map.mpr ⟨a, ha, if_neg other⟩, serves⟩

/-- From `t` to `t'` the assignments that occupied providers for the job were cancelled, and nothing
of the past was lost: other assignments are as they were, and so are locks, slots and plans. Who had
served a client has done so still. -/
structure KeepsHistory (t t' : Tables) (jobId : String) : Prop where
  assignments : t'.assignments = t.assignments.map fun a =>
    if a.jobId = jobId ∧ a.status.isBlocking = true then { a with status := .cancelled } else a
  locks : t'.locks = t.locks
  slots : t'.slots = t.slots
  plans : t'.plans = t.plans
  served : ∀ (providerId : String) (client : Option String) (now : Instant) (days : Int),
    (t.history providerId client now days).servedClient = true →
      (t'.history providerId client now days).servedClient = true

/-- The past is kept if and only if none of the job's assignments is completed. -/
theorem keepsHistory_cancelled_iff (nodup : (t.assignments.map (·.id)).Nodup) :
    t.KeepsHistory (t.cancelled jobId now) jobId ↔
      ∀ a ∈ t.assignments, a.jobId = jobId → a.status ≠ .completed := by
  constructor
  · intro keeps a ha own completed
    have same := keeps.assignments
    rw [assignments_cancelled nodup, List.map_inj_left] at same
    have asBefore := same a ha
    rw [if_pos own, if_neg fun h => by rw [completed] at h; cases h.2] at asBefore
    rw [← asBefore] at completed
    cases completed
  · intro notDone
    refine ⟨?_, ?_, ?_, ?_, fun providerId client now' days served => ?_⟩
    · rw [assignments_cancelled nodup]
      refine List.map_congr_left fun a ha => ?_
      by_cases own : a.jobId = jobId
      · have notCompleted := notDone a ha own
        cases status : a.status with
        | completed => exact absurd status notCompleted
        | cancelled =>
          rw [if_pos own, if_neg fun h => Bool.false_ne_true h.2, ← status]
        | _ => rw [if_pos own, if_pos ⟨own, rfl⟩]
      · rw [if_neg own, if_neg fun h => own h.1]
    · rw [cancelled_eq]; rfl
    · rw [cancelled_eq]; rfl
    · rw [cancelled_eq]; rfl
    · cases client with
      | none => rwa [servedClient_none] at served ⊢
      | some client =>
        obtain ⟨a, ha, serves⟩ := servedClient_iff.mp served
        exact (servedClient_cancelled nodup).mpr
          ⟨a, ha, fun own => notDone a ha own serves.completed, serves⟩

end Tables

/-! ## The whole -/

/-- **Cancelling keeps the past of jobs without completed assignments.** An operational actor can
cancel every stored job, whatever the statuses are. Locks, slots and plans stay as they are, and so
do the assignments of other jobs. The past is kept if and only if the job has no completed
assignment, since all its assignments are cancelled. So a provider who had served a client has done
so still if and only if a completed assignment on another job says so. -/
theorem cancelling_keeps_history_iff (unique : (e.store.tables.assignments.map (·.id)).Nodup)
    (may : actor.isOperational = true) (found : e.store.tables.job? jobId = some j) :
    ∃ j' e', Engine.cancelJob actor jobId e = .ok j' e' ∧
      (e.store.tables.KeepsHistory e'.store.tables jobId ↔
        ∀ a ∈ e.store.tables.assignments, a.jobId = jobId → a.status ≠ .completed) ∧
      e'.store.tables.assignments = (e.store.tables.assignments.map fun a =>
        if a.jobId = jobId then { a with status := .cancelled } else a) ∧
      e'.store.tables.locks = e.store.tables.locks ∧
      e'.store.tables.slots = e.store.tables.slots ∧
      e'.store.tables.plans = e.store.tables.plans ∧
      ∀ (providerId client : String) (now : Instant) (days : Int),
        (e'.store.tables.history providerId (some client) now days).servedClient = true ↔
          ∃ a ∈ e.store.tables.assignments, a.jobId ≠ jobId ∧
            e.store.tables.Serves providerId client a := by
  refine ⟨_, _, Engine.cancelJob_apply may found, Tables.keepsHistory_cancelled_iff unique,
    Tables.assignments_cancelled unique, ?_, ?_, ?_,
    fun _ _ _ _ => Tables.servedClient_cancelled unique⟩
  · show (e.store.tables.cancelled jobId e.now).locks = _
    rw [Tables.cancelled_eq]
    rfl
  · show (e.store.tables.cancelled jobId e.now).slots = _
    rw [Tables.cancelled_eq]
    rfl
  · show (e.store.tables.cancelled jobId e.now).plans = _
    rw [Tables.cancelled_eq]
    rfl

/-- Of two jobs that the same provider has been sent to the first is done. -/
def Sample.firstDone : Engine :=
  let e := Operation.afterAll twoInARow engine
  { e with store :=
    { e.store with tables := e.store.tables.setAssignmentStatus (idText "asg" 2) .completed } }

/-- The second one can be cancelled, and what the provider has done for the client stays known. -/
theorem cancelling_keeps_history_iff_firstDone :
    (Sample.firstDone.store.tables.job? (idText "job" 1)).isSome = true ∧
    ∃ j' e', Engine.cancelJob Sample.admin (idText "job" 1) Sample.firstDone = .ok j' e' ∧
      Sample.firstDone.store.tables.KeepsHistory e'.store.tables (idText "job" 1) ∧
      e'.store.tables.assignments.map (·.status) = [.completed, .cancelled] := by
  have known : (Sample.firstDone.store.tables.job? (idText "job" 1)).isSome = true := by
    decide +kernel
  have may : Sample.admin.isOperational = true := by decide
  obtain ⟨j, found⟩ := Option.isSome_iff_exists.mp known
  obtain ⟨j', e', cancels, keeps_iff, assignments, -⟩ :=
    cancelling_keeps_history_iff (by decide +kernel) may found
  refine ⟨known, j', e', cancels, keeps_iff.mpr (by decide +kernel), ?_⟩
  rw [assignments]
  decide +kernel

/-- When the first one is cancelled instead, its completed assignment is lost, and the provider has
never served the client. -/
theorem not_cancelling_keeps_history : ¬ ∀ (e : Engine) (actor : Actor) (jobId : String) (j : Job),
    (e.store.tables.assignments.map (·.id)).Nodup → actor.isOperational = true →
    e.store.tables.job? jobId = some j →
    ∃ j' e', Engine.cancelJob actor jobId e = .ok j' e' ∧
      e.store.tables.KeepsHistory e'.store.tables jobId := by
  intro always
  obtain ⟨j, found⟩ : ∃ j, Sample.firstDone.store.tables.job? (idText "job" 0) = some j :=
    Option.isSome_iff_exists.mp (by decide +kernel)
  have may : Sample.admin.isOperational = true := by decide
  obtain ⟨j', e', cancels, keeps⟩ :=
    always Sample.firstDone Sample.admin (idText "job" 0) j (by decide +kernel) may found
  have served := keeps.served "ada" (some "client") 0 30 (by decide +kernel)
  cases (Engine.cancelJob_apply may found).symm.trans cancels
  revert served
  decide +kernel

end Staffing
