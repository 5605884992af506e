import Staffing.Proofs.Exclusion
import Staffing.Proofs.Headroom

/-!
# A provider is held by one lock at a time

From the last instant of a run on, if its clock does not go back, locks that hold the same provider
are for jobs whose windows do not overlap. A job overlaps itself, so it has one such lock at most.

* `Window.overlaps_self` — a window that holds an instant overlaps itself
* `held_by_one_lock` — it holds after every run
-/

namespace Staffing

theorem Window.overlaps_self {w : Window} (h : w.start < w.stop) : w.overlaps w = true := by
  unfold overlaps
  rw [decide_eq_true h, Bool.and_self]

/-- **A provider is held by one lock at a time.** Take a run whose clock does not go back, and an
instant from its last operation on. Two locks that hold the same provider then, live and in whole
seconds not past their expiry, are for two jobs, and the windows of these do not overlap.

Confirming is an operation as any other: a lock that has lapsed stays so when it is confirmed,
whoever holds the provider by then. -/
theorem held_by_one_lock {past : List (Engine × Operation)} {e : Engine} (run : Run past e)
    (timely : Run.IsTimely past) {t : Instant} (upTo : ∀ i ∈ Run.instants past, i ≤ t)
    {k l : Lock} (hk : k ∈ e.store.tables.locks) (hl : l ∈ e.store.tables.locks) (differ : k ≠ l)
    {providerId : String} (holds : k.Holds providerId t) (holds' : l.Holds providerId t) :
    k.jobId ≠ l.jobId ∧ ∃ i j, e.store.tables.job? k.jobId = some i ∧
      e.store.tables.job? l.jobId = some j ∧ i.window.overlaps j.window = false := by
  have exclusive : e.store.tables.Exclusive t := run.exclusive timely t upTo
  have : Std.Symm (e.store.tables.Excludes t) := ⟨fun _ _ => Tables.Excludes.symm⟩
  have excludes := exclusive.apart.forall hk hl differ
  -- Both locks are for stored jobs, which stand in whole seconds.
  obtain ⟨i, hi, ofK⟩ := any_key.mp (exclusive.known k hk)
  obtain ⟨j, hj, ofL⟩ := any_key.mp (exclusive.known l hl)
  obtain ⟨lasts, wholeI⟩ := run.orderly.jobs i hi
  have wholeJ := (run.orderly.jobs j hj).2
  have apart : i.window.overlaps j.window = false := by
    rw [Bool.eq_false_iff]
    intro overlaps
    refine excludes providerId holds holds' j hj ofL ⟨i, hi, ofK, ?_⟩
    rw [wholeI, wholeJ]
    exact overlaps
  have found {m : Job} {id : String} (hm : m ∈ e.store.tables.jobs) (same : m.id = id) :
      e.store.tables.job? id = some m := (find?_key_eq_some run.ready.keyed.jobs).mpr ⟨hm, same⟩
  refine ⟨fun sameJob => ?_, i, j, found hi ofK, found hj ofL, apart⟩
  obtain rfl : i = j := List.inj_on_of_nodup_map run.ready.keyed.jobs hi hj
    (ofK.trans (sameJob.trans ofL.symm))
  rw [Window.overlaps_self lasts] at apart
  cases apart

/-- A provider is locked for a job, and after that lock has lapsed for another job at the same time
and for a third one afterwards. The lapsed lock is confirmed last. -/
def Sample.lapsedConfirmed : List Operation := [
  .insertProvider (provider "ada"), .createJob (job 9), .createJob (job 9), .createJob (job 11),
  .createLocks admin (idText "job" 0) ⟨.providers ["ada"], none⟩,
  .serve { engine with now := 20 * Instant.minute },
  .createLocks admin (idText "job" 1) ⟨.providers ["ada"], none⟩,
  .createLocks admin (idText "job" 2) ⟨.providers ["ada"], none⟩,
  .confirmLocks admin (idText "job" 0) none]

/-- The lapsed lock is confirmed and holds nobody; the others hold the provider at different
times. -/
theorem held_by_one_lock_lapsedConfirmed : ∃ past e, Run past e ∧ Run.IsTimely past ∧
    (∃ m ∈ e.store.tables.locks, m.jobId = idText "job" 0 ∧ m.status = .confirmed ∧
      ¬ m.Holds "ada" (20 * Instant.minute)) ∧
    ∃ k ∈ e.store.tables.locks, ∃ l ∈ e.store.tables.locks, k ≠ l ∧
      k.Holds "ada" (20 * Instant.minute) ∧ l.Holds "ada" (20 * Instant.minute) ∧
      k.jobId ≠ l.jobId ∧ ∃ i j, e.store.tables.job? k.jobId = some i ∧
        e.store.tables.job? l.jobId = some j ∧ i.window.overlaps j.window = false := by
  obtain ⟨past, trace⟩ : ∃ past, past = Operation.trace Sample.lapsedConfirmed Sample.engine :=
    ⟨_, rfl⟩
  obtain ⟨e, left⟩ : ∃ e, e = Operation.afterAll Sample.lapsedConfirmed Sample.engine := ⟨_, rfl⟩
  have run : Run past e := trace ▸ left ▸ Run.of_operations rfl rfl (fun _ _ _ => rfl) (by
    simp only [Sample.lapsedConfirmed, List.forall_mem_cons, Operation.IsAdmissible]
    exact ⟨trivial, trivial, trivial, trivial, trivial, fun _ _ _ => rfl, trivial, trivial, trivial,
      fun _ h => absurd h List.not_mem_nil⟩)
  obtain ⟨timely, upTo⟩ : Run.IsTimely past ∧ ∀ i ∈ Run.instants past, i ≤ 20 * Instant.minute := by
    rw [trace]
    decide +kernel
  obtain ⟨lapsed, k, hk, l, hl, differ, holds, holds'⟩ :
      (∃ m ∈ e.store.tables.locks, m.jobId = idText "job" 0 ∧ m.status = .confirmed ∧
        ¬ m.Holds "ada" (20 * Instant.minute)) ∧
      ∃ k ∈ e.store.tables.locks, ∃ l ∈ e.store.tables.locks, k ≠ l ∧
        k.Holds "ada" (20 * Instant.minute) ∧ l.Holds "ada" (20 * Instant.minute) := by
    rw [left]
    decide +kernel
  exact ⟨past, e, run, timely, lapsed, k, hk, l, hl, differ, holds, holds',
    held_by_one_lock run timely upTo hk hl differ holds holds'⟩

end Staffing
