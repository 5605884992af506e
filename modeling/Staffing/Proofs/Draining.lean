import Staffing.Proofs.Releases

/-!
# Overdue locks are drained in order

Overdue locks wait for their release, the earliest expiry first, and of those that expire together
the one that came first. The expiry sweep takes a batch from the front of this queue and releases
each of them in a transaction of its own. None of these fails or finds its lock gone, so a sweep
drains just its batch, and the next one goes on where it stopped.

* `Tables.IsQueue` — the overdue locks in their order
* `Tables.IsQueue.drop` — what is left when those in front have been released
* `Run.forEach_expires` — overdue locks are released one by one
* `Run.expiry_drains`, `Run.expiries_drain` — one run of the sweep, and several
* `expiry_drains_in_order` — what any number of runs at one instant has done, and the next one does
-/

namespace Staffing

variable {now : Instant} {t t' : Tables} {s : Store} {e : Engine} {l : Lock}
  {queue queue' freed : List Lock} {past : List (Engine × Operation)}

/-! ## The order of a list -/

section Order

variable {α : Type} {entries : List α} {a b : α}

/-- Two entries of a list come in one order. -/
theorem pair_sublist_or_swap (ha : a ∈ entries) (hb : b ∈ entries) (differ : a ≠ b) :
    [a, b].Sublist entries ∨ [b, a].Sublist entries := by
  induction entries with
  | nil => cases ha
  | cons x rest ih =>
    rcases List.mem_cons.mp ha with rfl | later
    · have later : b ∈ rest := (List.mem_cons.mp hb).resolve_left differ.symm
      exact .inl ((List.singleton_sublist.mpr later).cons_cons a)
    · rcases List.mem_cons.mp hb with rfl | later'
      · exact .inr ((List.singleton_sublist.mpr later).cons_cons b)
      · exact (ih later later').imp (·.cons x) (·.cons x)

/-- Without repetition they do not come in both. -/
theorem not_pair_sublist_swap (nodup : entries.Nodup) (h : [a, b].Sublist entries) :
    ¬ [b, a].Sublist entries := by
  intro swapped
  induction entries with
  | nil => cases h
  | cons x rest ih =>
    obtain ⟨new, nodupRest⟩ := List.nodup_cons.mp nodup
    rcases List.cons_sublist_cons'.mp h with later | ⟨rfl, hb⟩
    · rcases List.cons_sublist_cons'.mp swapped with later' | ⟨rfl, -⟩
      · exact ih nodupRest later later'
      · exact new (later.subset (by simp))
    · rcases List.cons_sublist_cons'.mp swapped with later | ⟨rfl, -⟩
      · exact new (later.subset (by simp))
      · exact new (hb.subset (by simp))

/-- Sorting is stable: entries that may come in either order come as they came. -/
theorem pair_sublist_of_mergeSort {le : α → α → Bool}
    (trans : ∀ a b c, le a b = true → le b c = true → le a c = true)
    (total : ∀ a b, (le a b || le b a) = true) (nodup : entries.Nodup)
    (pair : [a, b].Sublist (entries.mergeSort le)) (level : le b a = true) :
    [a, b].Sublist entries := by
  have perm := List.mergeSort_perm entries le
  have nodup' := perm.nodup_iff.mpr nodup
  have differ : a ≠ b := List.rel_of_pairwise_cons (nodup'.sublist pair) (by simp)
  have ha : a ∈ entries := perm.subset (pair.subset (by simp))
  have hb : b ∈ entries := perm.subset (pair.subset (by simp))
  rcases pair_sublist_or_swap ha hb differ with came | swapped
  · exact came
  · have stayed := List.pair_sublist_mergeSort trans total level swapped
    exact absurd stayed (not_pair_sublist_swap nodup' pair)

/-- What is not at the front is behind it. -/
theorem filter_not_mem_take [DecidableEq α] (nodup : entries.Nodup) (n : Nat) :
    entries.filter (· ∉ entries.take n) = entries.drop n := by
  have apart : ∀ a ∈ entries.drop n, a ∉ entries.take n := fun a hdrop htake =>
    List.disjoint_take_drop nodup (le_refl n) htake hdrop
  calc entries.filter (· ∉ entries.take n)
      = (entries.take n ++ entries.drop n).filter (· ∉ entries.take n) := by
        rw [List.take_append_drop]
    _ = (entries.take n).filter (· ∉ entries.take n)
          ++ (entries.drop n).filter (· ∉ entries.take n) := List.filter_append ..
    _ = [] ++ entries.drop n := by
        congr 1
        · simp
        · simpa using apart
    _ = entries.drop n := List.nil_append _

end Order

/-! ## The queue -/

namespace Tables

/-- The overdue locks in the order in which they are released: the earliest expiry first, and of
those that expire together the one that came first. -/
structure IsQueue (t : Tables) (now : Instant) (queue : List Lock) : Prop where
  perm : queue.Perm (t.overdue now)
  order : queue.Pairwise fun k l =>
    k.expiresAt < l.expiresAt ∨ k.expiresAt = l.expiresAt ∧ [k, l].Sublist t.locks

/-- Sorted by expiry, the overdue locks are in their order. -/
theorem isQueue_mergeSort (distinct : t.locks.Nodup) (now : Instant) :
    t.IsQueue now ((t.overdue now).mergeSort fun k l => k.expiresAt ≤ l.expiresAt) where
  perm := List.mergeSort_perm _ _
  order := by
    have trans (a b c : Lock) : decide (a.expiresAt ≤ b.expiresAt) = true →
        decide (b.expiresAt ≤ c.expiresAt) = true → decide (a.expiresAt ≤ c.expiresAt) = true := by
      simpa using le_trans
    have total (a b : Lock) :
        (decide (a.expiresAt ≤ b.expiresAt) || decide (b.expiresAt ≤ a.expiresAt)) = true := by
      simpa using le_total a.expiresAt b.expiresAt
    have sorted := List.pairwise_mergeSort trans total (t.overdue now)
    refine List.pairwise_iff_forall_sublist.mpr fun {k l} pair => ?_
    have le : k.expiresAt ≤ l.expiresAt :=
      of_decide_eq_true (List.pairwise_iff_forall_sublist.mp sorted pair)
    refine (lt_or_eq_of_le le).imp_right fun level => ⟨level, ?_⟩
    have came := pair_sublist_of_mergeSort trans total (distinct.filter _) pair
      (decide_eq_true level.ge)
    exact came.trans List.filter_sublist

namespace IsQueue

/-- There is one such order. -/
theorem unique (h : t.IsQueue now queue) (h' : t.IsQueue now queue') (distinct : t.locks.Nodup) :
    queue = queue' := by
  refine List.Perm.eq_of_pairwise (fun k l _ _ first second => ?_) h.order h'.order
    (h.perm.trans h'.perm.symm)
  rcases first with earlier | ⟨level, came⟩
  · rcases second with later | ⟨level, -⟩
    · exact absurd later earlier.asymm
    · exact absurd level earlier.ne'
  · rcases second with later | ⟨-, swapped⟩
    · exact absurd level later.ne'
    · exact absurd swapped (not_pair_sublist_swap distinct came)

theorem mem (h : t.IsQueue now queue) (hl : l ∈ queue) :
    t.HasLive l ∧ l.expiresAt ≤ now := by
  obtain ⟨there, live, past, -⟩ := mem_overdue.mp (h.perm.subset hl)
  exact ⟨⟨there, live⟩, past⟩

theorem nodup (h : t.IsQueue now queue) (distinct : t.locks.Nodup) : queue.Nodup :=
  h.perm.nodup_iff.mpr (distinct.filter _)

/-- The sweep is given the front of the queue. -/
theorem expiredLocks_eq (h : t.IsQueue now queue) (distinct : t.locks.Nodup)
    (whole : t.ExpiriesWhole) (limit : Nat) : t.expiredLocks now limit = queue.take limit := by
  unfold expiredLocks
  rw [filter_lapsed whole, (isQueue_mergeSort distinct now).unique h distinct]

/-- **When those in front have been released, the others are left in their order.** -/
theorem drop (h : t.IsQueue now queue) (distinct : t.locks.Nodup) {n : Nat}
    {reason : ReleaseReason} (releases : t.Releases reason now (queue.take n) t') :
    t'.IsQueue now (queue.drop n) where
  perm := by
    have left : t'.overdue now = (t.overdue now).filter (· ∉ queue.take n) := by
      unfold overdue onPendingJob
      rw [releases.jobs]
      refine releases.filter_locks fun l due => ?_
      simp only [Bool.and_eq_true] at due
      exact due.1.1
    rw [left, ← filter_not_mem_take (h.nodup distinct) n]
    exact h.perm.filter _
  order := by
    have spared {l : Lock} (hl : l ∈ queue.drop n) : l ∉ queue.take n := by
      rw [← filter_not_mem_take (h.nodup distinct) n] at hl
      exact of_decide_eq_true (List.mem_filter.mp hl).2
    refine (h.order.sublist (List.drop_sublist n queue)).imp_of_mem fun hk hl before => ?_
    refine before.imp_right fun ⟨level, came⟩ => ⟨level, ?_⟩
    rw [releases.locks]
    have kept := came.map fun l =>
      if l ∈ queue.take n then l.ended reason now.wholeSecond else l
    simpa [spared hk, spared hl] using kept

end IsQueue

end Tables

/-! ## Expiries -/

/-- What is told of a lock that has expired. -/
def Lock.expiry (l : Lock) : Event := .locksReleased l.jobId [l.id] "expired"

/-- A live lock whose expiry is past is released. -/
theorem Locks.expire_apply (idle : s.saved = none) (keyed : (s.tables.locks.map (·.id)).Nodup)
    (fits : s.tables.Fits) (whole : s.tables.ExpiriesWhole) (hl : s.tables.HasLive l)
    (due : l.expiresAt ≤ now) :
    expire l.id now s = .ok (some (l.ended .expired now))
      { s with tables := s.tables.released .expired now l } := by
  have found : s.tables.lock? l.id = some l := (find?_key_eq_some keyed).mpr ⟨hl.1, rfl⟩
  have lapsed : (l.isLive && l.lapsed now) = true := by
    rw [hl.2, Lock.lapsed_eq (whole l hl.1), Bool.true_and]
    exact decide_eq_true due
  refine Work.atomic_of_begin idle ?_
  rw [bind_of_ok (Work.demand_eq_ok.mpr ⟨found, rfl⟩), if_pos lapsed,
    bind_of_ok (releaseOne_apply (s := s.begin) fits .expired now l)]
  rfl

namespace Run

theorem distinctLocks (run : Run past e) : e.store.tables.locks.Nodup :=
  run.ready.keyed.locks.of_map

/-- One lock expires. -/
theorem expireLock_releases (run : Run past e) (hl : e.store.tables.HasLive l)
    (due : l.expiresAt ≤ now) :
    ∃ e', Engine.expireLock l.id now e = .ok (some (l.ended .expired now)) e' ∧
      e.Releases .expired now [l] [l.expiry] e' := by
  have done := Locks.expire_apply run.ready.idle run.ready.keyed.locks run.sound.fits
    run.expiriesWhole hl due
  have releases := Tables.Releases.single ⟨_, run.sound⟩ run.expiriesWhole hl .expired now
  have log := (Locks.expire_onlyLocks _ _ _ _ _ done).1.log
  refine ⟨_, ?_, .of_told releases log [l.expiry]⟩
  unfold Engine.expireLock
  rw [bind_of_ok (Engine.onStore_of_ok done)]
  exact bind_of_ok (Engine.dispatch_apply now _ _)

/-- **Overdue locks are released one by one,** and each of them counts as done. -/
theorem forEach_expires (run : Run past e) (nodup : freed.Nodup)
    (due : ∀ l ∈ freed, e.store.tables.HasLive l ∧ l.expiresAt ≤ now) (r : SweepReport) :
    ∃ past' e', Run past' e' ∧
      Sweep.forEach (fun l => do pure (← Engine.expireLock l.id now).isSome) freed r e
        = .ok { r with
          examined := r.examined + freed.length
          succeeded := r.succeeded + freed.length } e' ∧
      e.Releases .expired now freed (freed.map (·.expiry)) e' := by
  induction freed generalizing past e r with
  | nil => exact ⟨past, e, run, rfl, .nil _ _ e⟩
  | cons l rest ih =>
    obtain ⟨new, nodupRest⟩ := List.nodup_cons.mp nodup
    obtain ⟨hl, lapsed⟩ := due l List.mem_cons_self
    obtain ⟨e₁, done, first⟩ := run.expireLock_releases hl lapsed
    have run₁ := run.operation (.expireLock l.id now) trivial
    have left : (Operation.expireLock l.id now).after e = e₁ := after_of_ok done
    rw [left] at run₁
    have treated : (do pure (← Engine.expireLock l.id now).isSome : EngineWork Bool) e
        = .ok true e₁ := bind_of_ok done
    -- The locks still to come are other rows, so they are overdue as before.
    have dueRest := fun k hk => due k (List.mem_cons_of_mem _ hk)
    have stillDue : ∀ k ∈ rest, e₁.store.tables.HasLive k ∧ k.expiresAt ≤ now := fun k hk =>
      ⟨first.tables.hasLive (dueRest k hk).1 fun same => new (List.mem_singleton.mp same ▸ hk),
        (dueRest k hk).2⟩
    obtain ⟨past', e', run', others, releases⟩ := ih run₁ nodupRest stillDue (r.count (.ok true))
    refine ⟨past', e', run', ?_, first.trans releases fun k hk => (dueRest k hk).1.2⟩
    unfold Sweep.forEach
    rw [bind_of_ok (Engine.attempt_of_ok treated), others]
    simp only [SweepReport.count, List.length_cons]
    congr 2 <;> omega

/-- **A run of the sweep drains one batch.** -/
theorem expiry_drains (run : Run past e) (front : e.store.tables.IsQueue now queue) (batch : Nat) :
    ∃ past' e', Run past' e' ∧
      (Sweep.expiry batch).run now e = .ok {
        sweep := "expiry"
        examined := min batch queue.length
        succeeded := min batch queue.length } e' ∧
      e.Releases .expired now (queue.take batch) ((queue.take batch).map (·.expiry)) e' ∧
      e'.store.tables.IsQueue now (queue.drop batch) := by
  have listed := front.expiredLocks_eq run.distinctLocks run.expiriesWhole batch
  obtain ⟨past', e', run', done, releases⟩ := run.forEach_expires
    ((front.nodup run.distinctLocks).sublist (List.take_sublist batch queue))
    (fun l hl => front.mem (List.mem_of_mem_take hl)) { sweep := "expiry" }
  refine ⟨past', e', run', ?_, releases, front.drop run.distinctLocks releases.tables⟩
  simp only [List.length_take, Nat.zero_add] at done
  rw [← done, ← listed]
  rfl

/-- What several runs of the sweep at one instant have done. -/
theorem expiries_drain (run : Run past e) (front : e.store.tables.IsQueue now queue)
    (batch k : Nat) :
    let e' := (after ((Sweep.expiry batch).run now))^[k] e
    (∃ past', Run past' e') ∧
      e.Releases .expired now (queue.take (k * batch)) ((queue.take (k * batch)).map (·.expiry))
        e' ∧
      e'.store.tables.IsQueue now (queue.drop (k * batch)) := by
  induction k with
  | zero =>
    rw [Nat.zero_mul]
    exact ⟨⟨past, run⟩, .nil _ _ e, front⟩
  | succ k ih =>
    obtain ⟨⟨past₁, run₁⟩, before, front₁⟩ := ih
    obtain ⟨past₂, e₂, run₂, done, next, front₂⟩ := run₁.expiry_drains front₁ batch
    rw [Function.iterate_succ_apply', after_of_ok done, Nat.succ_mul]
    refine ⟨⟨past₂, run₂⟩, ?_, ?_⟩
    · rw [List.take_add, List.map_append]
      exact before.trans next fun l hl => (front₁.mem (List.mem_of_mem_take hl)).1.2
    · rw [← List.drop_drop]
      exact front₂

end Run

/-- **The expiry sweep drains the overdue locks in order.** In every state that a run reaches, take
the live locks of pending jobs whose expiry is past, the earliest expiry first and of those that
expire together the one that came first. Then `k` runs of the sweep at that instant have released
the first `k * batch` of them as expired and no other lock. They have taken their units off slots
and plans, have told of each lock by an event of its own, and have changed nothing else. The next
run examines as many of the locks that are left as there are, at most a batch, and releases them
all. When none is left it changes nothing. -/
theorem expiry_drains_in_order (run : Run past e) (now : Instant) (batch : Nat) :
    ∃ queue, e.store.tables.IsQueue now queue ∧ ∀ k : Nat,
      let e₁ := (after ((Sweep.expiry batch).run now))^[k] e
      let e₂ := (after ((Sweep.expiry batch).run now))^[k + 1] e
      let examined := min batch (queue.length - k * batch)
      e.Releases .expired now (queue.take (k * batch)) ((queue.take (k * batch)).map (·.expiry))
        e₁ ∧
      (Sweep.expiry batch).run now e₁
        = .ok { sweep := "expiry", examined, succeeded := examined, failed := 0 } e₂ ∧
      (queue.length ≤ k * batch → e₂ = e₁) := by
  have front := Tables.isQueue_mergeSort run.distinctLocks now
  refine ⟨_, front, fun k => ?_⟩
  obtain ⟨⟨past₁, run₁⟩, before, front₁⟩ := run.expiries_drain front batch k
  obtain ⟨past₂, e₂, -, done, next, -⟩ := run₁.expiry_drains front₁ batch
  rw [Function.iterate_succ_apply', after_of_ok done]
  refine ⟨before, ?_, fun none => ?_⟩
  · rw [done, List.length_drop]
  · rw [List.drop_eq_nil_of_le none, List.take_nil] at next
    exact next.eq_of_nil

/-- Three locks on one slot, of which the first expires last. -/
def Sample.threeLapsed : List Operation := [
  .insertProvider (provider "ada"), .insertProvider (provider "bob"),
  .insertProvider (provider "cem"), .createTeam admin (team ["ada", "bob", "cem"]),
  .createJob (job 9),
  .createLocks admin (idText "job" 1) ⟨.team (idText "team" 0) none, some 30⟩,
  .createLocks admin (idText "job" 1) ⟨.team (idText "team" 0) none, some 20⟩,
  .createLocks admin (idText "job" 1) ⟨.team (idText "team" 0) none, some 20⟩]

/-- After forty minutes two runs drain them, and a third one finds nothing. -/
theorem expiry_drains_in_order_threeLapsed : ∃ past e queue e₁ e₂, Run past e ∧
    e.store.tables.IsQueue (40 * Instant.minute) queue ∧
    queue.map (·.expiresAt) = [20 * Instant.minute, 20 * Instant.minute, 30 * Instant.minute] ∧
    (Sweep.expiry 2).run (40 * Instant.minute) e = .ok ⟨"expiry", 2, 2, 0⟩ e₁ ∧
    (Sweep.expiry 2).run (40 * Instant.minute) e₁ = .ok ⟨"expiry", 1, 1, 0⟩ e₂ ∧
    (Sweep.expiry 2).run (40 * Instant.minute) e₂ = .ok ⟨"expiry", 0, 0, 0⟩ e₂ ∧
    e.store.tables.TakesOff queue e₂.store.tables := by
  obtain ⟨e, left⟩ : ∃ e, e = Operation.afterAll Sample.threeLapsed Sample.engine := ⟨_, rfl⟩
  have run : Run (Operation.trace Sample.threeLapsed Sample.engine) e := left ▸
    Run.of_operations rfl rfl (fun _ _ _ => rfl)
      (by simp [Sample.threeLapsed, Operation.IsAdmissible])
  have overdue : (e.store.tables.overdue (40 * Instant.minute)).map (·.expiresAt)
      = [30 * Instant.minute, 20 * Instant.minute, 20 * Instant.minute] := by
    rw [left]
    decide +kernel
  obtain ⟨queue, front, drains⟩ := expiry_drains_in_order run (40 * Instant.minute) 2
  have rising : (queue.map (·.expiresAt)).Pairwise (· ≤ ·) :=
    List.pairwise_map.mpr (front.order.imp fun h => h.elim le_of_lt fun h => h.1.le)
  have listed := front.perm.map (·.expiresAt)
  rw [overdue] at listed
  have order : queue.map (·.expiresAt)
      = [20 * Instant.minute, 20 * Instant.minute, 30 * Instant.minute] :=
    List.Perm.eq_of_pairwise (fun (a b : Instant) _ _ (h : a ≤ b) (h' : b ≤ a) => le_antisymm h h')
      rising (by decide) (listed.trans (by decide))
  have three : queue.length = 3 := by simpa using congrArg List.length order
  obtain ⟨-, first, -⟩ := drains 0
  obtain ⟨-, second, -⟩ := drains 1
  obtain ⟨drained, third, same⟩ := drains 2
  rw [List.take_of_length_le (by omega)] at drained
  rw [three] at first second third
  rw [same (by omega)] at third
  exact ⟨_, e, queue, _, _, run, front, order, first, second, third, drained.tables.takesOff⟩

end Staffing
