import Staffing.Proofs.Narrowing
import Staffing.Proofs.RetrySweeps

/-!
# One cycle is enough

Each sweep lists what there is to do before it does any of it. Still, when the three have run at an
instant, nothing is left for that instant: whatever is left after a sweep was there before it, so it
was listed, and its turn has come. The sweeps that follow only take work away, so no sweep finds
anything in a second cycle.

* `Run.forEach_closes` — going through all that is open leaves nothing open
* `Tables.overdue` — the lapsed locks of pending jobs
* `Run.after_retry`, `Run.after_promotion`, `Run.after_expiry` — what the three sweeps leave
* `Engine.swept` — the engine after one cycle
* `cycle_reaches_fixpoint` — nothing is left to do, and a second cycle changes no table
-/

namespace Staffing

variable {now staleBefore : Instant} {t t' : Tables} {e : Engine} {j : Job} {l : Lock}
  {maxRetries limit : Nat} {past : List (Engine × Operation)}

/-! ## One by one -/

/-- **Going through all that is open leaves nothing open,** when each item closes what is its own
and opens nothing. -/
theorem Run.forEach_closes {α : Type} {R : Tables → Tables → Prop} (Open : Tables → α → Prop)
    (parts : α → Engine → List Operation) (items : List α) (refl : ∀ t, R t t)
    (trans : ∀ t t' t'', R t t' → R t' t'' → R t t'')
    (each : ∀ past e a, Run past e →
      let e' := Operation.afterAll (parts a e) e
      (∃ past', Run past' e') ∧ R e.store.tables e'.store.tables ∧
        ∀ b, Open e'.store.tables b → Open e.store.tables b ∧ b ≠ a)
    (run : Run past e) :
    let e' := Operation.afterAll (Operation.forEach parts items e) e
    R e.store.tables e'.store.tables ∧
      ((∀ b, Open e.store.tables b → b ∈ items) → ∀ b, ¬ Open e'.store.tables b) := by
  induction items generalizing past e with
  | nil => exact ⟨refl _, fun listed b isOpen => absurd (listed b isOpen) List.not_mem_nil⟩
  | cons a rest ih =>
    unfold Operation.forEach
    rw [Operation.afterAll_append]
    obtain ⟨⟨past', run'⟩, first, closes⟩ := each past e a run
    obtain ⟨others, done⟩ := ih run'
    refine ⟨trans _ _ _ first others, fun listed => done fun b isOpen => ?_⟩
    obtain ⟨before, other⟩ := closes b isOpen
    exact (List.mem_cons.mp (listed b before)).resolve_left other

/-! ## Lapsed locks -/

theorem Lock.isLive_iff (l : Lock) :
    l.isLive = true ↔ l.status = .held ∨ l.status = .confirmed := by
  unfold isLive
  cases l.status <;> simp [LockStatus.isActive]

/-- A lock whose expiry is a whole second has lapsed once the expiry is past. -/
theorem Lock.lapsed_eq (whole : l.expiresAt.wholeSecond = l.expiresAt) (now : Instant) :
    l.lapsed now = decide (l.expiresAt ≤ now) := by
  unfold lapsed
  rw [whole, decide_eq_decide]
  refine ⟨fun past => past.trans (Instant.wholeSecond_le now), fun past => ?_⟩
  rw [← whole]
  exact Instant.wholeSecond_mono past

namespace Tables

/-- The live locks of pending jobs whose expiry is past. -/
def overdue (t : Tables) (now : Instant) : List Lock :=
  t.locks.filter fun l => l.isLive && l.expiresAt ≤ now && t.onPendingJob l

theorem mem_overdue : l ∈ t.overdue now ↔ l ∈ t.locks ∧ l.isLive = true ∧ l.expiresAt ≤ now ∧
    ∃ j ∈ t.jobs, j.isPending = true ∧ j.id = l.jobId := by
  unfold overdue onPendingJob
  simp only [List.mem_filter, Bool.and_eq_true, decide_eq_true_eq, List.any_eq_true, beq_iff_eq,
    and_assoc, and_comm (a := (_ : Job).id = _)]

/-- What waits no more is no more overdue. -/
theorem Dwindles.overdue (h : t.Dwindles t') (hl : l ∈ t'.overdue now) : l ∈ t.overdue now := by
  obtain ⟨there, live, past, j', hj', waits, own'⟩ := mem_overdue.mp hl
  obtain ⟨j, hj, waited, own⟩ := h.pending j' hj' waits
  exact mem_overdue.mpr ⟨h.locks l there live, live, past, j, hj, waited, own.trans own'⟩

theorem Dwindles.overdue_length (h : t.Dwindles t') (nodup : (t'.locks.map (·.id)).Nodup)
    (now : Instant) : (t'.overdue now).length ≤ (t.overdue now).length :=
  (nodup.of_map.filter _).length_le_of_subset fun _ hl => h.overdue hl

/-- Expiries are stored as whole seconds. -/
def ExpiriesWhole (t : Tables) : Prop := ∀ l ∈ t.locks, l.expiresAt.wholeSecond = l.expiresAt

/-- In whole seconds the same locks are overdue. -/
theorem filter_lapsed (whole : t.ExpiriesWhole) (now : Instant) :
    t.locks.filter (fun l => l.isLive && l.lapsed now && t.onPendingJob l) = t.overdue now :=
  List.filter_congr fun l hl => by rw [Lock.lapsed_eq (whole l hl)]

/-- All overdue locks are listed unless they are too many. -/
theorem mem_expiredLocks (whole : t.ExpiriesWhole) (few : (t.overdue now).length ≤ limit) :
    l ∈ t.expiredLocks now limit ↔ l ∈ t.overdue now := by
  unfold expiredLocks
  rw [filter_lapsed whole, List.take_of_length_le (by rw [List.length_mergeSort]; exact few)]
  exact (List.mergeSort_perm _ _).mem_iff

end Tables

/-- **Every step stores expiries as whole seconds.** -/
theorem Step.expiriesWhole {p q : Tables × List String} (h : Step now p q)
    (whole : p.1.ExpiriesWhole) : q.1.ExpiriesWhole := by
  have changed {id : String} {status : LockStatus} {reason : Option ReleaseReason}
      {expiresAt : Instant}
      (same : q.1.locks = (p.1.setLockState id status reason expiresAt now).locks) :
      q.1.ExpiriesWhole := by
    intro l' hl'
    rw [same] at hl'
    obtain ⟨l, hl, rfl⟩ := mem_updateWhere.mp hl'
    split
    · exact Instant.wholeSecond_wholeSecond _
    · exact whole l hl
  rcases h.locks_cases with same | ⟨k, -, -, added⟩ | ⟨k, -, -, same⟩ | ⟨k, -, reason, -, same⟩
  · exact fun l hl => whole l (same ▸ hl)
  · intro l hl
    rw [added] at hl
    rcases List.mem_append.mp hl with old | new
    · exact whole l old
    · rw [List.mem_singleton.mp new]
      exact Instant.wholeSecond_wholeSecond _
  · exact changed same
  · exact changed same

theorem Run.expiriesWhole (run : Run past e) : e.store.tables.ExpiriesWhole :=
  (run.holds (I := fun p => p.1.ExpiriesWhole) (fun _ h => absurd h List.not_mem_nil)
    fun _ _ _ _ whole step => step.expiriesWhole whole).2

/-! ## The sweeps -/

/-- A job that is due afterwards was due before. -/
theorem Tables.Narrows.jobsDue (h : t.Narrows t')
    (listed : j ∈ t'.jobsDue now staleBefore maxRetries) :
    j ∈ t.jobsDue now staleBefore maxRetries := by
  obtain ⟨-, waits, -⟩ := of_mem_jobsDue listed
  obtain ⟨hj, due⟩ := mem_jobsDue.mp listed
  exact mem_jobsDue.mpr ⟨h.jobs j hj waits, due⟩

/-- A job that can be staffed by its locks is listed. -/
theorem Tables.Promotable.listed (h : t.Promotable now j) (hj : j ∈ t.jobs) :
    j ∈ t.promotableJobs now := by
  have unassigned : t.assignments.any (fun a => a.jobId == j.id && a.isLive) = false := by
    rw [List.any_eq_false]
    intro a ha blocks
    obtain ⟨own, live⟩ := Bool.and_eq_true_iff.mp blocks
    rw [assignmentsFor_eq_nil.mp h.vacant a ha (beq_iff_eq.mp own)] at live
    cases live
  have locked : t.locks.any (fun l => l.jobId == j.id && l.isUsable now) = true := by
    cases usable : t.usableLocks j.id now with
    | nil => exact absurd (usable ▸ rfl) h.decided
    | cons l rest =>
      obtain ⟨hl, own, usable⟩ := mem_usableLocks.mp (usable ▸ List.mem_cons_self)
      exact List.any_eq_true.mpr ⟨l, hl, by rw [usable, beq_iff_eq.mpr own]; rfl⟩
  unfold promotableJobs
  rw [(List.mergeSort_perm _ _).mem_iff]
  refine List.mem_filter.mpr ⟨hj, ?_⟩
  rw [h.pending, unassigned, locked]
  rfl

namespace Run

/-- A job that has been tried is not due, and none has become so. -/
theorem retryOne (run : Run past e) (later : staleBefore.wholeSecond < now.wholeSecond)
    (maxRetries : Nat) (j : Job) :
    let e' := Operation.afterAll (Sweep.retryParts maxRetries now staleBefore j e) e
    (∃ past', Run past' e') ∧ e.store.tables.Dwindles e'.store.tables ∧
      ∀ k ∈ e'.store.tables.jobsDue now staleBefore maxRetries,
        k ∈ e.store.tables.jobsDue now staleBefore maxRetries ∧ k ≠ j := by
  have tries := run.operation (.autoAssign j.id now) trivial
  have narrows := Engine.autoAssign_narrows run.ready j.id now
  rcases Sweep.retryParts_cases maxRetries now staleBefore j e with
    parts | ⟨parts, selection, matched⟩
  · rw [parts]
    obtain ⟨dwindles, left⟩ := Engine.recordFailure_dwindles tries.ready later j maxRetries
    refine ⟨⟨_, tries.operation (.recordFailure j maxRetries now staleBefore) trivial⟩,
      narrows.dwindles.trans dwindles, fun k listed => ?_⟩
    obtain ⟨hk, waits, since, -⟩ := Tables.of_mem_jobsDue listed
    obtain ⟨old, other⟩ := left k hk waits since
    have before := Tables.mem_jobsDue.mpr ⟨old, (Tables.mem_jobsDue.mp listed).2⟩
    exact ⟨narrows.jobsDue before, fun same => other (congrArg _ same)⟩
  · rw [parts]
    refine ⟨⟨_, tries⟩, narrows.dwindles, fun k listed => ⟨narrows.jobsDue listed, fun same => ?_⟩⟩
    obtain ⟨hk, waits, -⟩ := Tables.of_mem_jobsDue listed
    rw [Engine.autoAssign_settles run.ready matched hk (congrArg _ same)] at waits
    cases waits

/-- **After a retry no job is due.** -/
theorem after_retry (run : Run past e) (config : SweepConfig) (positive : 1 ≤ config.staleAfter)
    (now : Instant) :
    let t' := (after ((Sweep.retry config).run now) e).store.tables
    e.store.tables.Dwindles t' ∧
      t'.jobsDue now (now - config.staleAfter * Instant.minute) config.maxRetries = [] := by
  have later :
      (now - config.staleAfter * Instant.minute).wholeSecond < Instant.wholeSecond now := by
    unfold Instant.wholeSecond Instant.minute Instant.second
    lia
  rw [Sweep.after_retry]
  obtain ⟨dwindles, done⟩ := run.forEach_closes (R := Tables.Dwindles)
    (fun t k => k ∈ t.jobsDue now (now - config.staleAfter * Instant.minute) config.maxRetries)
    _ _ .refl (fun _ _ _ => .trans) fun _ _ j run' => run'.retryOne later config.maxRetries j
  exact ⟨dwindles, List.eq_nil_iff_forall_not_mem.mpr (done fun _ => id)⟩

/-- A job for which a promotion has been tried is not promotable, and none has become so. -/
theorem promoteOne (run : Run past e) (now : Instant) (j : Job) :
    let t' := ((Operation.promote j.id now).after e).store.tables
    ∀ k, k ∈ t'.jobs ∧ t'.Promotable now k →
      (k ∈ e.store.tables.jobs ∧ e.store.tables.Promotable now k) ∧ k ≠ j := by
  rintro t' k ⟨hk, promotable⟩
  have narrows : e.store.tables.Narrows t' := Engine.promote_narrows run.ready j.id now
  have old : k ∈ e.store.tables.jobs := narrows.jobs k hk promotable.pending
  have before : e.store.tables.Promotable now k := narrows.promotable promotable
  refine ⟨⟨old, before⟩, ?_⟩
  rintro rfl
  have found : e.store.tables.job? k.id = some k :=
    (find?_key_eq_some run.ready.keyed.jobs).mpr ⟨old, rfl⟩
  obtain ⟨-, p, e', done⟩ | ⟨never, -⟩ := run.promote_answers now found
  · have left : (Operation.promote k.id now).after e = e' := after_of_ok done
    have waits := promotable.pending
    rw [Engine.promote_settles run.ready done (left ▸ hk) rfl] at waits
    cases waits
  · exact never before

/-- **After a promotion no job is promotable,** and if none was, no table has changed. -/
theorem after_promotion (run : Run past e) (now : Instant) :
    let t' := (after (Sweep.promotion.run now) e).store.tables
    e.store.tables.Narrows t' ∧ (∀ k ∈ t'.jobs, ¬ t'.Promotable now k) ∧
      ((∀ k ∈ e.store.tables.jobs, ¬ e.store.tables.Promotable now k) → t' = e.store.tables) := by
  rw [Sweep.after_promotion]
  obtain ⟨⟨narrows, idle⟩, done⟩ := run.forEach_closes
    (R := fun t t' => t.Narrows t' ∧ ((∀ k ∈ t.jobs, ¬ t.Promotable now k) → t' = t))
    (fun t k => k ∈ t.jobs ∧ t.Promotable now k) (fun j _ => [.promote j.id now])
    (e.store.tables.promotableJobs now)
    (fun t => ⟨.refl t, fun _ => rfl⟩)
    (fun t t' t'' h h' => ⟨h.1.trans h'.1, fun none => by
      obtain rfl := h.2 none
      exact h'.2 none⟩)
    fun _ e' j run' => ⟨⟨_, run'.operation (.promote j.id now) trivial⟩,
      ⟨Engine.promote_narrows run'.ready j.id now, Engine.promote_idle run'.ready j.id⟩,
      run'.promoteOne now j⟩
  exact ⟨narrows, fun k hk promotable =>
    done (fun j h => h.2.listed h.1) k ⟨hk, promotable⟩, idle⟩

/-- A lock for which an expiry has been tried is not overdue, and none has become so. -/
theorem expireOne (run : Run past e) (now : Instant) (l : Lock) :
    let t' := ((Operation.expireLock l.id now).after e).store.tables
    e.store.tables.Narrows t' ∧
      ∀ k ∈ t'.overdue now, k ∈ e.store.tables.overdue now ∧ k ≠ l := by
  intro t'
  obtain ⟨narrows, spared⟩ := Engine.expireLock_narrows run.ready run.sound.fits l.id now
  refine ⟨narrows, fun k hk => ⟨narrows.dwindles.overdue hk, ?_⟩⟩
  rintro rfl
  obtain ⟨there, live, lapsed, -⟩ := Tables.mem_overdue.mp hk
  refine spared k there rfl ?_
  rw [live]
  exact decide_eq_true (Instant.wholeSecond_mono lapsed)

/-- **After an expiry no lock is overdue,** unless more were so than one expiry takes on. -/
theorem after_expiry (run : Run past e) (batch : Nat) (now : Instant) :
    let t' := (after ((Sweep.expiry batch).run now) e).store.tables
    e.store.tables.Narrows t' ∧
      ((e.store.tables.overdue now).length ≤ batch → t'.overdue now = []) := by
  rw [Sweep.after_expiry]
  obtain ⟨narrows, done⟩ := run.forEach_closes (R := Tables.Narrows)
    (fun t k => k ∈ t.overdue now) (fun l _ => [.expireLock l.id now])
    (e.store.tables.expiredLocks now batch) .refl (fun _ _ _ => .trans)
    fun _ _ l run' =>
      ⟨⟨_, run'.operation (.expireLock l.id now) trivial⟩, run'.expireOne now l⟩
  refine ⟨narrows, fun few => List.eq_nil_iff_forall_not_mem.mpr (done fun l hl => ?_)⟩
  exact (Tables.mem_expiredLocks run.expiriesWhole few).mpr hl

end Run

/-! ## Cycles -/

namespace Engine

/-- The engine that one cycle of the standard sweeps leaves when the clock shows `now`. -/
def swept (config : SweepConfig) (now : Instant) (e : Engine) : Engine :=
  after (Sweep.cycle (Sweep.standard config)) { e with now }

end Engine

/-- Whether a sweep fails or not, the others follow. -/
theorem Sweep.after_cycleAt (now : Instant) (s : Sweep) (rest : List Sweep) (e : Engine) :
    after (cycleAt now (s :: rest)) e = after (cycleAt now rest) (after (s.run now) e) := by
  have others (report : SweepReport) (e₁ : Engine) :
      after (cycleAt now rest >>= fun reports => pure (report :: reports)) e₁
        = after (cycleAt now rest) e₁ := after_bind_pure _ _ _
  rw [cycleAt]
  cases ran : s.run now e with
  | ok report e₁ =>
    rw [after_bind_of_ok (Engine.attempt_of_ok ran), after_of_ok ran]
    exact others _ e₁
  | error fault e₁ =>
    rw [after_bind_of_ok (Engine.attempt_of_error ran), after_of_error ran]
    exact others _ e₁

/-- A cycle is one run of each sweep. -/
theorem Engine.swept_eq (config : SweepConfig) (now : Instant) (e : Engine) :
    e.swept config now = after ((Sweep.expiry config.lockBatch).run now)
      (after (Sweep.promotion.run now) (after ((Sweep.retry config).run now) { e with now })) := by
  have shows : clock { e with now } = .ok now { e with now } := rfl
  have none (e : Engine) : after (Sweep.cycleAt now []) e = e := rfl
  unfold swept Sweep.cycle Sweep.standard
  rw [after_bind_of_ok shows]
  simp only [Sweep.after_cycleAt, none]

namespace Run

/-- After a cycle no job is due or promotable, and no lock is overdue unless too many were. -/
theorem swept (run : Run past e) (config : SweepConfig) (positive : 1 ≤ config.staleAfter)
    (now : Instant) :
    let e' := e.swept config now
    (∃ past', Run past' e') ∧
      e'.store.tables.jobsDue now (now - config.staleAfter * Instant.minute) config.maxRetries
        = [] ∧
      (∀ j ∈ e'.store.tables.jobs, ¬ e'.store.tables.Promotable now j) ∧
      ((e.store.tables.overdue now).length ≤ config.lockBatch →
        e'.store.tables.overdue now = []) := by
  have run₀ := run.operation (.serve { e with now }) run.ready.quiet
  have run₁ := run₀.sweep .retry config now
  have run₂ := run₁.sweep .promotion config now
  have run₃ := run₂.sweep .expiry config now
  obtain ⟨retried, due⟩ := run₀.after_retry config positive now
  obtain ⟨promoted, promotable, -⟩ := run₁.after_promotion now
  obtain ⟨expired, overdue⟩ := run₂.after_expiry config.lockBatch now
  intro e'
  have left : e' = _ := Engine.swept_eq config now e
  rw [left]
  refine ⟨⟨_, run₃⟩, ?_, fun j hj h => ?_, fun few => ?_⟩
  · rw [List.eq_nil_iff_forall_not_mem] at due ⊢
    exact fun j listed => due j ((promoted.trans expired).jobsDue listed)
  · exact promotable j (expired.jobs j hj h.pending) (expired.promotable h)
  · have fewer := (retried.trans promoted.dwindles).overdue_length run₂.ready.keyed.locks now
    exact overdue (fewer.trans few)

/-- A cycle that finds nothing to do changes no table. -/
theorem swept_idle (run : Run past e) (config : SweepConfig)
    (due : e.store.tables.jobsDue now (now - config.staleAfter * Instant.minute) config.maxRetries
      = [])
    (promotable : ∀ j ∈ e.store.tables.jobs, ¬ e.store.tables.Promotable now j)
    (overdue : e.store.tables.overdue now = []) :
    (e.swept config now).store.tables = e.store.tables := by
  have run₀ := run.operation (.serve { e with now }) run.ready.quiet
  have promoted : (after (Sweep.promotion.run now) { e with now }).store.tables
      = e.store.tables := (run₀.after_promotion now).2.2 promotable
  have expired : e.store.tables.expiredLocks now config.lockBatch = [] := by
    rw [List.eq_nil_iff_forall_not_mem]
    intro l listed
    have few : (e.store.tables.overdue now).length ≤ config.lockBatch := by
      rw [overdue]
      exact Nat.zero_le _
    rw [Tables.mem_expiredLocks run.expiriesWhole few, overdue] at listed
    cases listed
  have retried : after ((Sweep.retry config).run now) { e with now } = { e with now } := by
    rw [Sweep.after_retry]
    show Operation.afterAll (Operation.forEach _ (e.store.tables.jobsDue _ _ _) _) _ = _
    rw [due]
    rfl
  rw [Engine.swept_eq, retried, Sweep.after_expiry, promoted, expired]
  exact promoted

end Run

/-- **One cycle reaches a fixpoint.** After one cycle of the standard sweeps no job is due for a
retry and none can be promoted. Unless more locks of pending jobs had lapsed than one expiry takes
on, no live lock of a pending job is past its expiry, and a second cycle at the same instant leaves
every table as it was, the log included. -/
theorem cycle_reaches_fixpoint (run : Run past e) (config : SweepConfig)
    (positive : 1 ≤ config.staleAfter) (now : Instant) :
    let e₁ := e.swept config now
    e₁.store.tables.jobsDue now (now - config.staleAfter * Instant.minute) config.maxRetries = [] ∧
      (∀ j ∈ e₁.store.tables.jobs, ∃ e', Engine.promote j.id now e₁ = .ok none e') ∧
      ((e.store.tables.overdue now).length ≤ config.lockBatch →
        e₁.store.tables.overdue now = [] ∧
        (e₁.swept config now).store.tables = e₁.store.tables) := by
  intro e₁
  obtain ⟨⟨past₁, run₁⟩, due, promotable, overdue⟩ := run.swept config positive now
  refine ⟨due, fun j hj => ?_, fun few => ⟨overdue few, ?_⟩⟩
  · have found : e₁.store.tables.job? j.id = some j :=
      (find?_key_eq_some run₁.ready.keyed.jobs).mpr ⟨hj, rfl⟩
    obtain ⟨can, -⟩ | ⟨-, e', done, -⟩ := run₁.promote_answers now found
    · exact absurd can (promotable j hj)
    · exact ⟨e', done⟩
  · exact run₁.swept_idle config due promotable (overdue few)

namespace Sample

/-- Nobody can go to the first job, the second one has a confirmed lock, and the third one a lock
that lapses after a quarter of an hour. -/
def oneForEachSweep : List Operation := [
  .insertProvider (provider "ada"), .insertProvider (provider "bob"),
  .createJob { job 9 with requiredMembers := 3 }, .createJob { job 11 with mode := .manual },
  .createJob { job 13 with mode := .manual },
  .createLocks admin (idText "job" 1) ⟨.providers ["ada"], some 60⟩,
  .confirmLocks admin (idText "job" 1) none,
  .createLocks admin (idText "job" 2) ⟨.providers ["bob"], none⟩]

end Sample

/-- After twenty minutes each sweep has one thing to do, and after a cycle none has. -/
theorem cycle_reaches_fixpoint_oneForEachSweep : ∃ past e, Run past e ∧
    (e.store.tables.jobsDue (20 * Instant.minute) (15 * Instant.minute) 2).length = 1 ∧
    (e.store.tables.promotableJobs (20 * Instant.minute)).length = 1 ∧
    (e.store.tables.overdue (20 * Instant.minute)).length = 1 ∧
    let e₁ := e.swept Sample.twoRetries (20 * Instant.minute)
    e₁.store.tables.jobsDue (20 * Instant.minute) (15 * Instant.minute) 2 = [] ∧
      (∀ j ∈ e₁.store.tables.jobs, ∃ e',
        Engine.promote j.id (20 * Instant.minute) e₁ = .ok none e') ∧
      e₁.store.tables.overdue (20 * Instant.minute) = [] ∧
      (e₁.swept Sample.twoRetries (20 * Instant.minute)).store.tables = e₁.store.tables := by
  obtain ⟨past, trace⟩ :
      ∃ past, past = Operation.trace Sample.oneForEachSweep Sample.engine := ⟨_, rfl⟩
  obtain ⟨e, left⟩ :
      ∃ e, e = Operation.afterAll Sample.oneForEachSweep Sample.engine := ⟨_, rfl⟩
  have run : Run past e := trace ▸ left ▸ Run.of_operations rfl rfl (fun _ _ _ => rfl) (by
    simp only [Sample.oneForEachSweep, List.forall_mem_cons, Operation.IsAdmissible]
    exact ⟨trivial, trivial, trivial, trivial, trivial, trivial, trivial, trivial,
      fun _ h => absurd h List.not_mem_nil⟩)
  obtain ⟨due, promotable, overdue⟩ :
      (e.store.tables.jobsDue (20 * Instant.minute) (15 * Instant.minute) 2).length = 1 ∧
      (e.store.tables.promotableJobs (20 * Instant.minute)).length = 1 ∧
      (e.store.tables.overdue (20 * Instant.minute)).length = 1 := by
    rw [left]
    decide +kernel
  obtain ⟨noneDue, nonePromoted, done⟩ :=
    cycle_reaches_fixpoint run Sample.twoRetries (by decide) (20 * Instant.minute)
  obtain ⟨noneOverdue, same⟩ := done (overdue ▸ by decide)
  exact ⟨past, e, run, due, promotable, overdue, noneDue, nonePromoted, noneOverdue, same⟩

end Staffing
