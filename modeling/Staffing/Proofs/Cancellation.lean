import Staffing.Proofs.Leftovers
import Staffing.Proofs.LockEvents
import Staffing.Proofs.Narrowing

/-!
# What a cancelled job leaves booked

Cancelling a job ends its assignments, and releasing its locks gives back what they have booked. The
locks by which a promotion was decided are released already, so their units are out of reach: as
committed work they stay booked, also when the job is cancelled.

* `Tables.BooksOnly` — slots have booked the units of these locks and no others
* `Engine.releaseLocks_succeeds` — a stored job can be freed of its live locks
* `Operation.Staffs`, `Run.staffed_once` — no two operations of a run staff one job
* `Run.decided_cases` — a lock that decided did so in a promotion of its own job
* `Run.DecidedBy.not_assigned` — and no automatic assignment has staffed that job
* `cancelled_keeps_promoted_units` — what is still booked after both calls
-/

namespace Staffing

variable {now : Instant} {t : Tables} {s s' : Store} {e e' : Engine} {j : Job} {jobId : String}
  {actor : Actor} {decided : List String} {past : List (Engine × Operation)}

/-! ## What is booked -/

theorem Lock.unitsOn_filter (slotId : String) (p : Lock → Bool) (locks : List Lock) :
    unitsOn (· == slotId) (locks.filter p)
      = units (locks.filter fun l => p l && l.target.slotId? == some slotId) := by
  unfold unitsOn
  rw [List.filter_filter]
  refine congrArg units (List.filter_congr fun l _ => ?_)
  rw [Bool.and_comm]
  cases l.target.slotId? <;> rfl

namespace Tables

/-- The live locks of other jobs. -/
def othersLive (t : Tables) (jobId : String) : List Lock :=
  t.locks.filter fun l => l.isLive && l.jobId != jobId

/-- The locks by which promotions were decided. -/
def spentLocks (t : Tables) (decided : List String) : List Lock :=
  t.locks.filter fun l => decided.contains l.id

/-- Those of other jobs that have not been cancelled. -/
def othersSpent (t : Tables) (decided : List String) (jobId : String) : List Lock :=
  (t.spentLocks decided).filter fun l =>
    l.jobId != jobId && (t.job? l.jobId).any (·.status ≠ .cancelled)

/-- Slots have booked the units of these locks and no others, and plans what their slots have. -/
structure BooksOnly (t : Tables) (locks : List Lock) : Prop where
  slots : ∀ slot ∈ t.slots, slot.booked = Lock.unitsOn (· == slot.id) locks
  plans : ∀ plan ∈ t.plans, plan.booked = t.bookedOn plan.id

/-- A ledger that balances has booked nothing for a job that has no live lock, but for the units by
which promotions were decided. -/
theorem Conserves.booksOnly (h : t.Conserves decided) (none : t.locksFor jobId none false = []) :
    t.BooksOnly (t.othersLive jobId ++ t.spentLocks decided) where
  plans := h.plans
  slots := by
    intro slot hs
    have live : t.othersLive jobId = t.locks.filter (·.isLive) := by
      refine List.filter_congr fun l hl => ?_
      have ended := List.filter_eq_nil_iff.mp none l hl
      cases isLive : l.isLive with
      | false => rfl
      | true => simpa [isLive] using ended
    rw [Lock.unitsOn_append, live, spentLocks, Lock.unitsOn_filter, Lock.unitsOn_filter]
    exact h.slots slot hs

end Tables

/-! ## The calls succeed -/

namespace Locks

/-- Releasing the locks of a stored job never fails while figures stay within 32 bits. -/
theorem release_succeeds (idle : s.saved = none) (fits : s.tables.Fits)
    (may : actor.isOperational = true) (found : s.tables.job? jobId = some j)
    (ids : Option (List String)) (now : Instant) :
    ∃ locks s', release actor jobId ids now s = .ok locks s' := by
  obtain ⟨locks, s₁, released, -⟩ : ∃ locks s₁,
      Work.collect (releaseOne .manual now) (s.tables.locksFor jobId ids false) s.begin
        = .ok locks s₁ ∧ s₁.tables.Fits := by
    refine Work.collect_succeeds (fun l _ s fits => ?_) fits
    obtain ⟨s', done⟩ := releaseOne_succeeds fits .manual now l
    exact ⟨_, s', done, (releaseOne_eq_ok done).1 ▸ fits.released .manual now l⟩
  refine ⟨locks, s₁.commit, ?_⟩
  unfold release
  rw [bind_of_ok (Work.ofExcept_eq_ok.mpr
    ⟨Engine.requireOperational_eq_ok (u := ()).mpr may, rfl⟩), Work.atomic_eq_ok idle]
  refine ⟨s₁, ?_, rfl⟩
  rw [bind_of_ok (Work.demand_eq_ok.mpr ⟨found, rfl⟩), bind_of_ok (Work.ask_eq_ok.mpr ⟨rfl, rfl⟩)]
  exact released

/-- After a release of all its locks a job has no live lock. -/
theorem release_locksFor {locks : List Lock} (idle : s.saved = none)
    (nodup : (s.tables.locks.map (·.id)).Nodup)
    (h : release actor jobId none now s = .ok locks s') :
    s'.tables.locksFor jobId none false = [] := by
  have moves := release_moves idle nodup h
  rw [release_answers idle h] at moves
  refine List.filter_eq_nil_iff.mpr fun l' hl' own => ?_
  simp only [Bool.false_or, Option.all_none, Bool.and_true, Bool.and_eq_true] at own
  obtain ⟨l, hl, goes⟩ := moves.mem_cases hl'
  by_cases moved : l.id ∈ (s.tables.locksFor jobId none false).map (·.id)
  · have live := own.2
    unfold Lock.isLive at live
    rw [(goes.moves moved).2.1] at live
    cases live
  · obtain rfl := goes.stays moved
    refine moved (List.mem_map_of_mem (List.mem_filter.mpr ⟨hl, ?_⟩))
    simpa using own

end Locks

namespace Engine

/-- Telling of what was done, when there is something to tell, never fails. -/
theorem tell_apply {α : Type} {c : Prop} [Decidable c] (now : Instant) (events : List Event) (a : α)
    (e : Engine) : ∃ e', (if c then (do dispatch now events; pure a) else pure a) e = .ok a e' ∧
      e'.store.tables.locks = e.store.tables.locks := by
  split
  · obtain ⟨log, frame⟩ := dispatch_frame (e := e) now events rfl
    exact ⟨_, bind_of_ok (dispatch_apply now events e), by rw [frame]⟩
  · exact ⟨e, rfl, rfl⟩

/-- A stored job can be freed of its live locks. -/
theorem releaseLocks_succeeds (ready : e.Ready) (fits : e.store.tables.Fits)
    (may : actor.isOperational = true) (found : e.store.tables.job? jobId = some j) :
    ∃ locks e', releaseLocks actor jobId none e = .ok locks e' ∧
      e'.store.tables.locksFor jobId none false = [] := by
  obtain ⟨locks, s', released⟩ :=
    Locks.release_succeeds ready.idle fits may found none e.now
  have noneLive := Locks.release_locksFor ready.idle ready.keyed.locks released
  obtain ⟨e', told, same⟩ := tell_apply (c := (!locks.isEmpty) = true) e.now
    [.locksReleased jobId (locks.map (·.id)) ReleaseReason.manual.text] locks
    { e with store := s' }
  refine ⟨locks, e', ?_, ?_⟩
  · unfold releaseLocks
    rw [bind_of_ok (clock_apply e), bind_of_ok (onStore_of_ok released)]
    exact told
  · unfold Tables.locksFor at noneLive ⊢
    rw [same]
    exact noneLive

end Engine

/-! ## Jobs that were staffed -/

/-- The operation has staffed the job: it has found it pending, and left it so no more. -/
structure Operation.Staffs (e : Engine) (jobId : String) (op : Operation) : Prop where
  waited : ∃ j ∈ e.store.tables.jobs, j.id = jobId ∧ j.isPending = true
  settled : ∀ j ∈ (op.after e).store.tables.jobs, j.id = jobId → j.isPending = false

/-- An automatic assignment of the job has answered a choice. -/
inductive Operation.Assigns (e : Engine) (jobId : String) : Operation → Prop
  | autoAssign {now : Instant} {selection : Selection} {e' : Engine} :
      Engine.autoAssign jobId now e = .ok (some selection) e' →
      Assigns e jobId (.autoAssign jobId now)
  /-- The choice was made on the engine `view`, older or otherwise different. -/
  | commitSeen {view : Engine} {now : Instant} {selection : Selection} {e' : Engine} :
      Engine.commitSeen view jobId now e = .ok (some selection) e' →
      Assigns e jobId (.commitSeen view jobId now)

theorem Selection.Commits.waited {selection : Selection} {rows : List Assignment}
    (h : Commits t j selection now rows) :
    ∃ stored ∈ t.jobs, stored.id = j.id ∧ stored.isPending = true := by
  obtain ⟨stored, found, pending⟩ := h.found
  obtain ⟨there, own⟩ := mem_of_find?_key found
  exact ⟨stored, there, own, pending⟩

/-- An automatic assignment that has answered a choice has staffed the job. -/
theorem Operation.Assigns.staffs {op : Operation} (h : op.Assigns e jobId) (ready : e.Ready)
    (admissible : op.IsAdmissible) : op.Staffs e jobId := by
  cases h with
  | @autoAssign now selection e' done =>
    have left : (Operation.autoAssign jobId now).after e = e' := after_of_ok done
    refine ⟨?_, fun j hj => Engine.autoAssign_settles ready done (left ▸ hj)⟩
    obtain ⟨-, never⟩ | ⟨j, _, _, _, _, -, -, found, commits, -⟩ :=
      Engine.autoAssign_cases ready jobId now
    · exact absurd done (never selection e')
    · exact (mem_of_find?_key found).2 ▸ commits.waited
  | @commitSeen view now selection e' done =>
    obtain ⟨-, never⟩ | ⟨j, chosen, _, rows, s', -, found, commits, same, told⟩ :=
      Engine.commitSeen_cases ready.idle admissible.1 admissible.2 jobId now
    · exact absurd done (never selection e')
    · obtain rfl := (mem_of_find?_key found).2
      refine ⟨commits.waited, fun k hk own => ?_⟩
      obtain ⟨log, frame⟩ := Engine.dispatch_frame (e := { e with store := s' }) now
        [.jobMatched j.id chosen.providerIds chosen.teamId?] same
      have left : (Operation.commitSeen view j.id now).after e = _ := after_of_ok told
      rw [left, frame] at hk
      exact Tables.isPending_of_staffed hk own

/-- So has a promotion that has answered one. -/
theorem Engine.promote_staffs (ready : e.Ready) {p : Promotion}
    (done : Engine.promote jobId now e = .ok (some p) e') :
    (Operation.promote jobId now).Staffs e jobId := by
  have left : (Operation.promote jobId now).after e = e' := after_of_ok done
  refine ⟨?_, fun j hj => Engine.promote_settles ready done (left ▸ hj)⟩
  obtain ⟨-, never⟩ | ⟨j, hj, own, promotable, -⟩ := Engine.promote_left ready jobId now
  · exact absurd done (never p e')
  · exact ⟨j, hj, own, promotable.pending⟩

namespace Run

variable {e₁ e₂ : Engine} {op op₁ op₂ : Operation}

theorem admissible (run : Run past e) (made : (e₁, op) ∈ past) : op.IsAdmissible := by
  refine run.induct (P := fun past _ => ∀ e₁ op, (e₁, op) ∈ past → op.IsAdmissible) ?_ ?_ e₁ op made
  · exact fun _ _ _ _ _ _ never => absurd never List.not_mem_nil
  · intro past e last ih allowed e₁ op made
    rcases List.mem_append.mp made with before | here
    · exact ih e₁ op before
    · obtain ⟨-, rfl⟩ := Prod.mk.inj (List.mem_singleton.mp here)
      exact allowed

/-- A job that was staffed in the run waits no more. -/
theorem not_pending_of_staffs (run : Run past e) (made : (e₁, op) ∈ past)
    (staffs : op.Staffs e₁ jobId) : ∀ j ∈ e.store.tables.jobs, j.id = jobId →
      j.isPending = false := by
  intro j hj own
  obtain ⟨before, later, split⟩ := List.append_of_mem made
  have run₁ := run.upTo split
  obtain ⟨j₀, hj₀, own₀, -⟩ := staffs.waited
  -- The job as the operation left it waited no more, and it never waits again.
  obtain ⟨j₁, hj₁, becomes⟩ := (op.turn run₁.ready (run.admissible made)).becomes
    run₁.ready.keyed.jobs run₁.stampsWhole j₀ hj₀
  obtain ⟨j₂, hj₂, becomes'⟩ := run.after_becomes made j₁ hj₁
  have own₁ : j₁.id = jobId := becomes.id.trans own₀
  obtain rfl := List.inj_on_of_nodup_map run.ready.keyed.jobs hj hj₂
    (own.trans (becomes'.id.trans own₁).symm)
  have ended := staffs.settled j₁ hj₁ own₁
  by_contra waits
  rw [becomes'.pending (Bool.not_eq_false _ ▸ waits)] at ended
  cases ended

/-- **A job is staffed once.** No two operations of a run staff it. -/
theorem staffed_once (run : Run past e) (made₁ : (e₁, op₁) ∈ past) (made₂ : (e₂, op₂) ∈ past)
    (staffs₁ : op₁.Staffs e₁ jobId) (staffs₂ : op₂.Staffs e₂ jobId) : (e₁, op₁) = (e₂, op₂) := by
  -- Whichever comes later has found the job pending, which the earlier one has ended.
  have never {e₁ e₂ : Engine} {op₁ op₂ : Operation} {before later : List (Engine × Operation)}
      (split : past = before ++ (e₂, op₂) :: later) (earlier : (e₁, op₁) ∈ before)
      (staffs₁ : op₁.Staffs e₁ jobId) (staffs₂ : op₂.Staffs e₂ jobId) : False := by
    obtain ⟨j, hj, own, waits⟩ := staffs₂.waited
    rw [(run.upTo split).not_pending_of_staffs earlier staffs₁ j hj own] at waits
    cases waits
  obtain ⟨before, later, split⟩ := List.append_of_mem made₁
  rw [split] at made₂
  rcases List.mem_append.mp made₂ with earlier | later₂
  · exact (never split earlier staffs₂ staffs₁).elim
  · rcases List.mem_cons.mp later₂ with same | later₂
    · exact same.symm
    · obtain ⟨between, rest, split₂⟩ := List.append_of_mem later₂
      rw [split₂, ← List.cons_append, ← List.append_assoc] at split
      exact (never split (List.mem_append_right _ List.mem_cons_self) staffs₁ staffs₂).elim

end Run

/-! ## Locks that decided -/

namespace Run

/-- A promotion of the job, one of the operations so far, was decided by the lock. -/
def DecidedBy (past : List (Engine × Operation)) (jobId lockId : String) : Prop :=
  ∃ e₀ now p e', (e₀, .promote jobId now) ∈ past ∧
    Engine.promote jobId now e₀ = .ok (some p) e' ∧ lockId ∈ p.promotedLockIds

/-- A lock that decided did so in a promotion of its own job. -/
theorem decided_cases (run : Run past e) {l : Lock} (hl : l ∈ e.store.tables.locks)
    (decided : l.id ∈ promoted past) : DecidedBy past l.jobId l.id := by
  obtain ⟨⟨e₀, op⟩, made, decides⟩ := List.mem_flatMap.mp decided
  cases op with
  | promote jobId now =>
    change l.id ∈ Engine.promotedIds jobId now e₀ at decides
    unfold Engine.promotedIds at decides
    split at decides
    · next p e' done =>
      obtain ⟨before, later, split⟩ := List.append_of_mem made
      have ready := (run.upTo split).ready
      obtain ⟨s', stored, -⟩ := Engine.promote_eq_some.mp done
      obtain ⟨-, -, -, -, ofJob, -⟩ := Promotion.promote_some ready.idle stored
      -- The lock as the promotion found it was one of the job, and what it reserves for has stayed.
      obtain ⟨k, hk, same, own, -⟩ := (Engine.promote_pickedBy ready.idle done).locks l.id decides
      obtain ⟨k', hk', becomes, -⟩ := run.lock_becomes made hk
      obtain rfl : k' = l := List.inj_on_of_nodup_map run.ready.keyed.locks hk' hl
        (becomes.id.trans same)
      have ofLock : k'.jobId = jobId := becomes.jobId.trans (own.trans ofJob)
      rw [ofLock]
      exact ⟨e₀, now, p, e', made, done, decides⟩
    · exact absurd decides List.not_mem_nil
  | _ => exact absurd decides List.not_mem_nil

/-- A job that a promotion has staffed waits no more. -/
theorem DecidedBy.not_pending (run : Run past e) {lockId : String}
    (h : DecidedBy past jobId lockId) (found : e.store.tables.job? jobId = some j) :
    j.isPending = false := by
  obtain ⟨e₀, now, p, e', made, done, -⟩ := h
  obtain ⟨before, later, split⟩ := List.append_of_mem made
  obtain ⟨hj, own⟩ := mem_of_find?_key found
  exact run.not_pending_of_staffs made (Engine.promote_staffs (run.upTo split).ready done) j hj own

/-- An automatic assignment of the job, one of the operations so far, has answered a choice. -/
def Assigned (past : List (Engine × Operation)) (jobId : String) : Prop :=
  ∃ e₀ op, (e₀, op) ∈ past ∧ op.Assigns e₀ jobId

/-- No promotion of a job is decided that an automatic assignment has staffed, before or after. -/
theorem DecidedBy.not_assigned (run : Run past e) {lockId : String}
    (h : DecidedBy past jobId lockId) : ¬ Assigned past jobId := by
  rintro ⟨e₁, op, made₁, assigns⟩
  obtain ⟨e₀, now, p, e', made₀, done, -⟩ := h
  obtain ⟨before₁, _, split₁⟩ := List.append_of_mem made₁
  obtain ⟨before₀, _, split₀⟩ := List.append_of_mem made₀
  have same := run.staffed_once made₁ made₀
    (assigns.staffs (run.upTo split₁).ready (run.admissible made₁))
    (Engine.promote_staffs (run.upTo split₀).ready done)
  obtain ⟨-, rfl⟩ := Prod.mk.inj same
  cases assigns

end Run

/-! ## The whole -/

/-- **Cancelling gives back what live locks hold, and keeps what promotions have committed.** In
every state that a run reaches a stored job can be cancelled, and then be freed of all its locks. It
has no live lock after that. Slots have booked the units of the live locks of other jobs and of the
locks by which promotions were decided, and plans what their slots have. If one of the latter is a
lock of the job itself, then a promotion of the job has been decided by it. So the job was not
pending any more, and no automatic assignment has staffed it: for a job that was pending, or that
one has staffed, nothing stays booked. -/
theorem cancelled_keeps_promoted_units (run : Run past e) {canceller releaser : Actor}
    (mayCancel : canceller.isOperational = true) (mayRelease : releaser.isOperational = true)
    (found : e.store.tables.job? jobId = some j) :
    ∃ j' e₁ released e₂, Engine.cancelJob canceller jobId e = .ok j' e₁ ∧
      Engine.releaseLocks releaser jobId none e₁ = .ok released e₂ ∧
      e₂.store.tables.locksFor jobId none false = [] ∧
      e₂.store.tables.BooksOnly (e₂.store.tables.othersLive jobId
        ++ e₂.store.tables.spentLocks (Run.promoted past)) ∧
      ∀ l ∈ e₂.store.tables.spentLocks (Run.promoted past), l.jobId = jobId →
        Run.DecidedBy past jobId l.id ∧ j.isPending = false ∧ ¬ Run.Assigned past jobId := by
  obtain ⟨j', e₁, cancelled⟩ : ∃ j' e₁, Engine.cancelJob canceller jobId e = .ok j' e₁ :=
    ⟨_, _, Engine.cancelJob_apply mayCancel found⟩
  have run₁ := run.operation (.cancelJob canceller jobId) trivial
  have left₁ : (Operation.cancelJob canceller jobId).after e = e₁ := after_of_ok cancelled
  rw [left₁] at run₁
  obtain ⟨hj, own⟩ := mem_of_find?_key found
  obtain ⟨j₁, hj₁, becomes⟩ :=
    run₁.becomes (List.mem_append_right _ (List.mem_singleton_self _)) j hj
  have found₁ := (find?_key_eq_some run₁.ready.keyed.jobs).mpr ⟨hj₁, becomes.id.trans own⟩
  obtain ⟨released, e₂, releases, noneLive⟩ :=
    Engine.releaseLocks_succeeds run₁.ready run₁.sound.fits mayRelease found₁
  have run₂ := run₁.operation (.releaseLocks releaser jobId none) trivial
  have left₂ : (Operation.releaseLocks releaser jobId none).after e₁ = e₂ := after_of_ok releases
  rw [left₂] at run₂
  -- Neither call decides a promotion.
  have same : Run.promoted (past ++ [(e, .cancelJob canceller jobId)]
      ++ [(e₁, .releaseLocks releaser jobId none)]) = Run.promoted past := by
    rw [Run.promoted_append, Run.promoted_append]
    exact (List.append_nil _).trans (List.append_nil _)
  have sound := run₂.sound
  rw [same] at sound
  refine ⟨j', e₁, released, e₂, cancelled, releases, noneLive,
    (sound.balanced.conserves sound.onDay).booksOnly noneLive, fun l hl ofJob => ?_⟩
  obtain ⟨hl, decides⟩ := List.mem_filter.mp hl
  obtain ⟨e₀, now, p, e', made, done, among⟩ :=
    run₂.decided_cases hl (same ▸ List.contains_iff_mem.mp decides)
  rw [ofJob] at made done
  have decided : Run.DecidedBy past jobId l.id :=
    ⟨e₀, now, p, e', by simpa using made, done, among⟩
  exact ⟨decided, decided.not_pending run found, decided.not_assigned run⟩

/-- Of two jobs the first was staffed by a promotion. It is cancelled and freed of its locks, and
its unit stays booked beside the one that the other job holds. -/
theorem Sample.firstCancelled : ∃ past e j' e₁ released e₂, Run past e ∧
    (e.store.tables.job? (idText "job" 1)).isSome = true ∧
    Engine.cancelJob admin (idText "job" 1) e = .ok j' e₁ ∧
    Engine.releaseLocks admin (idText "job" 1) none e₁ = .ok released e₂ ∧
    e₂.store.tables.slots.map (fun s => (s.id, s.booked))
      = [(idText "slot" 4, 1), (idText "slot" 7, 1)] ∧
    (e₂.store.tables.spentLocks (Run.promoted past)).map (·.jobId) = [idText "job" 1] ∧
    Lock.unitsOn (· == idText "slot" 4) (e₂.store.tables.othersLive (idText "job" 1)
      ++ e₂.store.tables.othersSpent (Run.promoted past) (idText "job" 1)) = 0 := by
  obtain ⟨past, trace⟩ : ∃ past, past = Operation.trace twoWeeks engine := ⟨_, rfl⟩
  obtain ⟨e, left⟩ : ∃ e, e = Operation.afterAll twoWeeks engine := ⟨_, rfl⟩
  obtain ⟨e₁, left₁⟩ : ∃ e₁, e₁ = after (Engine.cancelJob admin (idText "job" 1)) e := ⟨_, rfl⟩
  obtain ⟨e₂, left₂⟩ : ∃ e₂, e₂ = after (Engine.releaseLocks admin (idText "job" 1) none) e₁ :=
    ⟨_, rfl⟩
  have run : Run past e := trace ▸ left ▸ Run.of_operations rfl rfl (fun _ _ _ => rfl)
    (by simp [twoWeeks, Operation.IsAdmissible])
  obtain ⟨cancels, releases, known, booked, spent, others⟩ :
      (answer? (Engine.cancelJob admin (idText "job" 1)) e).isSome = true ∧
      (answer? (Engine.releaseLocks admin (idText "job" 1) none) e₁).isSome = true ∧
      (e.store.tables.job? (idText "job" 1)).isSome = true ∧
      e₂.store.tables.slots.map (fun s => (s.id, s.booked))
        = [(idText "slot" 4, 1), (idText "slot" 7, 1)] ∧
      (e₂.store.tables.spentLocks (Run.promoted past)).map (·.jobId) = [idText "job" 1] ∧
      Lock.unitsOn (· == idText "slot" 4) (e₂.store.tables.othersLive (idText "job" 1)
        ++ e₂.store.tables.othersSpent (Run.promoted past) (idText "job" 1)) = 0 := by
    rw [left₂, left₁, left, trace]
    decide +kernel
  obtain ⟨j', cancelled⟩ := Option.isSome_iff_exists.mp cancels
  obtain ⟨released, freed⟩ := Option.isSome_iff_exists.mp releases
  rw [answer?_eq_some, ← left₁] at cancelled
  rw [answer?_eq_some, ← left₂] at freed
  exact ⟨past, e, j', e₁, released, e₂, run, known, cancelled, freed, booked, spent, others⟩

theorem cancelled_keeps_promoted_units_twoWeeks : ∃ past e j' e₁ released e₂, Run past e ∧
    Engine.cancelJob Sample.admin (idText "job" 1) e = .ok j' e₁ ∧
    Engine.releaseLocks Sample.admin (idText "job" 1) none e₁ = .ok released e₂ ∧
    e₂.store.tables.slots.map (fun s => (s.id, s.booked))
      = [(idText "slot" 4, 1), (idText "slot" 7, 1)] ∧
    (e₂.store.tables.spentLocks (Run.promoted past)).map (·.jobId) = [idText "job" 1] ∧
    e₂.store.tables.BooksOnly (e₂.store.tables.othersLive (idText "job" 1)
      ++ e₂.store.tables.spentLocks (Run.promoted past)) := by
  obtain ⟨past, e, j', e₁, released, e₂, run, known, cancelled, freed, booked, spent, -⟩ :=
    Sample.firstCancelled
  obtain ⟨j, found⟩ := Option.isSome_iff_exists.mp known
  have may : Sample.admin.isOperational = true := by decide
  obtain ⟨_, _, _, _, cancelled', freed', -, booksOnly, -⟩ :=
    cancelled_keeps_promoted_units run may may found
  cases cancelled.symm.trans cancelled'
  cases freed.symm.trans freed'
  exact ⟨past, e, j', e₁, released, e₂, run, cancelled, freed, booked, spent, booksOnly⟩

/-- So it is not so that nothing stays booked for a job that is cancelled and freed of its locks: a
promotion has kept its unit. -/
theorem not_always_given_back : ¬ ∀ (past : List (Engine × Operation)) (e : Engine), Run past e →
    ∀ (actor : Actor) (jobId : String) (j' : Job) (e₁ e₂ : Engine) (released : List Lock),
      Engine.cancelJob actor jobId e = .ok j' e₁ →
      Engine.releaseLocks actor jobId none e₁ = .ok released e₂ →
        e₂.store.tables.BooksOnly (e₂.store.tables.othersLive jobId
          ++ e₂.store.tables.othersSpent (Run.promoted past) jobId) := by
  intro always
  obtain ⟨past, e, j', e₁, released, e₂, run, -, cancelled, freed, booked, -, others⟩ :=
    Sample.firstCancelled
  obtain ⟨slot, hs, same⟩ := List.mem_map.mp (booked ▸ List.mem_cons_self)
  obtain ⟨own, one⟩ := Prod.mk.inj same
  have none := (always past e run _ _ _ _ _ _ cancelled freed).slots slot hs
  rw [own, one, others] at none
  cases none

end Staffing
