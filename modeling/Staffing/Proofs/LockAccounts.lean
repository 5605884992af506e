import Staffing.Proofs.Leftovers
import Staffing.Proofs.LockEvents

/-!
# The log accounts for locks

The log tells once of every lock that it was made, and once that it was confirmed if it was. It
tells once that the lock was released, unless a promotion has released it that was not decided by
it: of this the log tells nothing.

* `Tables.confirmedIds` — the locks that are confirmed
* `Run.seenConfirmed` — the locks that have been confirmed
* `Lock.EndIsTold` — the lock was released, and the log tells of it
* `Tables.Accounts` — how the log stands to the locks
* `Tables.Accounts.turn`, `Run.accounts` — every operation, and so every run, keeps it so
* `lock_events_account` — what the log tells of a lock, and when
-/

namespace Staffing

variable {t u : Tables} {e : Engine} {past : List (Engine × Operation)}
  {decided seen : List String}

/-- The lock was released, and if a promotion has released it, then it was one of those that
decided. -/
def Lock.EndIsTold (decided : List String) (l : Lock) : Prop :=
  l.status = .released ∧ (l.reason = some .promoted → l.id ∈ decided)

instance (decided : List String) (l : Lock) : Decidable (l.EndIsTold decided) :=
  inferInstanceAs (Decidable (_ ∧ _))

namespace Tables

/-- The ids of the locks that are confirmed. -/
def confirmedIds (t : Tables) : List String :=
  (t.locks.filter (·.status = .confirmed)).map (·.id)

theorem mem_confirmedIds {id : String} :
    id ∈ t.confirmedIds ↔ ∃ l ∈ t.locks, l.status = .confirmed ∧ l.id = id := by
  unfold confirmedIds
  simp only [List.mem_map, List.mem_filter, decide_eq_true_eq, and_assoc]

/-- The log accounts for the lock: how often it tells of it, and what else is known of it. `decided`
are the locks by which promotions were decided, and `seen` those that have been confirmed. -/
structure AccountsFor (t : Tables) (decided seen : List String) (l : Lock) : Prop where
  created : t.told .created l.id = 1
  confirmed : t.told .confirmed l.id = if l.id ∈ seen then 1 else 0
  ended : t.told .ended l.id = if l.EndIsTold decided then 1 else 0
  isSeen : l.status = .confirmed → l.id ∈ seen
  notHeld : l.id ∈ seen → l.status ≠ .held
  hasDecided : l.id ∈ decided → l.status = .released

/-- The log accounts for every lock, and whatever is told or known is of a stored lock. -/
structure Accounts (t : Tables) (decided seen : List String) : Prop where
  each : ∀ l ∈ t.locks, t.AccountsFor decided seen l
  named : ∀ event ∈ t.lockEvents, ∀ id ∈ event.lockIds, ∃ l ∈ t.locks, l.id = id
  seenStored : ∀ id ∈ seen, ∃ l ∈ t.locks, l.id = id
  decidedStored : ∀ id ∈ decided, ∃ l ∈ t.locks, l.id = id

/-! ## One lock -/

namespace AccountsFor

variable {l l' : Lock} {deciding : List String}

/-- A stored lock has been confirmed if it had been before or is now. -/
theorem mem_seen_append (nodup : (u.locks.map (·.id)).Nodup) (hl : l ∈ u.locks) :
    l.id ∈ seen ++ u.confirmedIds ↔ l.id ∈ seen ∨ l.status = .confirmed := by
  rw [List.mem_append, mem_confirmedIds]
  refine or_congr_right ⟨fun ⟨k, hk, confirmed, same⟩ => ?_, fun confirmed => ?_⟩
  · exact List.inj_on_of_nodup_map nodup hk hl same ▸ confirmed
  · exact ⟨l, hl, confirmed, rfl⟩

/-- Nothing becomes of the lock, and nothing is told of it. -/
theorem stay (h : t.AccountsFor decided seen l) (nodup : (u.locks.map (·.id)).Nodup)
    (hl : l ∈ u.locks) (told : ∀ news, u.told news l.id = t.told news l.id)
    (undecided : l.id ∉ deciding) :
    u.AccountsFor (decided ++ deciding) (seen ++ u.confirmedIds) l := by
  have same : l.id ∈ seen ++ u.confirmedIds ↔ l.id ∈ seen :=
    (mem_seen_append nodup hl).trans (or_iff_left_of_imp h.isSeen)
  have decides : l.id ∈ decided ++ deciding ↔ l.id ∈ decided :=
    List.mem_append.trans (or_iff_left undecided)
  constructor
  · exact (told _).trans h.created
  · rw [told, h.confirmed]
    exact if_congr same.symm rfl rfl
  · rw [told, h.ended]
    exact if_congr (and_congr_right' (imp_congr_right fun _ => decides.symm)) rfl rfl
  · exact fun confirmed => same.mpr (h.isSeen confirmed)
  · exact fun again => h.notHeld (same.mp again)
  · exact fun again => h.hasDecided (decides.mp again)

/-- The lock is new, and the log tells that it was made. -/
theorem create (nodup : (u.locks.map (·.id)).Nodup) (hl : l ∈ u.locks) (held : l.status = .held)
    (unseen : l.id ∉ seen) (undecided : l.id ∉ decided)
    (told : ∀ news, u.told news l.id = if news = .created then 1 else 0) :
    u.AccountsFor decided (seen ++ u.confirmedIds) l := by
  have none : l.id ∉ seen ++ u.confirmedIds := by
    rw [mem_seen_append nodup hl, held]
    exact fun h => h.elim unseen fun never => by cases never
  constructor
  · exact told _
  · exact (told _).trans (if_neg none).symm
  · refine (told _).trans (if_neg fun ends => ?_).symm
    cases held.symm.trans ends.1
  · exact fun confirmed => by cases held.symm.trans confirmed
  · exact fun again => absurd again none
  · exact fun again => absurd again undecided

/-- The lock is confirmed, and the log tells of it. -/
theorem confirm (h : t.AccountsFor decided seen l) (nodup : (u.locks.map (·.id)).Nodup)
    (hl' : l' ∈ u.locks) (same : l'.id = l.id) (held : l.status = .held)
    (confirmed : l'.status = .confirmed)
    (told : ∀ news, u.told news l.id = t.told news l.id + if news = .confirmed then 1 else 0) :
    u.AccountsFor decided (seen ++ u.confirmedIds) l' := by
  have isSeen : l'.id ∈ seen ++ u.confirmedIds := (mem_seen_append nodup hl').mpr (.inr confirmed)
  constructor
  · rw [same, told, h.created]
    rfl
  · rw [if_pos isSeen, same, told, h.confirmed, if_neg fun again => h.notHeld again held]
    rfl
  · have unended : ¬ l.EndIsTold decided := fun ends => by cases held.symm.trans ends.1
    have unended' : ¬ l'.EndIsTold decided := fun ends => by cases confirmed.symm.trans ends.1
    rw [same, told, h.ended, if_neg unended, if_neg unended']
    rfl
  · exact fun _ => isSeen
  · rw [confirmed]
    exact fun _ never => by cases never
  · exact fun again => by cases held.symm.trans (h.hasDecided (same ▸ again))

/-- The lock is released, and the log tells of it or not. -/
theorem finish (h : t.AccountsFor decided seen l) (nodup : (u.locks.map (·.id)).Nodup)
    (hl' : l' ∈ u.locks) (same : l'.id = l.id) (live : l.status ≠ .released)
    (released : l'.status = .released) {isTold : Prop} [Decidable isTold]
    (tells : isTold ↔ (l'.reason = some .promoted → l.id ∈ deciding))
    (told : ∀ news, u.told news l.id
      = t.told news l.id + if news = .ended ∧ isTold then 1 else 0) :
    u.AccountsFor (decided ++ deciding) (seen ++ u.confirmedIds) l' := by
  have isSeen : l.id ∈ seen ++ u.confirmedIds ↔ l.id ∈ seen := by
    rw [← same, mem_seen_append nodup hl', released]
    exact or_iff_left fun never => by cases never
  have undecided : l.id ∉ decided := fun again => live (h.hasDecided again)
  have ends : l'.EndIsTold (decided ++ deciding) ↔ isTold := by
    unfold Lock.EndIsTold
    rw [tells, same, List.mem_append, or_iff_right undecided]
    exact and_iff_right released
  constructor
  · rw [same, told, h.created]
    rfl
  · rw [same, told, h.confirmed]
    exact if_congr isSeen.symm rfl rfl
  · rw [same, told, h.ended, if_neg fun ends => live ends.1, Nat.zero_add]
    exact if_congr ((and_iff_right rfl).trans ends.symm) rfl rfl
  · exact fun confirmed => by cases released.symm.trans confirmed
  · rw [released]
    exact fun _ never => by cases never
  · exact fun _ => released

end AccountsFor

/-! ## All locks -/

namespace Accounts

variable {locks' : List Lock} {events : List Event} {deciding : List String}

theorem empty : Accounts {} [] [] := by
  constructor <;> exact fun _ never => absurd never List.not_mem_nil

/-- Of a lock that is not stored nothing is told. -/
theorem told_of_unknown (h : t.Accounts decided seen) {id : String}
    (unknown : ∀ l ∈ t.locks, l.id ≠ id) (news : LockNews) : t.told news id = 0 := by
  refine List.countP_eq_zero.mpr fun event told tells => ?_
  obtain ⟨l, hl, same⟩ := h.named event told id
    (List.contains_iff_mem.mp (Bool.and_eq_true_iff.mp tells).2)
  exact unknown l hl same

/-- More is told, of stored locks, and the log accounts for each lock. -/
theorem next (h : t.Accounts decided seen)
    (tells : u.lockEvents = t.lockEvents ++ events.filter (·.lockNews?.isSome))
    (stays : ∀ l ∈ t.locks, ∃ l' ∈ u.locks, l'.id = l.id)
    (names : ∀ event ∈ events, ∀ id ∈ event.lockIds, ∃ l ∈ u.locks, l.id = id)
    (decides : ∀ id ∈ deciding, ∃ l ∈ u.locks, l.id = id)
    (each : ∀ l ∈ u.locks, u.AccountsFor (decided ++ deciding) (seen ++ u.confirmedIds) l) :
    u.Accounts (decided ++ deciding) (seen ++ u.confirmedIds) := by
  have still : ∀ id, (∃ l ∈ t.locks, l.id = id) → ∃ l ∈ u.locks, l.id = id := by
    rintro _ ⟨l, hl, rfl⟩
    exact stays l hl
  constructor
  · exact each
  · intro event told id hid
    rw [tells] at told
    rcases List.mem_append.mp told with old | new
    · exact still id (h.named event old id hid)
    · exact names event (List.mem_filter.mp new).1 id hid
  · intro id hid
    rcases List.mem_append.mp hid with old | new
    · exact still id (h.seenStored id old)
    · obtain ⟨l, hl, -, own⟩ := mem_confirmedIds.mp new
      exact ⟨l, hl, own⟩
  · intro id hid
    rcases List.mem_append.mp hid with old | new
    · exact still id (h.decidedStored id old)
    · exact decides id new

/-- New locks are held, and the log tells that they were made. -/
theorem create (h : t.Accounts decided seen) {made : List Lock} {jobId : String} {units : Nat}
    (nodup : (u.locks.map (·.id)).Nodup) (left : u.locks = t.locks ++ made.map Lock.stored)
    (held : ∀ l ∈ made, l.status = .held)
    (tells : u.lockEvents = t.lockEvents
      ++ [Event.locksCreated jobId (made.map (·.id)) units].filter (·.lockNews?.isSome)) :
    u.Accounts (decided ++ []) (seen ++ u.confirmedIds) := by
  -- The new ids are not among the old ones.
  have fresh : ∀ l ∈ t.locks, ∀ k ∈ made, l.id ≠ k.id := by
    intro l hl k hk same
    rw [left, List.map_append] at nodup
    exact List.disjoint_of_nodup_append nodup (List.mem_map_of_mem hl)
      (List.mem_map.mpr ⟨k.stored, List.mem_map_of_mem hk, same.symm⟩)
  have told := told_of_append tells
  have old : ∀ l ∈ t.locks, l ∈ u.locks := fun l hl => left ▸ List.mem_append_left _ hl
  have new : ∀ k ∈ made, k.stored ∈ u.locks :=
    fun k hk => left ▸ List.mem_append_right _ (List.mem_map_of_mem hk)
  refine h.next tells (fun l hl => ⟨l, old l hl, rfl⟩) ?_
    (fun _ never => absurd never List.not_mem_nil) fun l hl => ?_
  · intro event told id hid
    rw [List.mem_singleton.mp told] at hid
    obtain ⟨k, hk, rfl⟩ := List.mem_map.mp hid
    exact ⟨k.stored, new k hk, rfl⟩
  · rcases List.mem_append.mp (left ▸ hl) with before | added
    · refine (h.each l before).stay nodup hl (fun news => ?_) List.not_mem_nil
      have other : l.id ∉ made.map (·.id) := fun again => by
        obtain ⟨k, hk, same⟩ := List.mem_map.mp again
        exact fresh l before k hk same.symm
      rw [told]
      simp [Event.tells, Event.lockIds, other]
    · obtain ⟨k, hk, rfl⟩ := List.mem_map.mp added
      have unknown : ∀ l ∈ t.locks, l.id ≠ k.id := fun l hl => fresh l hl k hk
      rw [List.append_nil]
      refine .create nodup hl (held k hk) (fun again => ?_) (fun again => ?_) fun news => ?_
      · obtain ⟨l, hl, same⟩ := h.seenStored _ again
        exact unknown l hl same
      · obtain ⟨l, hl, same⟩ := h.decidedStored _ again
        exact unknown l hl same
      · have own : k.id ∈ made.map (·.id) := List.mem_map_of_mem hk
        show u.told news k.id = _
        rw [told, h.told_of_unknown unknown]
        cases news <;> simp [Event.tells, Event.lockNews?, Event.lockIds, own]

/-- Held locks are confirmed, and the log tells of them. -/
theorem confirm (h : t.Accounts decided seen) {ids : List String} {jobId : String}
    (nodup : (u.locks.map (·.id)).Nodup)
    (moves : LocksMove ids .confirmed none t.locks u.locks)
    (tells : u.lockEvents = t.lockEvents
      ++ [Event.locksConfirmed jobId ids].filter (·.lockNews?.isSome)) :
    u.Accounts (decided ++ []) (seen ++ u.confirmedIds) := by
  have told := told_of_append tells
  refine h.next tells (fun l => moves.exists_mem) (fun event told id hid => ?_)
    (fun _ never => absurd never List.not_mem_nil) fun l' hl' => ?_
  · rw [List.mem_singleton.mp told] at hid
    exact moves.still id hid
  · obtain ⟨l, hl, goes⟩ := moves.mem_cases hl'
    have account := h.each l hl
    by_cases moved : l.id ∈ ids
    · obtain ⟨held, confirmed, -⟩ := goes.moves moved
      rw [List.append_nil]
      refine account.confirm nodup hl' goes.id ?_ confirmed fun news => ?_
      · generalize l.status = status at held
        cases held
        rfl
      · rw [told]
        cases news <;> simp [Event.tells, Event.lockNews?, Event.lockIds, moved]
    · obtain rfl := goes.stays moved
      refine account.stay nodup hl' (fun news => ?_) List.not_mem_nil
      rw [told]
      simp [Event.tells, Event.lockIds, moved]

/-- Live locks are released, and the log tells of those in `named`. If it is a promotion, these have
decided. -/
theorem finish (h : t.Accounts decided seen) (named : List String) {ids : List String}
    {reason : ReleaseReason} (nodup : (u.locks.map (·.id)).Nodup)
    (moves : LocksMove ids .released (some reason) t.locks u.locks)
    (tells : u.lockEvents = t.lockEvents ++ events.filter (·.lockNews?.isSome))
    (counts : ∀ news id, events.countP (·.tells news id)
      = if news = .ended ∧ id ∈ named then 1 else 0)
    (names : ∀ event ∈ events, event.lockIds ⊆ named) (among : named ⊆ ids)
    (decides : deciding ⊆ named)
    (whole : ∀ id ∈ ids, id ∈ named ↔ (reason = .promoted → id ∈ deciding)) :
    u.Accounts (decided ++ deciding) (seen ++ u.confirmedIds) := by
  have told : ∀ news id, u.told news id
      = t.told news id + if news = .ended ∧ id ∈ named then 1 else 0 := fun news id => by
    rw [told_of_append tells, counts]
  refine h.next tells (fun l => moves.exists_mem)
    (fun event told id hid => moves.still id (among (names event told hid)))
    (fun id hid => moves.still id (among (decides hid))) fun l' hl' => ?_
  obtain ⟨l, hl, goes⟩ := moves.mem_cases hl'
  have account := h.each l hl
  by_cases moved : l.id ∈ ids
  · obtain ⟨live, released, because⟩ := goes.moves moved
    refine account.finish nodup hl' goes.id (fun ended => ?_) released ?_
      (fun news => told news l.id)
    · rw [ended] at live
      cases live
    · rw [because, whole l.id moved, Option.some.injEq]
  · obtain rfl := goes.stays moved
    refine account.stay nodup hl' (fun news => ?_) fun again => moved (among (decides again))
    rw [told, if_neg fun again => moved (among again.2)]
    rfl

/-- **Every turn of the locks keeps the accounts.** -/
theorem turn (h : t.Accounts decided seen) (nodup : (u.locks.map (·.id)).Nodup)
    (left : u.locks = locks') (turn : LockTurn t.locks locks' events deciding)
    (tells : u.lockEvents = t.lockEvents ++ events.filter (·.lockNews?.isSome)) :
    u.Accounts (decided ++ deciding) (seen ++ u.confirmedIds) := by
  cases turn with
  | rest =>
    refine h.next tells (fun l hl => ⟨l, left ▸ hl, rfl⟩)
      (fun _ never => absurd never List.not_mem_nil)
      (fun _ never => absurd never List.not_mem_nil) fun l hl => ?_
    exact (h.each l (left ▸ hl)).stay nodup hl (fun news => told_of_append tells news l.id)
      List.not_mem_nil
  | create held => exact h.create nodup left held tells
  | confirm moves => exact h.confirm nodup (left ▸ moves) tells
  | @release _ jobId ids reason other moves =>
    refine h.finish ids nodup (left ▸ moves) tells (fun news id => ?_) ?_
      (List.Subset.refl _) (List.nil_subset _) fun id hid => ?_
    · cases news <;> simp [Event.tells, Event.lockNews?, Event.lockIds]
    · exact fun event told => by rw [List.mem_singleton.mp told]; exact List.Subset.refl _
    · exact ⟨fun _ never => absurd never other, fun _ => hid⟩
  | @promote _ jobId ids _ providerIds teamId among moves =>
    refine h.finish deciding nodup (left ▸ moves) tells (fun news id => ?_) ?_ among
      (List.Subset.refl _) fun id _ => ?_
    · cases news <;> simp [List.countP_cons, Event.tells, Event.lockNews?, Event.lockIds]
    · exact List.forall_mem_cons.mpr ⟨List.Subset.refl _, fun event told => by
        rw [List.mem_singleton.mp told]
        exact List.nil_subset _⟩
    · exact ⟨fun decides _ => decides, fun decides => decides rfl⟩

end Accounts

end Tables

/-! ## Runs -/

namespace Run

/-- The ids of the locks that some state of the run has shown as confirmed. -/
def seenConfirmed (past : List (Engine × Operation)) (e : Engine) : List String :=
  (past.map (·.1) ++ [e]).flatMap fun e => e.store.tables.confirmedIds

theorem seenConfirmed_append (past : List (Engine × Operation)) (e e' : Engine) (op : Operation) :
    seenConfirmed (past ++ [(e, op)]) e'
      = seenConfirmed past e ++ e'.store.tables.confirmedIds := by
  unfold seenConfirmed
  rw [List.map_append, List.flatMap_append, List.flatMap_singleton]
  rfl

/-- **The log accounts for the locks after every run.** -/
theorem accounts (run : Run past e) :
    e.store.tables.Accounts (promoted past) (seenConfirmed past e) := by
  refine (run.induct (P := fun past e =>
    e.Ready ∧ e.store.tables.Accounts (promoted past) (seenConfirmed past e)) ?_ ?_).2
  · intro e empty idle quiet
    refine ⟨⟨idle, empty ▸ .empty, quiet⟩, ?_⟩
    have none : seenConfirmed [] e = [] := by
      show e.store.tables.confirmedIds ++ [] = []
      rw [empty]
      rfl
    rw [none, empty]
    exact .empty
  · rintro past e op ⟨ready, h⟩ admissible
    have ready' := (op.steps ready admissible Operation.eq_of_instant?).2
    obtain ⟨now, events, tells, turn⟩ := op.turnsLocks ready admissible
    obtain ⟨-, locks, lockEvents⟩ := Engine.dispatch_lockEvents now events (op.settled e)
    rw [← tells.tells] at locks lockEvents
    rw [tells.untold] at lockEvents
    rw [seenConfirmed_append, promoted_append]
    exact ⟨ready', h.turn ready'.keyed.locks locks turn lockEvents⟩

end Run

/-- **What the log tells of locks.** After every run, every lock that a state of the run has shown
is still stored. Of every stored lock the log tells once that it was made; once that it was
confirmed if it has ever been, and else never; and once that it was released if it is, and else
never. But it tells nothing of the release of a lock that a promotion has released without being
decided by it. The log tells of stored locks only. An operation first commits its transaction, by
which the locks are as it leaves them, and only then tells of them. -/
theorem lock_events_account (run : Run past e) :
    (∀ e₀ ∈ past.map (·.1), ∀ l ∈ e₀.store.tables.locks, ∃ l' ∈ e.store.tables.locks,
        l'.id = l.id) ∧
      (∀ l ∈ e.store.tables.locks,
        e.store.tables.told .created l.id = 1 ∧
        e.store.tables.told .confirmed l.id = (if l.id ∈ Run.seenConfirmed past e then 1 else 0) ∧
        e.store.tables.told .ended l.id = if l.EndIsTold (Run.promoted past) then 1 else 0) ∧
      (∀ event ∈ e.store.tables.lockEvents, ∀ id ∈ event.lockIds, ∃ l ∈ e.store.tables.locks,
        l.id = id) ∧
      ∀ made ∈ past, ∃ now events, made.2.TellsOf made.1 now events ∧
        (made.2.after made.1).store.tables.locks = (made.2.settled made.1).store.tables.locks := by
  have accounts := run.accounts
  refine ⟨fun e₀ he₀ l hl => ?_, fun l hl => ?_, accounts.named, fun made hmade => ?_⟩
  · obtain ⟨⟨e₀, op⟩, made, rfl⟩ := List.mem_map.mp he₀
    obtain ⟨l', hl', becomes, -⟩ := run.lock_becomes made hl
    exact ⟨l', hl', becomes.id⟩
  · obtain ⟨created, confirmed, ended, -⟩ := accounts.each l hl
    exact ⟨created, confirmed, ended⟩
  · obtain ⟨e₀, op⟩ := made
    obtain ⟨before, run', admissible, -⟩ := run.until_made hmade
    obtain ⟨now, events, tells, -⟩ := op.turnsLocks run'.ready admissible
    refine ⟨now, events, tells, ?_⟩
    rw [tells.tells]
    exact (Engine.dispatch_lockEvents now events (op.settled e₀)).2.1

/-- A job with confirmed locks on two teams is promoted. Both are released, and one of them was not
among those that decided. -/
theorem Sample.lockedTwice_promoted : ∃ past e, Run past e ∧ ∃ l ∈ e.store.tables.locks,
    ∃ k ∈ e.store.tables.locks, l.id ≠ k.id ∧
      (l.id ∈ Run.seenConfirmed past e ∧ l.EndIsTold (Run.promoted past)) ∧
      (k.id ∈ Run.seenConfirmed past e ∧ k.status = .released ∧
        ¬ k.EndIsTold (Run.promoted past)) ∧ e.store.tables.told .ended k.id = 0 := by
  refine ⟨Operation.trace (Sample.lockedTwice ++ [.promote (idText "job" 2) 0]) Sample.engine,
    Operation.afterAll (Sample.lockedTwice ++ [.promote (idText "job" 2) 0]) Sample.engine, ?_, ?_⟩
  · exact Run.of_operations rfl rfl (fun _ _ _ => rfl)
      (by simp [Sample.lockedTwice, Operation.IsAdmissible])
  · decide +kernel

/-- Of the one lock everything is told once, and of the release of the other nothing. -/
theorem lock_events_account_lockedTwice : ∃ past e, Run past e ∧ ∃ l ∈ e.store.tables.locks,
    ∃ k ∈ e.store.tables.locks, l.id ≠ k.id ∧
      (l.status = .released ∧ ∀ news, e.store.tables.told news l.id = 1) ∧
      (k.status = .released ∧ ∀ news, e.store.tables.told news k.id
        = if news = .ended then 0 else 1) := by
  obtain ⟨past, e, run, l, hl, k, hk, other, ⟨seen, ends⟩, ⟨seen', released, unended⟩, -⟩ :=
    Sample.lockedTwice_promoted
  obtain ⟨-, each, -⟩ := lock_events_account run
  obtain ⟨created, confirmed, ended⟩ := each l hl
  obtain ⟨created', confirmed', ended'⟩ := each k hk
  rw [if_pos seen] at confirmed
  rw [if_pos seen'] at confirmed'
  rw [if_pos ends] at ended
  rw [if_neg unended] at ended'
  refine ⟨past, e, run, l, hl, k, hk, other, ⟨ends.1, fun news => ?_⟩, released, fun news => ?_⟩
  · cases news <;> assumption
  · cases news <;> assumption

/-- So the log does not tell of every release. -/
theorem not_every_release_told : ¬ ∀ (past : List (Engine × Operation)) (e : Engine), Run past e →
    ∀ l ∈ e.store.tables.locks, l.status = .released ↔ e.store.tables.told .ended l.id = 1 := by
  intro always
  obtain ⟨past, e, run, l, hl, k, hk, other, -, ⟨-, released, -⟩, untold⟩ :=
    Sample.lockedTwice_promoted
  have told := (always past e run k hk).mp released
  rw [untold] at told
  cases told

end Staffing
