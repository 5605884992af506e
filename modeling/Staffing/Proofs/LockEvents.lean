import Staffing.Proofs.Demand
import Staffing.Proofs.LockHistory

/-!
# Events that tell of locks

An operation works on locks in one transaction. When that is over it tells what has become of the
locks: that they have been made, confirmed or released, or that a promotion was decided by them. All
other operations leave the locks alone and tell nothing of them.

* `LockNews`, `Tables.told` — what the log tells of a lock, and how often
* `LocksMove` — some locks go to another status
* `LockTurn` — what an operation does to the locks, and by which events it tells of that
* `Operation.settled`, `Operation.TellsOf` — the engine between the transaction and its events
* `Operation.turnsLocks` — every operation is a turn of the locks, and tells of it afterwards
-/

namespace Staffing

variable {now : Instant} {t t' : Tables} {s s' : Store} {e e' : Engine} {α β : Type}
  {ids : List String} {status : LockStatus} {reason : Option ReleaseReason}
  {locks locks' locks'' : List Lock}

/-! ## What the log tells -/

/-- What is told of a lock. -/
inductive LockNews where
  | created
  | confirmed
  /-- It has been released, or a promotion was decided by it. -/
  | ended
  deriving DecidableEq

namespace Event

/-- What the event tells of locks. -/
def lockNews? : Event → Option LockNews
  | locksCreated .. => some .created
  | locksConfirmed .. => some .confirmed
  | locksReleased .. | locksPromoted .. => some .ended
  | _ => none

/-- Does the event tell this of the lock? -/
def tells (news : LockNews) (lockId : String) (e : Event) : Bool :=
  e.lockNews? = some news && e.lockIds.contains lockId

end Event

namespace Tables

/-- The events of the log that tell of locks, oldest first. -/
def lockEvents (t : Tables) : List Event :=
  (t.log.filterMap (·.event?)).filter (·.lockNews?.isSome)

/-- How many events of the log tell this of the lock. -/
def told (t : Tables) (news : LockNews) (lockId : String) : Nat :=
  t.lockEvents.countP (·.tells news lockId)

/-- More has been told. -/
theorem told_of_append {events : List Event}
    (tells : t'.lockEvents = t.lockEvents ++ events.filter (·.lockNews?.isSome))
    (news : LockNews) (lockId : String) :
    t'.told news lockId = t.told news lockId + events.countP (·.tells news lockId) := by
  unfold told
  rw [tells, List.countP_append, List.countP_filter]
  refine congrArg (t.lockEvents.countP _ + ·) (List.countP_congr fun event _ => ?_)
  unfold Event.tells
  cases event.lockNews? <;> simp

/-- Locks are the same, and nothing has been told of them. -/
structure SameLocks (t t' : Tables) : Prop where
  locks : t'.locks = t.locks
  lockEvents : t'.lockEvents = t.lockEvents

theorem SameLocks.refl (t : Tables) : t.SameLocks t := ⟨rfl, rfl⟩

theorem SameLocks.trans (t t' t'' : Tables) (h : t.SameLocks t') (h' : t'.SameLocks t'') :
    t.SameLocks t'' where
  locks := h'.locks.trans h.locks
  lockEvents := h'.lockEvents.trans h.lockEvents

theorem RosterGrows.sameLocks (h : t.RosterGrows t') : t.SameLocks t' := by
  rw [h.others]
  exact ⟨rfl, rfl⟩

theorem OnlyPlans.sameLocks (h : t.OnlyPlans t') : t.SameLocks t' := by
  obtain ⟨_, _, rfl⟩ := h
  exact ⟨rfl, rfl⟩

theorem OnlyDemand.sameLocks (h : t.OnlyDemand t') : t.SameLocks t' := by
  obtain ⟨_, _, rfl⟩ := h
  exact ⟨rfl, rfl⟩

theorem OnlyLocks.lockEvents (h : t.OnlyLocks t') : t'.lockEvents = t.lockEvents := by
  unfold Tables.lockEvents
  rw [h.log]

end Tables

/-! ## Locks that move -/

/-- The lock goes to `status` if its id is among `ids`, and stays as it is otherwise. -/
structure Lock.Goes (ids : List String) (status : LockStatus) (reason : Option ReleaseReason)
    (l l' : Lock) : Prop where
  id : l'.id = l.id
  moves : l.id ∈ ids → l.status.MovesTo status ∧ l'.status = status ∧ l'.reason = reason
  stays : l.id ∉ ids → l' = l

/-- The locks `ids` go to `status`, and the others stay as they are. -/
structure LocksMove (ids : List String) (status : LockStatus) (reason : Option ReleaseReason)
    (locks locks' : List Lock) : Prop where
  each : ∃ f : Lock → Lock, locks' = locks.map f ∧ ∀ l ∈ locks, l.Goes ids status reason (f l)
  stored : ∀ id ∈ ids, ∃ l ∈ locks, l.id = id

namespace LocksMove

theorem nil (locks : List Lock) : LocksMove [] status reason locks locks where
  each := ⟨id, (List.map_id locks).symm, fun _ _ =>
    ⟨rfl, fun never => absurd never List.not_mem_nil, fun _ => rfl⟩⟩
  stored := fun _ never => absurd never List.not_mem_nil

/-- Ids stay where they are. -/
theorem ids_eq (h : LocksMove ids status reason locks locks') :
    locks'.map (·.id) = locks.map (·.id) := by
  obtain ⟨f, rfl, goes⟩ := h.each
  rw [List.map_map]
  exact List.map_congr_left fun l hl => (goes l hl).id

/-- A lock that does not move is still there. -/
theorem mem {l : Lock} (h : LocksMove ids status reason locks locks') (hl : l ∈ locks)
    (other : l.id ∉ ids) : l ∈ locks' := by
  obtain ⟨f, rfl, goes⟩ := h.each
  exact List.mem_map.mpr ⟨l, hl, (goes l hl).stays other⟩

/-- Every lock was there before. -/
theorem mem_cases {l' : Lock} (h : LocksMove ids status reason locks locks') (hl' : l' ∈ locks') :
    ∃ l ∈ locks, l.Goes ids status reason l' := by
  obtain ⟨f, rfl, goes⟩ := h.each
  obtain ⟨l, hl, rfl⟩ := List.mem_map.mp hl'
  exact ⟨l, hl, goes l hl⟩

/-- Every lock is still there. -/
theorem exists_mem {l : Lock} (h : LocksMove ids status reason locks locks') (hl : l ∈ locks) :
    ∃ l' ∈ locks', l'.id = l.id := by
  obtain ⟨f, rfl, goes⟩ := h.each
  exact ⟨f l, List.mem_map_of_mem hl, (goes l hl).id⟩

/-- The locks that move are still there. -/
theorem still (h : LocksMove ids status reason locks locks') :
    ∀ id ∈ ids, ∃ l ∈ locks', l.id = id := by
  intro id hid
  obtain ⟨l, hl, rfl⟩ := h.stored id hid
  exact h.exists_mem hl

/-- Where none moves, all stay. -/
theorem eq_of_nil (h : LocksMove [] status reason locks locks') : locks' = locks := by
  obtain ⟨f, rfl, goes⟩ := h.each
  exact (List.map_congr_left fun l hl => (goes l hl).stays List.not_mem_nil).trans
    (List.map_id' locks)

/-- One lock is given another state. -/
theorem single {l : Lock} {expiresAt : Instant} (nodup : (t.locks.map (·.id)).Nodup)
    (hl : l ∈ t.locks) (moves : l.status.MovesTo status) :
    LocksMove [l.id] status reason t.locks
      (t.setLockState l.id status reason expiresAt now).locks where
  each := by
    refine ⟨_, rfl, fun k hk => ?_⟩
    by_cases own : (k.id == l.id) = true
    · obtain rfl := List.inj_on_of_nodup_map nodup hk hl (beq_iff_eq.mp own)
      rw [if_pos own]
      exact ⟨rfl, fun _ => ⟨moves, rfl, rfl⟩,
        fun other => absurd (List.mem_singleton_self _) other⟩
    · rw [if_neg own]
      exact ⟨rfl, fun again => absurd (beq_iff_eq.mpr (List.mem_singleton.mp again)) own,
        fun _ => rfl⟩
  stored := fun id hid => ⟨l, hl, (List.mem_singleton.mp hid).symm⟩

/-- First one lock moves, and then others. -/
theorem cons {id : String} (first : LocksMove [id] status reason locks locks')
    (others : LocksMove ids status reason locks' locks'') (new : id ∉ ids) :
    LocksMove (id :: ids) status reason locks locks'' where
  each := by
    obtain ⟨f, rfl, goes⟩ := first.each
    obtain ⟨g, rfl, goes'⟩ := others.each
    refine ⟨g ∘ f, List.map_map, fun l hl => ?_⟩
    have move := goes l hl
    have move' := goes' (f l) (List.mem_map_of_mem hl)
    refine ⟨move'.id.trans move.id, fun moved => ?_, fun other => ?_⟩
    · rcases List.mem_cons.mp moved with rfl | later
      · obtain ⟨moves, left⟩ := move.moves (List.mem_singleton_self _)
        rw [Function.comp_apply, move'.stays (move.id ▸ new)]
        exact ⟨moves, left⟩
      · have stays := move.stays fun same => new (List.mem_singleton.mp same ▸ later)
        have moves := move'.moves
        rw [stays] at moves
        rw [Function.comp_apply, stays]
        exact moves later
    · rw [List.mem_cons, not_or] at other
      have stays := move.stays fun same => other.1 (List.mem_singleton.mp same)
      have stays' := move'.stays
      rw [stays] at stays'
      rw [Function.comp_apply, stays]
      exact stays' other.2
  stored := by
    refine List.forall_mem_cons.mpr ⟨first.stored id (List.mem_singleton_self _), fun k hk => ?_⟩
    obtain ⟨l, hl, rfl⟩ := others.stored k hk
    have same : l.id ∈ locks.map (·.id) := first.ids_eq ▸ List.mem_map_of_mem hl
    exact List.mem_map.mp same

/-- A loop over locks, each of which moves. -/
theorem of_collect {w : Lock → Work β}
    (hw : ∀ l s b s', (s.tables.locks.map (·.id)).Nodup → l ∈ s.tables.locks →
      l.status.MovesTo status → w l s = .ok b s' →
        LocksMove [l.id] status reason s.tables.locks s'.tables.locks)
    {items : List Lock} {answers : List β} (nodup : (s.tables.locks.map (·.id)).Nodup)
    (distinct : (items.map (·.id)).Nodup)
    (ready : ∀ l ∈ items, l ∈ s.tables.locks ∧ l.status.MovesTo status)
    (h : Work.collect w items s = .ok answers s') :
    LocksMove (items.map (·.id)) status reason s.tables.locks s'.tables.locks := by
  induction items generalizing s answers with
  | nil =>
    obtain ⟨-, rfl⟩ := pure_eq_ok.mp h
    exact nil _
  | cons l rest ih =>
    obtain ⟨b, s₁, first, h⟩ := bind_eq_ok.mp h
    obtain ⟨bs, s₂, others, h⟩ := bind_eq_ok.mp h
    obtain ⟨-, rfl⟩ := pure_eq_ok.mp h
    obtain ⟨new, distinctRest⟩ := List.nodup_cons.mp distinct
    obtain ⟨hl, moves⟩ := ready l List.mem_cons_self
    have move := hw l _ _ _ nodup hl moves first
    refine move.cons (ih (move.ids_eq ▸ nodup) distinctRest (fun k hk => ?_) others) new
    -- The locks still to come have other ids, so they have not moved.
    obtain ⟨stored, moves⟩ := ready k (List.mem_cons_of_mem _ hk)
    refine ⟨move.mem stored fun same => new ?_, moves⟩
    exact List.mem_map.mpr ⟨k, hk, List.mem_singleton.mp same⟩

end LocksMove

/-! ## The transactions -/

namespace Locks

/-- A lock on a team is new and held. -/
theorem createOnTeam_holds {j : Job} {teamId : String} {units : Option Nat} {expiresAt : Instant}
    (h : createOnTeam j teamId units expiresAt now s = .ok locks s') :
    s'.tables.locks = s.tables.locks ++ locks.map Lock.stored ∧ ∀ l ∈ locks, l.status = .held := by
  unfold createOnTeam at h
  simp only [bind_eq_ok, Work.ofExcept_eq_ok, Work.found_eq_ok, Work.guard_eq_ok, Work.run_eq_ok,
    Work.write_eq_ok, pure_eq_ok] at h
  obtain ⟨_, s, ⟨-, rfl⟩, slot, s₁, ensured, row, _, read, plan, s₂, ⟨rfl, rfl⟩, -, id, s₃, drawn,
    _, _, ⟨t, done, rfl⟩, _, _, rfl, rfl, rfl⟩ := h
  obtain ⟨⟨_, _, tables₁⟩, -⟩ := Ledger.ensureSlotJoined_onlyPlans _ _ _ _ _ _ ensured
  obtain ⟨-, -, rfl⟩ := Work.readRow_eq_ok.mp read
  obtain ⟨tables₃, -⟩ := Work.draw_eq_ok drawn
  rw [tables₃, tables₁] at done
  obtain ⟨-, -, -, -, rfl⟩ := Tables.insertLock_eq_ok.mp done
  exact ⟨rfl, fun l hl => by rw [List.mem_singleton.mp hl]; rfl⟩

/-- Locks on providers are new and held. -/
theorem createOnProviders_holds {j : Job} {expiresAt : Instant} {seen ids : List String}
    (h : createOnProviders j expiresAt now seen ids s = .ok locks s') :
    s'.tables.locks = s.tables.locks ++ locks.map Lock.stored ∧ ∀ l ∈ locks, l.status = .held := by
  induction ids generalizing s seen locks with
  | nil =>
    obtain ⟨rfl, rfl⟩ := pure_eq_ok.mp h
    exact ⟨(List.append_nil _).symm, fun _ never => absurd never List.not_mem_nil⟩
  | cons providerId rest ih =>
    unfold createOnProviders at h
    simp only [bind_eq_ok, Work.ask_eq_ok] at h
    obtain ⟨fault, _, ⟨-, rfl⟩, h⟩ := h
    cases fault with
    | some fault => exact absurd h (Work.refuse_eq_ok.mp ·)
    | none =>
      simp only [bind_eq_ok, Work.run_eq_ok, pure_eq_ok] at h
      obtain ⟨id, s₁, drawn, _, _, ⟨t, done, rfl⟩, others, s₂, made, rfl, rfl⟩ := h
      obtain ⟨tables₁, -⟩ := Work.draw_eq_ok drawn
      rw [tables₁] at done
      obtain ⟨-, -, -, -, rfl⟩ := Tables.insertLock_eq_ok.mp done
      obtain ⟨added, held⟩ := ih made
      refine ⟨?_, List.forall_mem_cons.mpr ⟨rfl, held⟩⟩
      rw [added, List.map_cons, List.append_assoc, List.singleton_append]

theorem createJoined_holds {jobId : String} {target : LockRequestTarget} {expiresAt : Instant}
    (h : createJoined jobId target expiresAt now s = .ok locks s') :
    s'.tables.locks = s.tables.locks ++ locks.map Lock.stored ∧ ∀ l ∈ locks, l.status = .held := by
  unfold createJoined at h
  simp only [bind_eq_ok, Work.demand_eq_ok, Work.guard_eq_ok] at h
  obtain ⟨j, _, ⟨-, rfl⟩, -, h⟩ := h
  split at h
  · exact createOnTeam_holds h
  · exact absurd h (Work.refuse_eq_ok.mp ·)
  · exact createOnProviders_holds h

/-- New locks are held. -/
theorem create_holds {config : LockConfig} {actor : Actor} {jobId : String}
    {request : LockRequest} (idle : s.saved = none)
    (h : create config actor jobId request now s = .ok locks s') :
    s'.tables.locks = s.tables.locks ++ locks.map Lock.stored ∧ ∀ l ∈ locks, l.status = .held := by
  unfold create at h
  simp only [bind_eq_ok, Work.ofExcept_eq_ok] at h
  obtain ⟨_, s, ⟨-, rfl⟩, h⟩ := h
  obtain ⟨s₁, done, rfl⟩ := (Work.atomic_eq_ok idle).mp h
  have holds := createJoined_holds done
  exact holds

theorem confirmOne_moves {l c : Lock} (nodup : (s.tables.locks.map (·.id)).Nodup)
    (hl : l ∈ s.tables.locks) (moves : l.status.MovesTo .confirmed)
    (h : confirmOne now l s = .ok c s') :
    LocksMove [l.id] .confirmed none s.tables.locks s'.tables.locks := by
  unfold confirmOne at h
  simp only [bind_eq_ok, Work.write_eq_ok, pure_eq_ok] at h
  obtain ⟨_, _, rfl, -, rfl⟩ := h
  exact .single nodup hl moves

/-- The locks that a confirmation answers have been confirmed. -/
theorem confirm_moves {actor : Actor} {jobId : String} {ids : Option (List String)}
    (idle : s.saved = none) (nodup : (s.tables.locks.map (·.id)).Nodup)
    (h : confirm actor jobId ids now s = .ok locks s') :
    LocksMove (locks.map (·.id)) .confirmed none s.tables.locks s'.tables.locks := by
  obtain ⟨s₁, done, rfl⟩ := confirm_collects idle h
  obtain ⟨distinct, held⟩ := heldFor_cases nodup jobId ids
  have same : locks.map (·.id)
      = ((s.tables.locksFor jobId ids false).filter (·.status = .held)).map (·.id) := by
    refine Work.collect_answers (fun l s c s' h => ?_) done
    obtain ⟨_, _, -, h⟩ := bind_eq_ok.mp h
    rw [(pure_eq_ok.mp h).1]
    rfl
  rw [same]
  have moves := LocksMove.of_collect (s := s.begin) (fun _ _ _ _ => confirmOne_moves) nodup distinct
    (fun l hl => ⟨(held l hl).1, (held l hl).2 ▸ .confirm⟩) done
  exact moves

theorem releaseOne_moves {reason : ReleaseReason} {l r : Lock}
    (nodup : (s.tables.locks.map (·.id)).Nodup) (hl : l ∈ s.tables.locks)
    (moves : l.status.MovesTo .released) (h : releaseOne reason now l s = .ok r s') :
    LocksMove [l.id] .released (some reason) s.tables.locks s'.tables.locks := by
  rw [(releaseOne_eq_ok h).1, Tables.released_frame]
  exact .single nodup hl moves

/-- A release answers the lock as it is then. -/
theorem releaseOne_answer {reason : ReleaseReason} {l r : Lock}
    (h : releaseOne reason now l s = .ok r s') :
    r = { l with status := .released, reason := some reason, updatedAt := now } := by
  unfold releaseOne at h
  cases target : l.target.slotId? with
  | none =>
    rw [target] at h
    obtain ⟨_, _, -, h⟩ := bind_eq_ok.mp h
    exact (pure_eq_ok.mp h).1
  | some slotId =>
    rw [target] at h
    obtain ⟨_, _, -, h⟩ := bind_eq_ok.mp h
    obtain ⟨_, _, -, h⟩ := bind_eq_ok.mp h
    exact (pure_eq_ok.mp h).1

/-- A release answers the live locks of the job. -/
theorem release_answers {actor : Actor} {jobId : String} {ids : Option (List String)}
    (idle : s.saved = none) (h : release actor jobId ids now s = .ok locks s') :
    locks.map (·.id) = (s.tables.locksFor jobId ids false).map (·.id) := by
  obtain ⟨s₁, done, rfl⟩ := release_collects idle h
  refine Work.collect_answers (fun l s r s' h => ?_) done
  rw [releaseOne_answer h]

/-- The locks that a release answers have been released. -/
theorem release_moves {actor : Actor} {jobId : String} {ids : Option (List String)}
    (idle : s.saved = none) (nodup : (s.tables.locks.map (·.id)).Nodup)
    (h : release actor jobId ids now s = .ok locks s') :
    LocksMove (locks.map (·.id)) .released (some .manual) s.tables.locks s'.tables.locks := by
  rw [release_answers idle h]
  obtain ⟨s₁, done, rfl⟩ := release_collects idle h
  have moves := LocksMove.of_collect (s := s.begin) (fun _ _ _ _ => releaseOne_moves) nodup
    (locksFor_nodup nodup jobId ids false)
    (fun l hl => ⟨(mem_locksFor hl).1, Lock.isLive_moves (mem_locksFor hl).2⟩) done
  exact moves

end Locks

/-- All live locks of a promoted job are released, and those that decided are among them. -/
theorem Promotion.promote_moves {jobId : String} {answer : Option Promotion} (idle : s.saved = none)
    (keyed : s.tables.Keyed) (h : promote jobId now s = .ok answer s') :
    answer = none ∧ s'.tables = s.tables ∨ ∃ p ids, answer = some p ∧ p.promotedLockIds ⊆ ids ∧
      LocksMove ids .released (some .promoted) s.tables.locks s'.tables.locks ∧
      s'.tables.lockEvents = s.tables.lockEvents := by
  obtain ⟨-, same | ⟨p, j, choice, rows, s₁, s₂, rfl, made, rfl, decides, staffed, settled,
    tables⟩⟩ := promote_ok_cases idle keyed h
  · exact .inl same
  refine .inr ⟨p, (s.tables.locksFor j.id none false).map (·.id), rfl, ?_, ?_, ?_⟩
  · obtain ⟨-, -, -, order, -⟩ := choice?_cases keyed.toRosterKeyed decides.chosen
    rw [made]
    exact (order.trans (List.filter_sublist.map _)).subset
  · have asBefore : s₁.tables.locks = s.tables.locks := by
      rw [staffed]
      rfl
    obtain ⟨answers, collected⟩ := Work.collect_of_each settled
    rw [tables, ← asBefore]
    refine LocksMove.of_collect (fun l s b s' nodup hl moves done => ?_) (asBefore ▸ keyed.locks)
      (Locks.locksFor_nodup keyed.locks j.id none false) (fun l hl => ?_) collected
    · rw [(settle_ok_cases done).2.2.2]
      exact .single nodup hl moves
    · exact ⟨asBefore ▸ (Locks.mem_locksFor hl).1, Lock.isLive_moves (Locks.mem_locksFor hl).2⟩
  · rw [tables, (eachSettle_onlyLocks _ _ _ _ _ _ settled).1.lockEvents, staffed]
    rfl

/-! ## Calls that leave locks alone -/

namespace Engine

open Tables (SameLocks)

/-- Telling of events adds those that tell of locks, and changes no lock. -/
theorem dispatch_lockEvents (now : Instant) (events : List Event) (e : Engine) :
    (after (dispatch now events) e).store.saved = e.store.saved ∧
      (after (dispatch now events) e).store.tables.locks = e.store.tables.locks ∧
      (after (dispatch now events) e).store.tables.lockEvents
        = e.store.tables.lockEvents ++ events.filter (·.lockNews?.isSome) := by
  obtain ⟨saved, log, tables, told⟩ := dispatch_log now events e
  rw [tables]
  refine ⟨saved, rfl, ?_⟩
  unfold Tables.lockEvents
  rw [told, List.filter_append]

theorem dispatch_sameLocks {events : List Event}
    (silent : events.filter (·.lockNews?.isSome) = []) :
    (dispatch now events).Keeps SameLocks := by
  intro e idle
  obtain ⟨saved, locks, lockEvents⟩ := dispatch_lockEvents now events e
  rw [silent, List.append_nil] at lockEvents
  exact ⟨⟨locks, lockEvents⟩, saved.trans idle⟩

theorem commitChoice_sameLocks (now : Instant) (choice : Option (Job × Selection)) :
    (commitChoice now choice).Keeps SameLocks := by
  cases choice with
  | none => exact keeps_pure SameLocks.refl _
  | some choice =>
    obtain ⟨j, selection⟩ := choice
    refine keeps_bind SameLocks.trans (keeps_onStore SameLocks.refl
      ((selection.commit_onlyDemand j now).mono fun _ _ => Tables.OnlyDemand.sameLocks)
      (Work.failsClean_atomic _)) fun committed => keeps_ite ?_ (keeps_pure SameLocks.refl _)
    exact keeps_bind SameLocks.trans (dispatch_sameLocks rfl) fun _ => keeps_pure SameLocks.refl _

theorem commitSeen_sameLocks (view : Engine) (jobId : String) (now : Instant) :
    (commitSeen view jobId now).Keeps SameLocks := by
  unfold commitSeen
  split
  · exact commitChoice_sameLocks now _
  · exact fun _ idle => ⟨.refl _, idle⟩

theorem autoAssign_sameLocks (ready : e.Ready) (jobId : String) (now : Instant) :
    e.store.tables.SameLocks (after (autoAssign jobId now) e).store.tables := by
  have rests : e.Rests (after (choose jobId now) e) := rests_choose ready.quiet jobId
  rw [after_autoAssign, ← rests.store]
  exact (commitSeen_sameLocks e jobId now _ (rests.store ▸ ready.idle)).1

/-- A failed attempt at matching is no matter of locks. -/
theorem recordFailure_sameLocks (ready : e.Ready) (j : Job) (maxRetries : Nat)
    (now staleBefore : Instant) : e.store.tables.SameLocks
      (after (Sweep.recordFailure j maxRetries now staleBefore) e).store.tables := by
  obtain ⟨team, e₁, events, s', -, -, left, -, counted⟩ :=
    recordFailure_notes ready.idle ready.quiet j maxRetries now staleBefore
  rw [left]
  obtain ⟨-, locks, lockEvents⟩ := dispatch_lockEvents now events { e₁ with store := s' }
  have silent : events.filter (·.lockNews?.isSome) = [] := by
    rcases counted with ⟨rfl, -⟩ | ⟨stored, -, -, -, rfl, -⟩
    · rfl
    · refine List.filter_eq_nil_iff.mpr fun event told => ?_
      unfold Sweep.afterFailure at told
      simp only [List.mem_append, List.mem_singleton, List.mem_ite_nil_right] at told
      obtain (rfl | ⟨-, rfl⟩) | ⟨-, rfl⟩ := told <;> exact Bool.false_ne_true
  rw [silent, List.append_nil] at lockEvents
  have same : e.store.tables.SameLocks s'.tables := by
    rcases counted with ⟨-, same, -⟩ | ⟨stored, -, -, -, -, same⟩
    · exact same ▸ .refl _
    · exact same ▸ ⟨rfl, rfl⟩
  exact ⟨locks.trans same.locks, lockEvents.trans same.lockEvents⟩

/-- Telling of what was done, when there is something to tell. -/
theorem after_tell {c : Prop} [Decidable c] (now : Instant) (events : List Event) (a : α)
    (e : Engine) : after (if c then (do dispatch now events; pure a) else pure a) e
      = after (dispatch now (if c then events else [])) e := by
  split
  · exact after_bind_pure _ _ e
  · rfl

end Engine

/-! ## Operations -/

/-- What an operation does to the locks, and by which events it tells of that; `deciding` are the
locks by which it decides a promotion. -/
inductive LockTurn (locks : List Lock) : List Lock → List Event → List String → Prop
  /-- The locks stay as they are. -/
  | rest : LockTurn locks locks [] []
  /-- New locks are held. -/
  | create {made : List Lock} {jobId : String} {units : Nat} : (∀ l ∈ made, l.status = .held) →
      LockTurn locks (locks ++ made.map Lock.stored)
        [.locksCreated jobId (made.map (·.id)) units] []
  /-- Held locks are confirmed. -/
  | confirm {locks' : List Lock} {jobId : String} {ids : List String} :
      LocksMove ids .confirmed none locks locks' →
      LockTurn locks locks' [.locksConfirmed jobId ids] []
  /-- Live locks are released. -/
  | release {locks' : List Lock} {jobId : String} {ids : List String} {reason : ReleaseReason} :
      reason ≠ .promoted → LocksMove ids .released (some reason) locks locks' →
      LockTurn locks locks' [.locksReleased jobId ids reason.text] []
  /-- The live locks of a promoted job are released. Only those that decided are told of. -/
  | promote {locks' : List Lock} {jobId : String} {ids deciding providerIds : List String}
      {teamId : Option String} :
      deciding ⊆ ids → LocksMove ids .released (some .promoted) locks locks' →
      LockTurn locks locks' [.locksPromoted jobId deciding providerIds teamId,
        .jobMatched jobId providerIds teamId] deciding

namespace Operation

open Engine (onStore dispatch)

/-- The engine when the transaction of the operation is over, before anything is told of locks. An
operation that does not work on locks is over altogether then. -/
def settled (e : Engine) : Operation → Engine
  | createLocks actor jobId request =>
    Staffing.after (onStore (Locks.create e.config.locks actor jobId request e.now)) e
  | confirmLocks actor jobId ids => Staffing.after (onStore (Locks.confirm actor jobId ids e.now)) e
  | releaseLocks actor jobId ids => Staffing.after (onStore (Locks.release actor jobId ids e.now)) e
  | expireLock lockId now => Staffing.after (onStore (Locks.expire lockId now)) e
  | promote jobId now => Staffing.after (onStore (Promotion.promote jobId now)) e
  | op => op.after e

/-- When its transaction is over and committed, the operation has told nothing of locks. Then it
tells of these events, and that is all. -/
structure TellsOf (e : Engine) (op : Operation) (now : Instant) (events : List Event) : Prop where
  committed : (op.settled e).store.saved = none
  untold : (op.settled e).store.tables.lockEvents = e.store.tables.lockEvents
  tells : op.after e = Staffing.after (dispatch now events) (op.settled e)

/-- The operation turns the locks, and tells of it afterwards. -/
def TurnsLocks (e : Engine) (op : Operation) : Prop :=
  ∃ now events, op.TellsOf e now events ∧
    LockTurn e.store.tables.locks (op.settled e).store.tables.locks events (op.promoted e)

/-- An operation that leaves the locks alone. -/
theorem TurnsLocks.rest {op : Operation} (final : op.settled e = op.after e)
    (undecided : op.promoted e = []) (idle : (op.after e).store.saved = none)
    (same : e.store.tables.SameLocks (op.after e).store.tables) : op.TurnsLocks e := by
  refine ⟨0, [], ⟨final ▸ idle, final ▸ same.lockEvents, final.symm⟩, ?_⟩
  rw [final, undecided, same.locks]
  exact .rest

/-- An operation that works on locks in one transaction and then tells of it. -/
theorem TurnsLocks.of_call {op : Operation} {w : Work α} {f : α → EngineWork β} (ready : e.Ready)
    (settles : op.settled e = Staffing.after (onStore w) e)
    (calls : op.after e = Staffing.after (onStore w >>= f) e) (clean : w.FailsClean)
    (undecided : (∀ a s', w e.store ≠ .ok a s') → op.promoted e = [])
    (works : ∀ a s', w e.store = .ok a s' → s'.saved = none ∧
      s'.tables.lockEvents = e.store.tables.lockEvents ∧ ∃ now events,
        (∀ e₁, Staffing.after (f a) e₁ = Staffing.after (dispatch now events) e₁) ∧
        LockTurn e.store.tables.locks s'.tables.locks events (op.promoted e)) :
    op.TurnsLocks e := by
  cases done : w e.store with
  | error fault s' =>
    obtain ⟨same, idle⟩ := clean _ _ _ ready.idle done
    have left : op.settled e = { e with store := s' } :=
      settles.trans (after_of_error (Engine.onStore_of_error done))
    have final : op.settled e = op.after e :=
      left.trans (calls.trans (after_bind_of_error (Engine.onStore_of_error done))).symm
    refine .rest final (undecided fun a s₁ never => ?_) ?_ ?_
    · cases done.symm.trans never
    · rw [← final, left]
      exact idle
    · rw [← final, left, same]
      exact .refl _
  | ok a s' =>
    obtain ⟨idle, untold, now, events, tells, turn⟩ := works a s' done
    have left : op.settled e = { e with store := s' } :=
      settles.trans (after_of_ok (Engine.onStore_of_ok done))
    refine ⟨now, events, ⟨?_, ?_, ?_⟩, ?_⟩
    · rw [left]
      exact idle
    · rw [left]
      exact untold
    · rw [left, calls, after_bind_of_ok (Engine.onStore_of_ok done)]
      exact tells _
    · rw [left]
      exact turn

theorem createLocks_turnsLocks (ready : e.Ready) (actor : Actor) (jobId : String)
    (request : LockRequest) : (createLocks actor jobId request).TurnsLocks e := by
  refine .of_call ready rfl (after_bind_of_ok (Engine.get_apply e))
    (Engine.create_failsClean _ _ _ _ _) (fun _ => rfl) ?_
  intro locks s' done
  obtain ⟨only, saved⟩ := Locks.create_onlyLocks _ _ _ _ _ _ _ _ done
  obtain ⟨added, held⟩ := Locks.create_holds ready.idle done
  refine ⟨saved.trans ready.idle, only.lockEvents, _, _, fun e₁ => after_bind_pure _ _ e₁, ?_⟩
  rw [added]
  exact .create held

theorem confirmLocks_turnsLocks (ready : e.Ready) (actor : Actor) (jobId : String)
    (ids : Option (List String)) : (confirmLocks actor jobId ids).TurnsLocks e := by
  refine .of_call ready rfl (after_bind_of_ok (Engine.clock_apply e))
    ((Work.looks_ofExcept _).bind fun _ => Work.failsClean_atomic _) (fun _ => rfl) ?_
  intro locks s' done
  obtain ⟨only, saved⟩ := Locks.confirm_onlyLocks _ _ _ _ _ _ _ done
  have moves := Locks.confirm_moves ready.idle ready.keyed.locks done
  refine ⟨saved.trans ready.idle, only.lockEvents, _, _, fun e₁ => Engine.after_tell _ _ _ e₁, ?_⟩
  cases locks with
  | nil =>
    rw [moves.eq_of_nil]
    exact .rest
  | cons => exact .confirm moves

theorem releaseLocks_turnsLocks (ready : e.Ready) (actor : Actor) (jobId : String)
    (ids : Option (List String)) : (releaseLocks actor jobId ids).TurnsLocks e := by
  refine .of_call ready rfl (after_bind_of_ok (Engine.clock_apply e))
    ((Work.looks_ofExcept _).bind fun _ => Work.failsClean_atomic _) (fun _ => rfl) ?_
  intro locks s' done
  obtain ⟨only, saved⟩ := Locks.release_onlyLocks _ _ _ _ _ _ _ done
  have moves := Locks.release_moves ready.idle ready.keyed.locks done
  refine ⟨saved.trans ready.idle, only.lockEvents, _, _, fun e₁ => Engine.after_tell _ _ _ e₁, ?_⟩
  cases locks with
  | nil =>
    rw [moves.eq_of_nil]
    exact .rest
  | cons => exact .release (by decide) moves

theorem expireLock_turnsLocks (ready : e.Ready) (lockId : String) (now : Instant) :
    (expireLock lockId now).TurnsLocks e := by
  refine .of_call ready rfl rfl (Work.failsClean_atomic _) (fun _ => rfl) ?_
  intro answer s' done
  obtain ⟨only, saved⟩ := Locks.expire_onlyLocks _ _ _ _ _ done
  refine ⟨saved.trans ready.idle, only.lockEvents, now, ?_⟩
  obtain ⟨rfl, rfl⟩ | ⟨l, r, s₁, rfl, live, released, rfl⟩ :=
    Locks.expire_releases ready.idle done
  · exact ⟨[], fun e₁ => rfl, .rest⟩
  · have moves := Locks.releaseOne_moves (s := e.store.begin) ready.keyed.locks live.1
      (Lock.isLive_moves live.2) released
    have same : r.id = l.id := by
      rw [Locks.releaseOne_answer released]
    exact ⟨_, fun e₁ => after_bind_pure _ _ e₁, .release (by decide) (same ▸ moves)⟩

theorem promote_turnsLocks (ready : e.Ready) (jobId : String) (now : Instant) :
    (promote jobId now).TurnsLocks e := by
  refine .of_call ready rfl rfl (Work.failsClean_atomic _) (fun never => ?_) ?_
  · show Engine.promotedIds jobId now e = []
    unfold Engine.promotedIds
    cases done : Engine.promote jobId now e with
    | error => rfl
    | ok answer e₁ =>
      obtain ⟨_, _, stored, -⟩ := bind_eq_ok.mp done
      obtain ⟨s', done, -⟩ := Engine.onStore_eq_ok.mp stored
      exact absurd done (never _ s')
  · intro answer s' done
    have idle := (Promotion.promote_ok_cases ready.idle ready.keyed done).1
    have answers (e' : Engine) (promoted : Option Promotion)
        (called : Engine.promote jobId now e = .ok promoted e') :
        (promote jobId now).promoted e = (promoted.map (·.promotedLockIds)).getD [] := by
      show Engine.promotedIds jobId now e = _
      unfold Engine.promotedIds
      rw [called]
      cases promoted <;> rfl
    obtain ⟨rfl, same⟩ | ⟨p, ids, rfl, among, moves, untold⟩ :=
      Promotion.promote_moves ready.idle ready.keyed done
    · rw [same, answers _ none (bind_of_ok (Engine.onStore_of_ok done))]
      exact ⟨idle, rfl, now, [], fun e₁ => rfl, .rest⟩
    · rw [answers _ (some p) ((bind_of_ok (Engine.onStore_of_ok done)).trans
        (bind_of_ok (Engine.dispatch_apply now _ _)))]
      exact ⟨idle, untold, now, _, fun e₁ => after_bind_pure _ _ e₁, .promote among moves⟩

/-- **Every operation turns the locks,** whether it succeeds or fails. -/
theorem turnsLocks (op : Operation) (ready : e.Ready) (admissible : op.IsAdmissible) :
    op.TurnsLocks e := by
  have idle := (op.steps ready admissible eq_of_instant?).2.idle
  -- Most operations have nothing to do with locks.
  have rest {α : Type} {op : Operation} {w : EngineWork α} (final : op.settled e = op.after e)
      (calls : op.after e = Staffing.after w e) (undecided : op.promoted e = [])
      (keeps : w.Keeps Tables.SameLocks) : op.TurnsLocks e :=
    .rest final undecided (calls ▸ (keeps e ready.idle).2) (calls ▸ (keeps e ready.idle).1)
  have roster {α : Type} {op : Operation} {w : Work α} (final : op.settled e = op.after e)
      (calls : op.after e = Staffing.after (onStore w) e) (undecided : op.promoted e = [])
      (does : w.Does Tables.RosterGrows) (clean : w.FailsClean) : op.TurnsLocks e :=
    rest final calls undecided ((Engine.keeps_onStore Tables.RosterGrows.refl does clean).mono
      fun _ _ => Tables.RosterGrows.sameLocks)
  cases op with
  | createLocks actor jobId request => exact createLocks_turnsLocks ready actor jobId request
  | confirmLocks actor jobId ids => exact confirmLocks_turnsLocks ready actor jobId ids
  | releaseLocks actor jobId ids => exact releaseLocks_turnsLocks ready actor jobId ids
  | expireLock lockId now => exact expireLock_turnsLocks ready lockId now
  | promote jobId now => exact promote_turnsLocks ready jobId now
  | createJob n =>
    exact rest rfl rfl rfl ((Engine.createJob_onlyDemand n).mono
      fun _ _ => Tables.OnlyDemand.sameLocks)
  | cancelJob actor jobId =>
    exact rest rfl rfl rfl ((Engine.cancelJob_onlyDemand actor jobId).mono
      fun _ _ => Tables.OnlyDemand.sameLocks)
  | createTeam actor n =>
    exact rest rfl rfl rfl ((Engine.createTeam_grows actor n).mono
      fun _ _ => Tables.RosterGrows.sameLocks)
  | replaceTeamMembers actor teamId members =>
    exact rest rfl rfl rfl ((Engine.replaceTeamMembers_grows actor teamId members).mono
      fun _ _ => Tables.RosterGrows.sameLocks)
  | ensureSlot teamId start stop =>
    exact rest rfl rfl rfl (Engine.keeps_onStore Tables.SameLocks.refl
      ((Ledger.ensureSlot_onlyPlans teamId start stop).mono fun _ _ => Tables.OnlyPlans.sameLocks)
      (Work.failsClean_atomic _))
  | generatePlans teamId first last =>
    exact rest rfl rfl rfl (Engine.keeps_onStore Tables.SameLocks.refl
      ((Ledger.generatePlans_onlyPlans teamId first last).mono
        fun _ _ => Tables.OnlyPlans.sameLocks)
      (Ledger.generatePlans_failsClean teamId first last))
  | autoAssign jobId now =>
    exact .rest rfl rfl idle (Engine.autoAssign_sameLocks ready jobId now)
  | commitSeen view jobId now =>
    exact rest rfl rfl rfl (Engine.commitSeen_sameLocks view jobId now)
  | recordFailure j maxRetries now staleBefore =>
    exact .rest rfl rfl idle (Engine.recordFailure_sameLocks ready j maxRetries now staleBefore)
  | insertProvider p =>
    exact roster rfl rfl rfl (Store.insertProvider_does p) (Work.failsClean_atomic _)
  | replaceSlots providerId slots =>
    exact roster rfl rfl rfl (Store.replaceSlots_does providerId slots) (Work.failsClean_atomic _)
  | addTimeOff providerId w =>
    exact roster rfl rfl rfl (Work.does_run fun _ _ => Tables.addTimeOff_grows)
      (Work.failsClean_run _)
  | setRating providerId average count =>
    exact roster rfl rfl rfl (Work.does_run fun _ _ => Tables.setRating_grows)
      (Work.failsClean_run _)
  | setTeamActive teamId active =>
    exact roster rfl rfl rfl (Work.does_write (Tables.setTeamActive_grows teamId active))
      (Work.failsClean_write _)
  | serve next => exact .rest rfl rfl idle (.refl _)

end Operation

end Staffing
