import Staffing.Proofs.AllOrNothing
import Staffing.Proofs.LockHistory

/-!
# Promotions never fail

A promotion of a stored job either staffs it or finds nothing to do. It has nothing to do unless the
job waits, has no live assignment, and its usable locks decide who goes. Then it finds all that it
needs: members of teams and holders of locks are stored providers, and the slots to which units are
given back can be read.

* `Tables.Known`, `Run.known` — whoever a team or a lock names is a stored provider
* `Lock.ended`, `Locks.releaseOne_apply` — a lock when it is released, and what releasing one does
* `Tables.Promotable` — the job can be staffed by its locks
* `Promotion.promote_succeeds` — the transaction staffs a job exactly then
* `Run.promote_answers` — so does the call, in every state that a run reaches
-/

namespace Staffing

variable {now : Instant} {t t' : Tables} {s s' : Store} {e : Engine} {j : Job} {jobId : String}
  {past : List (Engine × Operation)}

/-! ## Who is named is stored -/

namespace Tables

/-- Whoever a team or a lock names is a stored provider. -/
structure Known (t : Tables) : Prop where
  members : t.MembersKnown
  holders : ∀ l ∈ t.locks, ∀ id, l.target = .provider id → t.hasProvider id = true

namespace Known

theorem empty : Known {} where
  members := fun _ h => absurd h List.not_mem_nil
  holders := fun _ h => absurd h List.not_mem_nil

/-- Providers and teams have not changed, and locks reserve what others did before them or a stored
provider. -/
theorem change (h : t.Known) (providers : t'.providers = t.providers) (teams : t'.teams = t.teams)
    (locks : ∀ l' ∈ t'.locks, (∃ l ∈ t.locks, l'.target = l.target) ∨
      ∀ id, l'.target = .provider id → t.hasProvider id = true) : t'.Known := by
  have same : t'.hasProvider = t.hasProvider := by
    funext id
    unfold hasProvider
    rw [providers]
  constructor
  · unfold MembersKnown
    rw [teams, same]
    exact h.members
  · rw [same]
    intro l' hl' id target
    rcases locks l' hl' with ⟨l, hl, old⟩ | stored
    · exact h.holders l hl id (old ▸ target)
    · exact stored id target

theorem setLockState (h : t.Known) (providers : t'.providers = t.providers)
    (teams : t'.teams = t.teams) {id : String} {status : LockStatus}
    {reason : Option ReleaseReason} {expiresAt : Instant}
    (locks : t'.locks = (t.setLockState id status reason expiresAt now).locks) : t'.Known := by
  refine h.change providers teams fun l' hl' => .inl ?_
  rw [locks] at hl'
  obtain ⟨l, hl, rfl⟩ := mem_updateWhere.mp hl'
  refine ⟨l, hl, ?_⟩
  split <;> rfl

end Known

end Tables

theorem Calm.known (h : Calm now t t') (known : t.Known) : t'.Known := by
  cases h with
  | roster grows =>
    refine ⟨grows.known known.members, fun l hl id target => grows.hasProvider id ?_⟩
    exact known.holders l (grows.locks ▸ hl) id target
  | @cancel jobId _ =>
    obtain ⟨f, -, frame⟩ := Tables.cancelled_frame jobId now t
    rw [frame]
    exact known.change rfl rfl fun l hl => .inl ⟨l, hl, rfl⟩
  | @holdProvider l j providerId _ _ _ target _ _ _ stored =>
    refine known.change rfl rfl fun l' hl' => ?_
    rcases List.mem_append.mp hl' with old | new
    · exact .inl ⟨l', old, rfl⟩
    · rw [List.mem_singleton.mp new]
      refine .inr fun id same => ?_
      obtain rfl : providerId = id := LockTarget.provider.inj (target.symm.trans same)
      exact stored
  | confirm => exact known.setLockState rfl rfl rfl
  | release =>
    rw [Tables.released_frame]
    exact known.setLockState rfl rfl rfl
  | _ => exact known.change rfl rfl fun l hl => .inl ⟨l, hl, rfl⟩

/-- **Every step names stored providers only.** -/
theorem Step.known {p q : Tables × List String} (h : Step now p q) (known : p.1.Known) :
    q.1.Known := by
  cases h with
  | ebb h =>
    cases h with
    | calm h => exact h.known known
    | settle => exact known.setLockState rfl rfl rfl
  | holdTeam _ _ _ _ _ target =>
    refine known.change rfl rfl fun l' hl' => ?_
    rcases List.mem_append.mp hl' with old | new
    · exact .inl ⟨l', old, rfl⟩
    · rw [List.mem_singleton.mp new]
      refine .inr fun id same => ?_
      cases target.symm.trans same

theorem Run.known (run : Run past e) : e.store.tables.Known :=
  (run.holds (I := fun p => p.1.Known) .empty fun _ _ _ _ known step => step.known known).2

/-- Whoever is to go by stored locks is a stored provider. -/
theorem Promotion.choice?_known {usable : List Lock} {choice : PromotionChoice} (known : t.Known)
    (stored : ∀ l ∈ usable, l ∈ t.locks) (h : choice? t j usable = some choice) :
    ∀ id ∈ choice.providerIds, t.hasProvider id = true := by
  intro id hid
  obtain ⟨l, hl, -, target | ⟨teamId, slotId, team, -, found, member⟩⟩ :=
    (choice?_offers h).2 id hid
  · exact known.holders l (stored l hl) id target
  · obtain ⟨m, hm, rfl⟩ := List.mem_map.mp member
    exact known.members team (List.mem_of_find?_eq_some found) m hm

/-! ## The transaction -/

/-- The lock when it is released. -/
def Lock.ended (reason : ReleaseReason) (now : Instant) (l : Lock) : Lock :=
  { l with status := .released, reason := some reason, updatedAt := now }

namespace Locks

/-- The state of a stored lock is set when it is released. -/
theorem setLockState_ended {l : Lock} (nodup : (t.locks.map (·.id)).Nodup) (hl : l ∈ t.locks)
    (whole : l.expiresAt.wholeSecond = l.expiresAt) (reason : ReleaseReason) (now : Instant) :
    (t.setLockState l.id .released (some reason) l.expiresAt now).locks
      = t.locks.map fun k => if k.id = l.id then k.ended reason now.wholeSecond else k := by
  refine List.map_congr_left fun k hk => ?_
  by_cases same : k.id = l.id
  · obtain rfl := List.inj_on_of_nodup_map nodup hk hl same
    simp [Lock.ended, whole]
  · simp [same]

/-- While figures stay within 32 bits, units are given back to a slot that is there. -/
theorem returnUnits_apply (fits : s.tables.Fits) (count : Nat) (slotId : String) :
    returnUnits count slotId s = .ok () { s with
      tables := match s.tables.slot? slotId with
        | some slot => s.tables.adjustBooking slot (-(min count slot.booked : Nat))
        | none => s.tables } := by
  have read : Store.slot? slotId s = .ok (s.tables.slot? slotId) s :=
    Work.readRow_eq_ok.mpr
      ⟨rfl, fun slot found => fits.slot_isReadable (List.mem_of_find?_eq_some found), rfl⟩
  unfold returnUnits
  rw [bind_of_ok read]
  cases s.tables.slot? slotId <;> rfl

/-- Then the state of the lock is set, and the lock is answered as it is then. -/
theorem releaseOne_apply (fits : s.tables.Fits) (reason : ReleaseReason) (now : Instant)
    (l : Lock) : releaseOne reason now l s
      = .ok (l.ended reason now) { s with tables := s.tables.released reason now l } := by
  unfold releaseOne Tables.released Tables.giveBack
  cases l.target.slotId? with
  | none => rfl
  | some slotId => exact bind_eq_ok.mpr ⟨(), _, returnUnits_apply fits l.count slotId, rfl⟩

/-- Releasing a lock never fails while figures stay within 32 bits. -/
theorem releaseOne_succeeds (fits : s.tables.Fits) (reason : ReleaseReason) (now : Instant)
    (l : Lock) : ∃ s', releaseOne reason now l s
      = .ok { l with status := .released, reason := some reason, updatedAt := now } s' :=
  ⟨_, releaseOne_apply fits reason now l⟩

end Locks

/-- A lock that is of use is live. -/
theorem Lock.isLive_of_isUsable {l : Lock} (usable : l.isUsable now = true) : l.isLive = true := by
  unfold isLive
  rw [(isUsable_lasts usable).1]
  rfl

namespace Tables

/-- The locks by which the job can be staffed. -/
def usableLocks (t : Tables) (jobId : String) (now : Instant) : List Lock :=
  (t.locksFor jobId none false).filter (·.isUsable now)

theorem mem_usableLocks {l : Lock} :
    l ∈ t.usableLocks jobId now ↔ l ∈ t.locks ∧ l.jobId = jobId ∧ l.isUsable now = true := by
  unfold usableLocks locksFor
  simp only [List.mem_filter, Bool.and_eq_true, beq_iff_eq, Bool.false_or, Option.all_none,
    and_true]
  exact ⟨fun ⟨⟨hl, own, _⟩, usable⟩ => ⟨hl, own, usable⟩,
    fun ⟨hl, own, usable⟩ => ⟨⟨hl, own, Lock.isLive_of_isUsable usable⟩, usable⟩⟩

/-- The job can be staffed by its locks: it waits, has no live assignment, and its usable locks
decide who goes. -/
structure Promotable (t : Tables) (now : Instant) (j : Job) : Prop where
  pending : j.isPending = true
  vacant : t.assignmentsFor j.id = []
  decided : Promotion.choice? t j (t.usableLocks j.id now) ≠ none

end Tables

namespace Promotion

/-- Assigning stored providers to a stored job never fails. -/
theorem collectAssign_succeeds {ids : List String} (teamId : Option String) (now : Instant)
    (job : s.tables.hasJob j.id = true) (known : ∀ id ∈ ids, s.tables.hasProvider id = true) :
    ∃ rows s', Work.collect (assign j teamId now) ids s = .ok rows s' := by
  suffices ∃ rows s', Work.collect (assign j teamId now) ids s = .ok rows s' ∧
      (s'.tables.hasJob j.id = true ∧ ∀ id ∈ ids, s'.tables.hasProvider id = true) by
    obtain ⟨rows, s', done, -⟩ := this
    exact ⟨rows, s', done⟩
  refine Work.collect_succeeds (I := fun t => t.hasJob j.id = true ∧
    ∀ id ∈ ids, t.hasProvider id = true) ?_ ⟨job, known⟩
  rintro providerId sent s ⟨job, known⟩
  obtain ⟨id, s₁, drawn, tables, -, fresh⟩ := Work.draw_apply .assignment s
  let a := scheduled j teamId providerId now id
  have stored : s₁.tables.insertAssignment a
      = .ok { s.tables with assignments := s.tables.assignments ++ [a.stored] } := by
    rw [tables]
    refine Tables.insertAssignment_eq_ok.mpr ⟨fun b hb same => ?_, job, known _ sent, rfl⟩
    exact fresh (List.mem_map.mpr ⟨b, hb, same⟩)
  let s₂ : Store := { s₁ with
    tables := { s.tables with assignments := s.tables.assignments ++ [a.stored] } }
  refine ⟨a, s₂, bind_eq_ok.mpr ⟨id, s₁, drawn, ?_⟩, job, known⟩
  exact bind_eq_ok.mpr ⟨(), s₂, Work.run_eq_ok.mpr ⟨_, stored, rfl⟩, rfl⟩

/-- Settling the locks of a promoted job never fails while figures stay within 32 bits. -/
theorem eachSettle_succeeds (fits : s.tables.Fits) (deciding : List String) (now : Instant)
    (live : List Lock) : ∃ s', Work.each (settle deciding now) live s = .ok () s' := by
  suffices ∃ s', Work.each (settle deciding now) live s = .ok () s' ∧ s'.tables.Fits by
    obtain ⟨s', done, -⟩ := this
    exact ⟨s', done⟩
  refine Work.each_succeeds (I := Tables.Fits) (fun l _ s fits => ?_) fits
  unfold settle
  split
  · exact ⟨_, rfl, fits.slots, fits.plans⟩
  · obtain ⟨s₁, released⟩ := Locks.releaseOne_succeeds fits .promoted now l
    refine ⟨s₁, bind_eq_ok.mpr ⟨_, s₁, released, rfl⟩, ?_⟩
    rw [(Locks.releaseOne_eq_ok released).1]
    exact fits.released _ _ _

/-- A job that is not promotable is left as it is. -/
theorem promoteJoined_of_not_promotable (found : s.tables.job? j.id = some j)
    (h : ¬ s.tables.Promotable now j) : promoteJoined j.id now s = .ok none s := by
  have read : Work.demand .job j.id (Tables.job? · j.id) s = .ok j s :=
    Work.demand_eq_ok.mpr ⟨found, rfl⟩
  have asked {α : Type} (question : Tables → α) :
      Work.ask question s = .ok (question s.tables) s := rfl
  unfold promoteJoined
  rw [bind_of_ok read, bind_of_ok (asked _)]
  by_cases waits : (!j.isPending || !(s.tables.assignmentsFor j.id).isEmpty) = true
  · rw [if_pos waits]
    rfl
  · obtain ⟨pending, vacant⟩ := vacant_iff.mp waits
    have undecided : choice? s.tables j (s.tables.usableLocks j.id now) = none := by
      by_contra decided
      exact h ⟨pending, vacant, decided⟩
    rw [if_neg waits, bind_of_ok (asked _),
      bind_of_ok (Work.ask_eq_ok.mpr ⟨undecided.symm, rfl⟩)]
    rfl

/-- A job that is promotable is staffed. -/
theorem promoteJoined_of_promotable (fits : s.tables.Fits) (known : s.tables.Known)
    (found : s.tables.job? j.id = some j) (h : s.tables.Promotable now j) :
    ∃ p s', promoteJoined j.id now s = .ok (some p) s' := by
  have read : Work.demand .job j.id (Tables.job? · j.id) s = .ok j s :=
    Work.demand_eq_ok.mpr ⟨found, rfl⟩
  have asked {α : Type} (question : Tables → α) :
      Work.ask question s = .ok (question s.tables) s := rfl
  have waits := vacant_iff.mpr ⟨h.pending, h.vacant⟩
  obtain ⟨choice, chosen⟩ := Option.ne_none_iff_exists'.mp h.decided
  obtain ⟨rows, s₁, assigned⟩ := collectAssign_succeeds choice.teamId now
    (any_key.mpr ⟨j, List.mem_of_find?_eq_some found, rfl⟩)
    (choice?_known known (fun l hl => (Tables.mem_usableLocks.mp hl).1) chosen)
  -- Staffing the job has left the figures alone.
  have fits₁ : (s₁.tables.markMatched j.id now).Fits := by
    rw [(collectAssign_ok_cases assigned).2.1]
    exact ⟨fits.slots, fits.plans⟩
  obtain ⟨s₂, settled⟩ := eachSettle_succeeds
    (s := { s₁ with tables := s₁.tables.markMatched j.id now }) fits₁ choice.lockIds now
    (s.tables.locksFor j.id none false)
  unfold promoteJoined
  rw [bind_of_ok read, bind_of_ok (asked _), if_neg waits, bind_of_ok (asked _),
    bind_of_ok (Work.ask_eq_ok.mpr ⟨chosen.symm, rfl⟩)]
  simp only [bind_eq_ok, Work.write_eq_ok, pure_eq_ok]
  exact ⟨_, _, rows, s₁, assigned, (), _, rfl, (), s₂, settled, rfl, rfl⟩

/-- **A promotion of a stored job never fails,** and staffs the job exactly if it is promotable. -/
theorem promote_succeeds (now : Instant) (idle : s.saved = none) (fits : s.tables.Fits)
    (known : s.tables.Known) (found : s.tables.job? jobId = some j) :
    ∃ answer s', promote jobId now s = .ok answer s' ∧
      (answer.isSome = true ↔ s.tables.Promotable now j) := by
  obtain ⟨-, rfl⟩ := mem_of_find?_key found
  unfold promote
  simp only [Work.atomic_eq_ok idle]
  by_cases h : s.tables.Promotable now j
  · obtain ⟨p, s₁, done⟩ := promoteJoined_of_promotable (s := s.begin) fits known found h
    exact ⟨some p, _, ⟨s₁, done, rfl⟩, fun _ => h, fun _ => rfl⟩
  · have done := promoteJoined_of_not_promotable (s := s.begin) found h
    exact ⟨none, _, ⟨s.begin, done, rfl⟩, fun never => (by cases never), fun can => absurd can h⟩

end Promotion

/-! ## The call -/

/-- **A promotion of a stored job never fails.** In every state that a run reaches it staffs the job
if it is promotable, and otherwise answers that there is nothing to do and leaves all tables as they
were. -/
theorem Run.promote_answers (run : Run past e) (now : Instant)
    (found : e.store.tables.job? jobId = some j) :
    (e.store.tables.Promotable now j ∧ ∃ p e', Engine.promote jobId now e = .ok (some p) e') ∨
      ¬ e.store.tables.Promotable now j ∧ ∃ e', Engine.promote jobId now e = .ok none e' ∧
        e'.store.tables = e.store.tables := by
  obtain ⟨answer, s', done, iff⟩ :=
    Promotion.promote_succeeds now run.ready.idle run.sound.fits run.known found
  unfold Engine.promote
  rw [bind_of_ok (Engine.onStore_of_ok done)]
  cases answer with
  | some p =>
    exact .inl ⟨iff.mp rfl, p, _, bind_of_ok (Engine.dispatch_apply now _ _)⟩
  | none =>
    refine .inr ⟨fun h => (by cases iff.mpr h), _, rfl, ?_⟩
    obtain ⟨-, ⟨-, same⟩ | ⟨p, _, _, _, _, _, never, -⟩⟩ :=
      Promotion.promote_ok_cases run.ready.idle run.ready.keyed done
    · exact same
    · cases never

end Staffing
