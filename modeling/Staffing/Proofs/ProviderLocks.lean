import Staffing.Proofs.DoubleBooking
import Staffing.Proofs.Exclusion
import Staffing.Proofs.Headroom

/-!
# Locks on providers are decided exactly

Each provider of a request is looked at when those before him are locked already. Their locks are on
others, so what was the case before the call decides: all are locked, or the first to whom something
can be objected is named and nobody is locked.

* `Tables.IsLockable`, `Tables.Objects` — nothing stands against a provider; what does
* `Tables.FirstObjection` — the first of a list to whom something can be objected
* `Tables.HoldsEach` — one held lock for each, in the order of the list
* `Locks.createOnProviders_cases` — the loop either way
* `provider_locks_decide_exactly` — the call in every state
-/

namespace Staffing

variable {t : Tables} {w : Window} {now : Instant} {id : String}

namespace Tables

/-! ## What can be objected -/

/-- A live lock that has not lapsed holds the provider for a job that overlaps the window. -/
def IsHeld (t : Tables) (w : Window) (now : Instant) (id : String) : Prop :=
  ∃ l ∈ t.locks, l.Holds id now ∧ t.Covers l w

/-- A blocking assignment of the provider overlaps the window. -/
def IsAssigned (t : Tables) (w : Window) (id : String) : Prop :=
  ∃ a ∈ t.assignments, a.providerId = id ∧ a.status.isBlocking = true ∧
    a.window.wholeSeconds.overlaps w.wholeSeconds = true

/-- The provider is stored and neither held nor assigned for the window. -/
structure IsLockable (t : Tables) (w : Window) (now : Instant) (id : String) : Prop where
  stored : t.hasProvider id = true
  notHeld : ¬ t.IsHeld w now id
  notAssigned : ¬ t.IsAssigned w id

/-- What is first objected to a provider who comes after others. -/
inductive Objects (t : Tables) (w : Window) (now : Instant) (others : List String) (id : String) :
    Fault → Prop
  | repeated : id ∈ others → Objects t w now others id (.conflict (.duplicateMember id))
  | unknown : id ∉ others → t.hasProvider id = false →
      Objects t w now others id (.notFound .provider id)
  | held : id ∉ others → t.hasProvider id = true → t.IsHeld w now id →
      Objects t w now others id (.conflict (.providerAlreadyLocked id))
  | assigned : id ∉ others → t.hasProvider id = true → ¬ t.IsHeld w now id → t.IsAssigned w id →
      Objects t w now others id (.conflict (.providerAlreadyAssigned id))

/-- The fault is what is objected to one of the list, when those before him are different from each
other and lockable. -/
def FirstObjection (t : Tables) (w : Window) (now : Instant) (ids : List String) (fault : Fault) :
    Prop :=
  ∃ before id later, ids = before ++ id :: later ∧ before.Nodup ∧
    (∀ other ∈ before, t.IsLockable w now other) ∧ t.Objects w now before id fault

theorem isHeld_iff : t.IsHeld w now id ↔ t.providerLocked id w now none = true := by
  simp [IsHeld, providerLocked_iff]

theorem isAssigned_iff : t.IsAssigned w id ↔ t.hasConflict id w none = true := by
  simp [IsAssigned, hasConflict_iff_exists]

instance (t : Tables) (w : Window) (now : Instant) (id : String) : Decidable (t.IsHeld w now id) :=
  decidable_of_iff _ isHeld_iff.symm

instance (t : Tables) (w : Window) (id : String) : Decidable (t.IsAssigned w id) :=
  decidable_of_iff _ isAssigned_iff.symm

/-- Only who came before matters, not in which order. -/
theorem Objects.congr {others others' : List String} {fault : Fault}
    (h : t.Objects w now others id fault) (same : ∀ id, id ∈ others ↔ id ∈ others') :
    t.Objects w now others' id fault := by
  cases h with
  | repeated old => exact .repeated ((same id).mp old)
  | unknown new unknown => exact .unknown (mt (same id).mpr new) unknown
  | held new stored held => exact .held (mt (same id).mpr new) stored held
  | assigned new stored notHeld assigned =>
    exact .assigned (mt (same id).mpr new) stored notHeld assigned

/-- Nothing is objected to a lockable provider who has not come before. -/
theorem Objects.not_isLockable {others : List String} {fault : Fault}
    (h : t.Objects w now others id fault) (new : id ∉ others) : ¬ t.IsLockable w now id := by
  rintro ⟨stored, notHeld, notAssigned⟩
  cases h with
  | repeated old => exact new old
  | unknown _ unknown => simp [unknown] at stored
  | held _ _ held => exact notHeld held
  | assigned _ _ _ assigned => exact notAssigned assigned

/-- Nothing is objected to a list of different lockable providers. -/
theorem FirstObjection.not_all {ids : List String} {fault : Fault}
    (h : t.FirstObjection w now ids fault) :
    ¬ (ids.Nodup ∧ ∀ id ∈ ids, t.IsLockable w now id) := by
  rintro ⟨nodup, lockable⟩
  obtain ⟨before, id, later, rfl, -, -, objects⟩ := h
  refine objects.not_isLockable (fun old => ?_) (lockable id (by simp))
  exact (List.nodup_append.mp nodup).2.2 id old id List.mem_cons_self rfl

end Tables

namespace Locks

variable {others : List String} {fault : Fault}

theorem providerFault_eq_none_iff : providerFault t others w now id = none ↔
    id ∉ others ∧ t.IsLockable w now id := by
  constructor
  · intro h
    obtain ⟨new, stored, notHeld, notAssigned⟩ := providerFault_eq_none h
    exact ⟨new, stored, by simp [Tables.isHeld_iff, notHeld],
      by simp [Tables.isAssigned_iff, notAssigned]⟩
  · rintro ⟨new, stored, notHeld, notAssigned⟩
    rw [Tables.isHeld_iff] at notHeld
    rw [Tables.isAssigned_iff] at notAssigned
    simp [providerFault, new, stored, notHeld, notAssigned]

/-- The fault of a provider is what is first objected to him. -/
theorem providerFault_objects (h : providerFault t others w now id = some fault) :
    t.Objects w now others id fault := by
  unfold providerFault at h
  by_cases old : id ∈ others
  · rw [if_pos (by simpa using old)] at h
    exact Option.some.inj h ▸ .repeated old
  rw [if_neg (by simpa using old)] at h
  by_cases stored : t.hasProvider id = true
  swap
  · rw [if_pos (by simpa using stored)] at h
    exact Option.some.inj h ▸ .unknown old (by simpa using stored)
  rw [if_neg (by simpa using stored)] at h
  by_cases held : t.IsHeld w now id
  · rw [if_pos (Tables.isHeld_iff.mp held)] at h
    exact Option.some.inj h ▸ .held old stored held
  rw [if_neg (mt Tables.isHeld_iff.mpr held)] at h
  by_cases assigned : t.IsAssigned w id
  · rw [if_pos (Tables.isAssigned_iff.mp assigned)] at h
    exact Option.some.inj h ▸ .assigned old stored held assigned
  · rw [if_neg (mt Tables.isAssigned_iff.mpr assigned)] at h
    cases h

end Locks

/-! ## Locks on others -/

section Others

variable {l : Lock} {other : String}

namespace Tables

/-- A lock on somebody else holds nobody further. -/
theorem isHeld_append (target : l.target = .provider other) (different : id ≠ other) :
    { t with locks := t.locks ++ [l.stored] }.IsHeld w now id ↔ t.IsHeld w now id := by
  have notHis : ¬ l.stored.Holds id now := by
    rintro ⟨his, -⟩
    exact different (LockTarget.provider.inj (his.symm.trans target))
  constructor
  · rintro ⟨k, hk, holds, covers⟩
    rcases List.mem_append.mp hk with old | new
    · exact ⟨k, old, holds, covers⟩
    · exact absurd (List.mem_singleton.mp new ▸ holds) notHis
  · rintro ⟨k, hk, holds, covers⟩
    exact ⟨k, List.mem_append_left _ hk, holds, covers⟩

theorem isLockable_append (target : l.target = .provider other) (different : id ≠ other) :
    { t with locks := t.locks ++ [l.stored] }.IsLockable w now id ↔ t.IsLockable w now id := by
  constructor
  · rintro ⟨stored, notHeld, notAssigned⟩
    exact ⟨stored, mt (isHeld_append target different).mpr notHeld, notAssigned⟩
  · rintro ⟨stored, notHeld, notAssigned⟩
    exact ⟨stored, mt (isHeld_append target different).mp notHeld, notAssigned⟩

/-- What is objected to somebody who comes after the locked one could be objected before. -/
theorem Objects.of_append {others : List String} {fault : Fault}
    (target : l.target = .provider other) (locked : other ∈ others)
    (h : { t with locks := t.locks ++ [l.stored] }.Objects w now others id fault) :
    t.Objects w now others id fault := by
  have different (new : id ∉ others) : id ≠ other := fun same => new (same ▸ locked)
  cases h with
  | repeated old => exact .repeated old
  | unknown new unknown => exact .unknown new unknown
  | held new stored held =>
    exact .held new stored ((isHeld_append target (different new)).mp held)
  | assigned new stored notHeld assigned =>
    exact .assigned new stored (mt (isHeld_append target (different new)).mpr notHeld) assigned

end Tables

end Others

/-! ## The loop -/

namespace Tables

/-- New locks with new ids, one for each provider in the order of the list: each is held, for the
job, and of one unit. -/
structure HoldsEach (t : Tables) (jobId : String) (expiresAt now : Instant) (ids : List String)
    (made : List Lock) : Prop where
  each : List.Forall₂ (fun providerId l => l = {
    id := l.id, jobId, target := .provider providerId, count := 1, status := .held, reason := none,
    expiresAt, createdAt := now, updatedAt := now }) ids made
  different : (made.map (·.id)).Nodup
  new : ∀ l ∈ made, l.id ∉ t.locks.map (·.id)

variable {jobId : String} {expiresAt : Instant} {ids : List String} {made : List Lock}

theorem HoldsEach.nil : t.HoldsEach jobId expiresAt now [] [] :=
  ⟨.nil, List.nodup_nil, fun _ h => absurd h List.not_mem_nil⟩

theorem HoldsEach.cons {lockId providerId : String} (fresh : lockId ∉ t.locks.map (·.id))
    (h : { t with locks := t.locks ++
      [(Locks.fresh lockId jobId (.provider providerId) 1 expiresAt now).stored] }.HoldsEach
        jobId expiresAt now ids made) :
    t.HoldsEach jobId expiresAt now (providerId :: ids)
      (Locks.fresh lockId jobId (.provider providerId) 1 expiresAt now :: made) := by
  have apart : ∀ l ∈ made, l.id ∉ t.locks.map (·.id) ∧ l.id ≠ lockId := by
    intro l hl
    simpa [Lock.stored, Locks.fresh] using h.new l hl
  refine ⟨.cons rfl h.each, ?_, ?_⟩
  · rw [List.map_cons, List.nodup_cons, List.mem_map]
    refine ⟨?_, h.different⟩
    rintro ⟨l, hl, same⟩
    exact (apart l hl).2 same
  · exact List.forall_mem_cons.mpr ⟨fresh, fun l hl => (apart l hl).1⟩

/-- Together the locks have as many units as there are providers. -/
theorem HoldsEach.units (h : t.HoldsEach jobId expiresAt now ids made) :
    Lock.units made = ids.length := by
  have each := h.each
  clear h
  induction each with
  | nil => rfl
  | @cons _ l _ rest one _ ih =>
    show l.count + Lock.units rest = _
    rw [one, ih, List.length_cons, Nat.add_comm]

end Tables

namespace Locks

variable {s : Store} {j : Job}

/-- The next provider is not lockable: the loop ends with what is objected to him. -/
theorem createOnProviders_refuses {expiresAt : Instant} {others rest : List String}
    {providerId : String} {fault : Fault}
    (objected : providerFault s.tables others j.window now providerId = some fault) :
    createOnProviders j expiresAt now others (providerId :: rest) s = .error fault s := by
  unfold createOnProviders
  rw [bind_of_ok (Work.ask_eq_ok.mpr ⟨rfl, rfl⟩), objected]
  rfl

/-- The next provider is lockable: he is locked and the loop goes on. -/
theorem createOnProviders_goesOn (expiresAt : Instant) {others : List String} (rest : List String)
    {providerId : String} (known : s.tables.hasJob j.id = true)
    (free : providerFault s.tables others j.window now providerId = none) :
    ∃ lockId s₁, lockId ∉ s.tables.locks.map (·.id) ∧ s₁.saved = s.saved ∧
      s₁.tables = { s.tables with locks := s.tables.locks ++
        [(fresh lockId j.id (.provider providerId) 1 expiresAt now).stored] } ∧
      createOnProviders j expiresAt now others (providerId :: rest) s
        = (createOnProviders j expiresAt now (providerId :: others) rest >>= fun locks =>
            pure (fresh lockId j.id (.provider providerId) 1 expiresAt now :: locks)) s₁ := by
  obtain ⟨lockId, s₁, drawn, tables, saved, new⟩ := Work.draw_apply .lock s
  let l := fresh lockId j.id (.provider providerId) 1 expiresAt now
  have inserted : s₁.tables.insertLock l
      = .ok { s.tables with locks := s.tables.locks ++ [l.stored] } := by
    rw [tables]
    refine Tables.insertLock_eq_ok.mpr ⟨?_, known, Nat.one_ne_zero, nofun, rfl⟩
    exact fun k hk same => new (List.mem_map.mpr ⟨k, hk, same⟩)
  have ran : Work.run (Tables.insertLock l) s₁
      = .ok () { s₁ with tables := { s.tables with locks := s.tables.locks ++ [l.stored] } } :=
    Work.run_eq_ok.mpr ⟨_, inserted, rfl⟩
  refine ⟨lockId, { s₁ with tables := { s.tables with locks := s.tables.locks ++ [l.stored] } },
    new, saved, rfl, ?_⟩
  rw [createOnProviders, bind_of_ok (Work.ask_eq_ok.mpr ⟨rfl, rfl⟩), free]
  exact (bind_of_ok drawn).trans (bind_of_ok ran)

/-- **The loop decides by the tables before it.** All of the list are lockable, new and different,
and each gets a lock. Or somebody is not, those before him are, and the loop ends with what is
objected to him. -/
theorem createOnProviders_cases (expiresAt now : Instant) (others ids : List String)
    (known : s.tables.hasJob j.id = true) :
    (∃ made s', createOnProviders j expiresAt now others ids s = .ok made s' ∧
      ids.Nodup ∧ (∀ id ∈ ids, id ∉ others ∧ s.tables.IsLockable j.window now id) ∧
      s.tables.HoldsEach j.id expiresAt now ids made ∧ s'.saved = s.saved ∧
      s'.tables = { s.tables with locks := s.tables.locks ++ made.map Lock.stored }) ∨
    (∃ fault s', createOnProviders j expiresAt now others ids s = .error fault s' ∧
      ∃ before id later, ids = before ++ id :: later ∧ before.Nodup ∧
        (∀ id ∈ before, id ∉ others ∧ s.tables.IsLockable j.window now id) ∧
        s.tables.Objects j.window now (before ++ others) id fault) := by
  induction ids generalizing others s with
  | nil =>
    refine .inl ⟨[], s, rfl, List.nodup_nil, ?_, .nil, rfl, ?_⟩
    · exact fun _ h => absurd h List.not_mem_nil
    · rw [List.map_nil, List.append_nil]
  | cons providerId rest ih =>
    cases checked : providerFault s.tables others j.window now providerId with
    | some fault =>
      refine .inr ⟨fault, s, createOnProviders_refuses checked, [], providerId, rest, rfl,
        List.nodup_nil, fun _ h => absurd h List.not_mem_nil, providerFault_objects checked⟩
    | none =>
      obtain ⟨new, lockable⟩ := providerFault_eq_none_iff.mp checked
      obtain ⟨lockId, s₁, fresh, saved, tables, goesOn⟩ :=
        createOnProviders_goesOn expiresAt rest known checked
      -- Who comes later and is lockable now was so before, for the new lock is on another.
      have earlier (ids : List String) (h : ∀ id ∈ ids, id ∉ providerId :: others ∧
          s₁.tables.IsLockable j.window now id) :
          ∀ id ∈ ids, id ≠ providerId ∧ id ∉ others ∧ s.tables.IsLockable j.window now id := by
        intro id hid
        obtain ⟨apart, lockable⟩ := h id hid
        have different := List.ne_of_not_mem_cons apart
        rw [tables] at lockable
        exact ⟨different, List.not_mem_of_not_mem_cons apart,
          (Tables.isLockable_append rfl different).mp lockable⟩
      have known₁ : s₁.tables.hasJob j.id = true := by
        rw [tables]
        exact known
      rw [goesOn]
      rcases ih (providerId :: others) known₁ with ⟨made, s', done, nodup, all, holds, saved', left⟩
        | ⟨fault, s', failed, before, id, later, rfl, nodup, all, objects⟩
      · replace all := earlier rest all
        refine .inl ⟨_, s', bind_of_ok done, List.nodup_cons.mpr ⟨?_, nodup⟩, ?_, ?_,
          saved'.trans saved, ?_⟩
        · exact fun again => (all providerId again).1 rfl
        · exact List.forall_mem_cons.mpr ⟨⟨new, lockable⟩, fun id hid => (all id hid).2⟩
        · rw [tables] at holds
          exact .cons fresh holds
        · rw [left, tables, List.map_cons, List.append_assoc, List.singleton_append]
      · replace all := earlier before all
        rw [tables] at objects
        refine .inr ⟨fault, s', bind_of_error failed, providerId :: before, id, later, rfl,
          List.nodup_cons.mpr ⟨?_, nodup⟩, ?_, ?_⟩
        · exact fun again => (all providerId again).1 rfl
        · exact List.forall_mem_cons.mpr ⟨⟨new, lockable⟩, fun id hid => (all id hid).2⟩
        · -- The loop has counted him among the others already.
          refine (objects.of_append rfl (by simp)).congr fun id => ?_
          exact List.perm_middle.mem_iff

/-- A request for locks on providers comes to the loop. -/
theorem create_providers (config : LockConfig) {actor : Actor} {jobId : String}
    (ttl : Option Int) (now : Instant) {ids : List String}
    (operational : actor.isOperational = true) (known : s.tables.job? jobId = some j)
    (waits : j.isClosed = false) (nonempty : ids ≠ []) :
    create config actor jobId ⟨.providers ids, ttl⟩ now s
      = Work.atomic
        (createOnProviders j (now + config.ttl ttl * Instant.minute) now [] ids) s := by
  refine create_eq operational fun s₁ same => ?_
  have found : Work.demand .job jobId (Tables.job? · jobId) s₁ = .ok j s₁ :=
    Work.demand_eq_ok.mpr ⟨same ▸ known, rfl⟩
  obtain ⟨first, rest, rfl⟩ := List.exists_cons_of_ne_nil nonempty
  unfold createJoined
  rw [bind_of_ok found, waits]
  rfl

end Locks

/-! ## The call -/

namespace Engine

variable {e : Engine} {actor : Actor} {jobId : String} {request : LockRequest}

/-- What is told of new locks. -/
theorem createLocks_apply {made : List Lock} {s : Store}
    (h : Locks.create e.config.locks actor jobId request e.now e.store = .ok made s) :
    createLocks actor jobId request e = .ok made { e with
      store := { s with
        tables := s.tables.appendLog (some jobId)
          (.event (.locksCreated jobId (made.map Lock.id) (Lock.units made))) e.now }
      notices := e.notices ++ [.locksCreated jobId (made.map Lock.id) (Lock.units made)] } := by
  unfold createLocks
  rw [bind_of_ok (get_apply e), bind_of_ok (onStore_of_ok h)]
  rfl

/-- The locks are stored and told of in one event, and nothing else has changed. -/
structure LocksEach (e : Engine) (jobId : String) (ids : List String) (ttl : Option Int)
    (made : List Lock) (e' : Engine) : Prop where
  holds : e.store.tables.HoldsEach jobId (e.now + e.config.locks.ttl ttl * Instant.minute) e.now ids
    made
  only : e' = { e with
    store := { e.store with
      serial := e'.store.serial
      tables := { e.store.tables with
        locks := e.store.tables.locks ++ made.map Lock.stored }.appendLog (some jobId)
          (.event (.locksCreated jobId (made.map Lock.id) ids.length)) e.now }
    notices := e.notices ++ [.locksCreated jobId (made.map Lock.id) ids.length] }

end Engine

/-- **Locks on providers are decided exactly.** An operational actor asks for locks on some
providers, for a job that is not over. He gets them if and only if the providers are different,
stored, and neither held nor assigned for the job's window. Then there is one more held lock of one
unit for each, in the order asked, and one event tells of that. Otherwise nothing is stored, and the
fault is what is first objected to the first of them to whom something can be objected. -/
theorem provider_locks_decide_exactly {e : Engine} {actor : Actor} {jobId : String} {j : Job}
    {ids : List String} (ttl : Option Int) (idle : e.store.saved = none)
    (operational : actor.isOperational = true) (known : e.store.tables.job? jobId = some j)
    (waits : j.isClosed = false) (nonempty : ids ≠ []) :
    ((∃ made e', Engine.createLocks actor jobId ⟨.providers ids, ttl⟩ e = .ok made e') ↔
      ids.Nodup ∧ ∀ id ∈ ids, e.store.tables.IsLockable j.window e.now id) ∧
    (∀ made e', Engine.createLocks actor jobId ⟨.providers ids, ttl⟩ e = .ok made e' →
      e.LocksEach jobId ids ttl made e') ∧
    ∀ fault e', Engine.createLocks actor jobId ⟨.providers ids, ttl⟩ e = .error fault e' →
      e' = { e with store := { e.store with serial := e'.store.serial } } ∧
      e.store.tables.FirstObjection j.window e.now ids fault := by
  obtain ⟨hj, own⟩ := mem_of_find?_key known
  have stored : e.store.begin.tables.hasJob j.id = true := any_key.mpr ⟨j, hj, rfl⟩
  have transaction :=
    Locks.create_providers e.config.locks ttl e.now operational known waits nonempty
  rcases Locks.createOnProviders_cases (e.now + e.config.locks.ttl ttl * Instant.minute) e.now []
      ids stored with
    ⟨made, s, done, nodup, all, holds, saved, tables⟩
    | ⟨fault, s, failed, before, id, later, split, nodup, all, objects⟩
  · rw [(Work.atomic_eq_ok idle).mpr ⟨s, done, rfl⟩] at transaction
    have called := Engine.createLocks_apply transaction
    refine ⟨⟨fun _ => ⟨nodup, fun id hid => (all id hid).2⟩, fun _ => ⟨made, _, called⟩⟩, ?_, ?_⟩
    · intro made' e' called'
      obtain ⟨rfl, rfl⟩ := EStateM.Result.ok.inj (called.symm.trans called')
      refine ⟨own ▸ holds, ?_⟩
      rw [holds.units]
      unfold Store.commit
      rw [tables, ← idle]
      rfl
    · intro fault e'' failed
      cases called.symm.trans failed
  · rw [(Work.atomic_eq_error idle).mpr ⟨s, failed, rfl⟩] at transaction
    have called := Engine.createLocks_of_error transaction
    have first : e.store.tables.FirstObjection j.window e.now ids fault := by
      refine ⟨before, id, later, split, nodup, fun other hother => (all other hother).2, ?_⟩
      rw [List.append_nil] at objects
      exact objects
    refine ⟨⟨?_, fun all => absurd all first.not_all⟩, ?_, ?_⟩
    · rintro ⟨made, e', called'⟩
      cases called.symm.trans called'
    · intro made e' called'
      cases called.symm.trans called'
    · intro fault' e' called'
      obtain ⟨rfl, rfl⟩ := EStateM.Result.error.inj (called.symm.trans called')
      refine ⟨?_, first⟩
      unfold Store.rollbackTo
      rw [← idle]

/-- Two providers and a job. -/
def Sample.twoFree : Engine := Operation.afterAll [
  .insertProvider (provider "ada"), .insertProvider (provider "bob"), .createJob (job 9)] engine

/-- Both are locked when they are asked for once each; asked for twice, the first is objected to. -/
theorem provider_locks_decide_exactly_twoFree : ∃ j made e' e'',
    Sample.twoFree.store.tables.job? (idText "job" 0) = some j ∧
    Engine.createLocks Sample.admin (idText "job" 0) ⟨.providers ["bob", "ada"], none⟩
      Sample.twoFree = .ok made e' ∧
    Sample.twoFree.LocksEach (idText "job" 0) ["bob", "ada"] none made e' ∧
    (∀ id ∈ ["bob", "ada"], Sample.twoFree.store.tables.IsLockable j.window Sample.twoFree.now id) ∧
    Engine.createLocks Sample.admin (idText "job" 0) ⟨.providers ["ada", "ada"], none⟩
      Sample.twoFree = .error (.conflict (.duplicateMember "ada")) e'' ∧
    Sample.twoFree.store.tables.FirstObjection j.window Sample.twoFree.now ["ada", "ada"]
      (.conflict (.duplicateMember "ada")) := by
  have idle : Sample.twoFree.store.saved = none := by decide +kernel
  have asked : (Sample.twoFree.store.tables.job? (idText "job" 0)).map (·.isClosed)
      = some false := by
    decide +kernel
  obtain ⟨j, known, waits⟩ := Option.map_eq_some_iff.mp asked
  have both : (answer? (Engine.createLocks Sample.admin (idText "job" 0)
      ⟨.providers ["bob", "ada"], none⟩) Sample.twoFree).isSome = true := by
    decide +kernel
  have twice : fault? (Engine.createLocks Sample.admin (idText "job" 0)
      ⟨.providers ["ada", "ada"], none⟩) Sample.twoFree
        = some (.conflict (.duplicateMember "ada")) := by
    decide +kernel
  obtain ⟨made, answered⟩ := Option.isSome_iff_exists.mp both
  have done := answer?_eq_some.mp answered
  have failed := fault?_eq_some.mp twice
  have operational : Sample.admin.isOperational = true := rfl
  obtain ⟨decides, grants, -⟩ := provider_locks_decide_exactly none idle operational known waits
    (List.cons_ne_nil "bob" ["ada"])
  obtain ⟨-, -, objects⟩ := provider_locks_decide_exactly none idle operational known waits
    (List.cons_ne_nil "ada" ["ada"])
  exact ⟨j, made, _, _, known, done, grants made _ done, (decides.mp ⟨made, _, done⟩).2, failed,
    (objects _ _ failed).2⟩

end Staffing
