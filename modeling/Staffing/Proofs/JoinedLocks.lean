import Staffing.Proofs.Run

/-!
# Locks that could not be made

A transaction of its own that fails leaves nothing behind. Joined to an open transaction, a failure
rolls nothing back, and whoever opened the transaction may commit what was written before it: for a
team that are slot and plan brought up to date, which books nothing; for a list of providers those
before the one who was refused are locked.

* `Work.Leaves`, `Work.FailsWith` — what a unit of work leaves whichever way it ends; when it fails
* `Tables.KeepsBooked` — no booking has moved
* `Locks.create_error_cases` — what a failure to make locks leaves, in either kind of transaction
-/

namespace Staffing

variable {α β : Type} {s s' : Store} {t t' t'' : Tables}

/-! ## Whichever way it ends -/

namespace Work

variable {R : Tables → Tables → Prop}

/-- Whichever way `w` ends, the tables before and after are related by `R`, and a transaction is
open after it if one was before. -/
def Leaves (R : Tables → Tables → Prop) (w : Work α) : Prop :=
  ∀ s, R s.tables (after w s).tables ∧ (after w s).saved = s.saved

/-- When `w` fails, the tables before and after are related by `R`, and a transaction is open after
it if one was before. -/
def FailsWith (R : Tables → Tables → Prop) (w : Work α) : Prop :=
  ∀ s fault s', w s = .error fault s' → R s.tables s'.tables ∧ s'.saved = s.saved

theorem Looks.leaves {w : Work α} (hw : Looks w) (refl : ∀ t, R t t) : Leaves R w := by
  intro s
  rw [hw s]
  exact ⟨refl _, rfl⟩

theorem leaves_write {f : Tables → Tables} (hf : ∀ t, R t (f t)) : Leaves R (write f) :=
  fun s => ⟨hf s.tables, rfl⟩

theorem leaves_draw (refl : ∀ t, R t t) (kind : IdKind) : Leaves R (draw kind) :=
  fun _ => ⟨refl _, rfl⟩

/-- A write that is refused changes nothing. -/
theorem run_error_cases {f : Statement} {fault : Fault} (h : run f s = .error fault s') :
    s' = s := by
  unfold run at h
  split at h
  · cases h
  · exact (EStateM.Result.error.inj h).2.symm

theorem failsWith_run (refl : ∀ t, R t t) (f : Statement) : FailsWith R (run f) := by
  intro s fault s' h
  obtain rfl := run_error_cases h
  exact ⟨refl _, rfl⟩

theorem leaves_run (refl : ∀ t, R t t) {f : Statement} (hf : ∀ t t', f t = .ok t' → R t t') :
    Leaves R (run f) := by
  intro s
  cases done : run f s with
  | ok u s' =>
    obtain ⟨t, written, rfl⟩ := run_eq_ok.mp done
    rw [after_of_ok done]
    exact ⟨hf _ _ written, rfl⟩
  | error fault s' =>
    rw [after_of_error done, run_error_cases done]
    exact ⟨refl _, rfl⟩

theorem leaves_bind (trans : ∀ t u v, R t u → R u v → R t v) {w : Work α} {f : α → Work β}
    (hw : Leaves R w) (hf : ∀ a, Leaves R (f a)) : Leaves R (w >>= f) := by
  intro s
  have first := hw s
  cases done : w s with
  | ok a s₁ =>
    rw [after_of_ok done] at first
    rw [after_bind_of_ok done]
    exact ⟨trans _ _ _ first.1 (hf a s₁).1, (hf a s₁).2.trans first.2⟩
  | error fault s₁ =>
    rw [after_of_error done] at first
    rw [after_bind_of_error done]
    exact first

/-- After what only looks, a failure is its own or one of what follows. -/
theorem Looks.bind_error_cases {w : Work α} {f : α → Work β} {fault : Fault} (hw : Looks w)
    (h : (w >>= f) s = .error fault s') :
    s' = s ∨ ∃ a, w s = .ok a s ∧ f a s = .error fault s' := by
  have same := hw s
  cases first : w s with
  | ok a s₁ =>
    rw [after_of_ok first] at same
    subst same
    exact .inr ⟨a, first.symm ▸ rfl, (bind_of_ok first).symm.trans h⟩
  | error fault₁ s₁ =>
    rw [after_of_error first] at same
    exact .inl ((EStateM.Result.error.inj ((bind_of_error first).symm.trans h)).2.symm.trans same)

/-- What follows a unit of work fails on what that has left. -/
theorem failsWith_bind (trans : ∀ t u v, R t u → R u v → R t v) {w : Work α} {f : α → Work β}
    (hw : Leaves R w) (hf : ∀ a, FailsWith R (f a)) : FailsWith R (w >>= f) := by
  intro s fault s' h
  have first := hw s
  cases done : w s with
  | ok a s₁ =>
    rw [after_of_ok done] at first
    rw [bind_of_ok done] at h
    obtain ⟨second, saved⟩ := hf a _ _ _ h
    exact ⟨trans _ _ _ first.1 second, saved.trans first.2⟩
  | error fault₁ s₁ =>
    rw [bind_of_error done] at h
    obtain ⟨rfl, rfl⟩ := EStateM.Result.error.inj h
    exact after_of_error done ▸ first

/-- When what follows cannot fail, only the beginning can. -/
theorem failsWith_first {w : Work α} {f : α → Work β} (hw : FailsWith R w)
    (hf : ∀ a s fault s', f a s ≠ .error fault s') : FailsWith R (w >>= f) := by
  intro s fault s' h
  cases done : w s with
  | ok a s₁ =>
    rw [bind_of_ok done] at h
    exact absurd h (hf a _ _ _)
  | error fault₁ s₁ =>
    rw [bind_of_error done] at h
    obtain ⟨rfl, rfl⟩ := EStateM.Result.error.inj h
    exact hw _ _ _ done

/-- A check in front of a unit of work. -/
theorem failsWith_guard (refl : ∀ t, R t t) {c : Prop} [Decidable c] {fault : Fault}
    {f : α → Work β} {w : Work β} (hw : FailsWith R w) :
    FailsWith R (if c then refuse fault >>= f else w) := by
  split
  · intro s fault' s' h
    rw [refuse_bind] at h
    obtain ⟨-, rfl⟩ := EStateM.Result.error.inj h
    exact ⟨refl _, rfl⟩
  · exact hw

end Work

/-! ## Bookings that have not moved -/

namespace Tables

/-- What is booked of each slot. -/
def slotFigures (t : Tables) : List (String × Nat) := t.slots.map fun r => (r.id, r.booked)

/-- What is booked on each plan. -/
def planFigures (t : Tables) : List (String × Nat) := t.plans.map fun p => (p.id, p.booked)

/-- No booking has moved: the slots and plans of before have theirs, and new ones have none. -/
structure KeepsBooked (t t' : Tables) : Prop where
  slots : ∃ new : List String, t'.slotFigures = t.slotFigures ++ new.map (·, 0)
  plans : ∃ new : List String, t'.planFigures = t.planFigures ++ new.map (·, 0)

theorem KeepsBooked.of_same (slots : t'.slotFigures = t.slotFigures)
    (plans : t'.planFigures = t.planFigures) : t.KeepsBooked t' where
  slots := ⟨[], slots.trans (List.append_nil _).symm⟩
  plans := ⟨[], plans.trans (List.append_nil _).symm⟩

/-- Slots and plans are brought up to date: no booking has moved, and no lock has changed. -/
structure Refreshes (t t' : Tables) : Prop extends KeepsBooked t t' where
  locks : t'.locks = t.locks

namespace Refreshes

theorem refl (t : Tables) : t.Refreshes t := ⟨.of_same rfl rfl, rfl⟩

theorem trans (t t' t'' : Tables) (h : t.Refreshes t') (h' : t'.Refreshes t'') :
    t.Refreshes t'' where
  slots := by
    obtain ⟨new, same⟩ := h.slots
    obtain ⟨new', same'⟩ := h'.slots
    exact ⟨new ++ new', by rw [same', same, List.map_append, List.append_assoc]⟩
  plans := by
    obtain ⟨new, same⟩ := h.plans
    obtain ⟨new', same'⟩ := h'.plans
    exact ⟨new ++ new', by rw [same', same, List.map_append, List.append_assoc]⟩
  locks := h'.locks.trans h.locks

end Refreshes

end Tables

/-! ## Making locks -/

open Tables (Refreshes)

theorem Store.upsertPlan_leaves (teamId : String) (d : Day) (capacity : Nat) :
    (upsertPlan teamId d capacity).Leaves Refreshes := by
  unfold upsertPlan
  refine Work.leaves_bind Refreshes.trans (Work.leaves_draw Refreshes.refl _) fun id =>
    Work.leaves_bind Refreshes.trans (Work.leaves_run Refreshes.refl fun t t' h => ?_) fun _ =>
    Work.leaves_bind Refreshes.trans ((Work.looks_readRow _ _).leaves Refreshes.refl) fun row =>
    (Work.looks_found _ _ row).leaves Refreshes.refl
  obtain ⟨-, ⟨-, rfl⟩ | ⟨-, -, rfl⟩⟩ := Tables.upsertPlan_ok_cases h
  · exact ⟨.of_same rfl (by refine map_updateWhere ?_ t.plans; exact fun _ => rfl), rfl⟩
  · exact ⟨⟨⟨[], (List.append_nil _).symm⟩, [id], List.map_append⟩, rfl⟩

namespace Ledger

/-- Bringing a slot up to date books nothing, also where it fails. -/
theorem ensureSlotJoined_leaves (teamId : String) (start stop : Instant) :
    (ensureSlotJoined teamId start stop).Leaves Refreshes := by
  unfold ensureSlotJoined
  refine Work.leaves_bind Refreshes.trans ((Work.looks_ofExcept _).leaves Refreshes.refl) fun w =>
    Work.leaves_bind Refreshes.trans ((Work.looks_demand _ _ _).leaves Refreshes.refl) fun team =>
    Work.leaves_bind Refreshes.trans ((Work.looks_ofExcept _).leaves Refreshes.refl) fun z =>
    Work.leaves_bind Refreshes.trans ((Work.looks_ask _).leaves Refreshes.refl) fun profiles =>
    Work.leaves_bind Refreshes.trans (Store.upsertPlan_leaves _ _ _) fun plan =>
    Work.leaves_bind Refreshes.trans ((Work.looks_readRow _ _).leaves Refreshes.refl) fun row => ?_
  cases row with
  | some slot =>
    refine Work.leaves_bind Refreshes.trans (Work.leaves_write fun t => ?_) fun _ =>
      fun _ => ⟨.refl _, rfl⟩
    exact ⟨.of_same (by refine map_updateWhere ?_ t.slots; exact fun _ => rfl) rfl, rfl⟩
  | none =>
    refine Work.leaves_bind Refreshes.trans (Work.leaves_draw Refreshes.refl _) fun id =>
      Work.leaves_bind Refreshes.trans (Work.leaves_run Refreshes.refl fun t t' h => ?_) fun _ =>
      fun _ => ⟨.refl _, rfl⟩
    obtain ⟨-, -, -, -, rfl⟩ := Tables.insertSlot_eq_ok.mp h
    exact ⟨⟨⟨[id], List.map_append⟩, [], (List.append_nil _).symm⟩, rfl⟩

end Ledger

namespace Locks

variable {now : Instant}

/-- A failure to lock units of a team has at most brought slot and plan up to date: it comes before
the lock is stored. -/
theorem createOnTeam_failsWith (j : Job) (teamId : String) (units : Option Nat)
    (expiresAt now : Instant) :
    (createOnTeam j teamId units expiresAt now).FailsWith Refreshes := by
  unfold createOnTeam
  refine Work.failsWith_bind Refreshes.trans ((Work.looks_ofExcept _).leaves .refl) fun _ =>
    Work.failsWith_bind Refreshes.trans (Ledger.ensureSlotJoined_leaves _ _ _) fun slot =>
    Work.failsWith_bind Refreshes.trans ((Work.looks_readRow _ _).leaves .refl) fun row =>
    Work.failsWith_bind Refreshes.trans ((Work.looks_found _ _ row).leaves .refl) fun plan =>
    Work.failsWith_guard Refreshes.refl <|
    Work.failsWith_bind Refreshes.trans (Work.leaves_draw Refreshes.refl _) fun id => ?_
  exact Work.failsWith_first (Work.failsWith_run Refreshes.refl _) fun _ s fault s' h => by cases h

/-- Some of the providers, but not the last, are held for the job, in turn, and nothing else has
changed. -/
def HoldsFirst (jobId : String) (ids : List String) (t t' : Tables) : Prop :=
  ∃ first rest, ∃ made : List Lock, ids = first ++ rest ∧ rest ≠ [] ∧
    t' = { t with locks := t.locks ++ made.map Lock.stored } ∧
    made.map (·.target) = first.map LockTarget.provider ∧
    ∀ l ∈ made, l.jobId = jobId ∧ l.status = .held

namespace HoldsFirst

variable {jobId providerId : String} {rest : List String}

theorem nobody (jobId providerId : String) (rest : List String) (same : t' = t) :
    HoldsFirst jobId (providerId :: rest) t t' :=
  ⟨[], providerId :: rest, [], rfl, List.cons_ne_nil _ _,
    by rw [same, List.map_nil, List.append_nil], rfl, fun _ h => absurd h List.not_mem_nil⟩

theorem cons {l : Lock} (target : l.target = .provider providerId) (job : l.jobId = jobId)
    (held : l.status = .held)
    (h : HoldsFirst jobId rest { t with locks := t.locks ++ [l.stored] } t') :
    HoldsFirst jobId (providerId :: rest) t t' := by
  obtain ⟨first, others, made, rfl, some, tables, targets, all⟩ := h
  refine ⟨providerId :: first, others, l :: made, rfl, some, ?_, ?_, ?_⟩
  · rw [tables, List.map_cons, List.append_assoc, List.singleton_append]
  · rw [List.map_cons, List.map_cons, target, targets]
  · exact List.forall_mem_cons.mpr ⟨⟨job, held⟩, all⟩

theorem keepsBooked {ids : List String} (h : HoldsFirst jobId ids t t') : t.KeepsBooked t' := by
  obtain ⟨-, -, made, -, -, rfl, -⟩ := h
  exact .of_same rfl rfl

end HoldsFirst

/-- A failure to lock providers comes at one of them; those before him are held. -/
theorem createOnProviders_error_cases {j : Job} {expiresAt : Instant} {seen ids : List String}
    {fault : Fault} (h : createOnProviders j expiresAt now seen ids s = .error fault s') :
    HoldsFirst j.id ids s.tables s'.tables ∧ s'.saved = s.saved := by
  induction ids generalizing s seen with
  | nil => cases h
  | cons providerId rest ih =>
    unfold createOnProviders at h
    rw [bind_of_ok (Work.ask_eq_ok.mpr ⟨rfl, rfl⟩)] at h
    cases checked : providerFault s.tables seen j.window now providerId with
    | some fault =>
      rw [checked] at h
      obtain ⟨-, rfl⟩ := EStateM.Result.error.inj h
      exact ⟨.nobody _ _ _ rfl, rfl⟩
    | none =>
      rw [checked] at h
      obtain ⟨id, s₁, drawn⟩ : ∃ id s₁, Work.draw .lock s = .ok id s₁ := ⟨_, _, rfl⟩
      obtain ⟨tables₁, saved₁⟩ := Work.draw_eq_ok drawn
      replace h := (bind_of_ok drawn).symm.trans h
      cases stored : Work.run (Tables.insertLock
          (fresh id j.id (.provider providerId) 1 expiresAt now)) s₁ with
      | error fault s₂ =>
        rw [bind_of_error stored] at h
        obtain ⟨-, rfl⟩ := EStateM.Result.error.inj h
        rw [Work.run_error_cases stored]
        exact ⟨.nobody _ _ _ tables₁, saved₁⟩
      | ok u s₂ =>
        rw [bind_of_ok stored] at h
        obtain ⟨t, done, rfl⟩ := Work.run_eq_ok.mp stored
        rw [tables₁] at done
        obtain ⟨-, -, -, -, rfl⟩ := Tables.insertLock_eq_ok.mp done
        cases others : createOnProviders j expiresAt now (providerId :: seen) rest
            { s₁ with tables := { s.tables with locks := s.tables.locks ++
              [(fresh id j.id (.provider providerId) 1 expiresAt now).stored] } } with
        | ok locks s₂ =>
          cases (bind_of_ok others).symm.trans h
        | error fault₂ s₂ =>
          obtain ⟨rfl, rfl⟩ := EStateM.Result.error.inj ((bind_of_error others).symm.trans h)
          obtain ⟨holds, saved⟩ := ih others
          exact ⟨holds.cons rfl rfl rfl, saved.trans saved₁⟩

theorem createJoined_error_cases {jobId : String} {target : LockRequestTarget}
    {expiresAt : Instant} {fault : Fault}
    (h : createJoined jobId target expiresAt now s = .error fault s') :
    s'.saved = s.saved ∧ (s.tables.Refreshes s'.tables ∨
      ∃ ids, target = .providers ids ∧ HoldsFirst jobId ids s.tables s'.tables) := by
  unfold createJoined at h
  rcases (Work.looks_demand _ _ _).bind_error_cases h with rfl | ⟨j, found, h⟩
  · exact ⟨rfl, .inl (.refl _)⟩
  have own : j.id = jobId := (mem_of_find?_key (Work.demand_eq_ok.mp found).1).2
  dsimp only at h
  by_cases closed : j.isClosed = true
  · rw [if_pos closed, Work.refuse_bind] at h
    obtain ⟨-, rfl⟩ := EStateM.Result.error.inj h
    exact ⟨rfl, .inl (.refl _)⟩
  · rw [if_neg closed] at h
    split at h
    · obtain ⟨refreshes, saved⟩ := createOnTeam_failsWith _ _ _ _ _ _ _ _ h
      exact ⟨saved, .inl refreshes⟩
    · obtain ⟨-, rfl⟩ := EStateM.Result.error.inj h
      exact ⟨rfl, .inl (.refl _)⟩
    · obtain ⟨holds, saved⟩ := createOnProviders_error_cases h
      exact ⟨saved, .inr ⟨_, rfl, own ▸ holds⟩⟩

/-- **What a failure to make locks leaves.** A transaction of its own leaves the tables as they
were. Joined to an open one it leaves that open, and no booking has moved in it; nor has a lock
changed, but for a list of providers of whom the first are held. -/
theorem create_error_cases (config : LockConfig) (actor : Actor) (jobId : String)
    (request : LockRequest) (now : Instant) {fault : Fault}
    (h : create config actor jobId request now s = .error fault s') :
    s'.saved = s.saved ∧ (s.saved = none → s'.tables = s.tables) ∧
      s.tables.KeepsBooked s'.commit.tables ∧
      (s'.commit.tables.locks = s.tables.locks ∨
        ∃ ids, request.target = .providers ids ∧
          HoldsFirst jobId ids s.tables s'.commit.tables) := by
  cases saved : s.saved with
  | none =>
    obtain ⟨same, idle⟩ := Engine.create_failsClean _ _ _ _ _ _ _ _ saved h
    exact ⟨idle, fun _ => same, .of_same (same ▸ rfl) (same ▸ rfl), .inl (same ▸ rfl)⟩
  | some t =>
    unfold create at h
    rcases (Work.looks_ofExcept _).bind_error_cases h with rfl | ⟨-, -, h⟩
    · exact ⟨saved, nofun, .of_same rfl rfl, .inl rfl⟩
    rw [Work.atomic_of_open saved] at h
    obtain ⟨saved', refreshes | ⟨ids, target, holds⟩⟩ := createJoined_error_cases h
    · exact ⟨saved'.trans saved, nofun, refreshes.toKeepsBooked, .inl refreshes.locks⟩
    · exact ⟨saved'.trans saved, nofun, holds.keepsBooked, .inr ⟨ids, target, holds⟩⟩

end Locks

namespace Sample

/-- A provider and a job, and a transaction that is open. -/
def opened : Store := (Operation.afterAll [.insertProvider (provider "ada"), .createJob (job 9)]
  engine).store.begin

/-- Locks on someone who is stored and on someone who is not. -/
def adaAndGhost : LockRequest := ⟨.providers ["ada", "ghost"], none⟩

/-- The second of them is refused, and then the first one is locked. -/
theorem adaAndGhost_refused : ∃ fault s',
    Locks.create {} admin (idText "job" 0) adaAndGhost 0 opened = .error fault s' ∧
      opened.tables.locks = [] ∧ s'.tables.locks.map (·.target) = [.provider "ada"] := by
  have before : opened.tables.locks = [] := by decide +kernel
  have refused : answer? (Locks.create {} admin (idText "job" 0) adaAndGhost 0) opened = none := by
    decide +kernel
  have left : (after (Locks.create {} admin (idText "job" 0) adaAndGhost 0) opened).tables.locks.map
      (·.target) = [.provider "ada"] := by
    decide +kernel
  cases created : Locks.create {} admin (idText "job" 0) adaAndGhost 0 opened with
  | ok locks s' =>
    unfold answer? at refused
    rw [created] at refused
    cases refused
  | error fault s' =>
    rw [after_of_error created] at left
    exact ⟨fault, s', rfl, before, left⟩

end Sample

namespace Locks

theorem create_error_cases_adaAndGhost : ∃ fault s',
    create {} Sample.admin (idText "job" 0) Sample.adaAndGhost 0 Sample.opened = .error fault s' ∧
      s'.saved = Sample.opened.saved ∧ Sample.opened.tables.KeepsBooked s'.commit.tables ∧
      HoldsFirst (idText "job" 0) ["ada", "ghost"] Sample.opened.tables s'.commit.tables := by
  obtain ⟨fault, s', refused, before, left⟩ := Sample.adaAndGhost_refused
  obtain ⟨saved, -, booked, same | ⟨ids, target, holds⟩⟩ := create_error_cases _ _ _ _ _ refused
  · rw [show s'.tables.locks = [] from same.trans before] at left
    cases left
  · obtain rfl : ["ada", "ghost"] = ids := LockRequestTarget.providers.inj target
    exact ⟨fault, s', refused, saved, booked, holds⟩

/-- A failure inside an open transaction can leave locks for whoever commits it. -/
theorem not_all_joined_failures_clean :
    ¬ ∀ (config : LockConfig) (actor : Actor) (jobId : String) (request : LockRequest)
      (now : Instant) (s s' : Store) (fault : Fault),
      create config actor jobId request now s = .error fault s' →
      s'.commit.tables.locks = s.tables.locks ∧
        s'.commit.tables.slotFigures = s.tables.slotFigures ∧
        s'.commit.tables.planFigures = s.tables.planFigures := by
  intro clean
  obtain ⟨fault, s', refused, before, left⟩ := Sample.adaAndGhost_refused
  obtain ⟨same, -⟩ := clean _ _ _ _ _ _ _ _ refused
  rw [show s'.tables.locks = [] from same.trans before] at left
  cases left

end Locks

end Staffing
