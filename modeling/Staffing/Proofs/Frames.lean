import Staffing.Proofs.Run

/-!
# What calls leave alone

Capacity is brought up to date in plans and slots, locks are made and ended in locks, plans and
slots, and jobs are made, staffed and cancelled in jobs and assignments. Whatever the other tables
hold is the same afterwards.

* `Tables.OnlyPlans`, `Tables.OnlyLocks`, `Tables.OnlyDemand` — nothing else has changed
* `Ledger.ensureSlotJoined_onlyPlans`, `Locks.create_onlyLocks`, … — the units of work
* `EngineWork.Keeps` — what a call does to the tables, whichever way it ends
* `Engine.createTeam_grows`, `Engine.createJob_onlyDemand`, … — the calls
-/

namespace Staffing

variable {now : Instant} {t t' : Tables} {α β : Type}

namespace Tables

/-- Nothing but plans and slots has changed. -/
def OnlyPlans (t t' : Tables) : Prop := ∃ plans slots, t' = { t with plans, slots }

/-- Nothing but plans, slots and locks has changed. -/
def OnlyLocks (t t' : Tables) : Prop := ∃ plans slots locks, t' = { t with plans, slots, locks }

/-- Nothing but jobs and assignments has changed. -/
def OnlyDemand (t t' : Tables) : Prop := ∃ jobs assignments, t' = { t with jobs, assignments }

theorem OnlyPlans.refl (t : Tables) : t.OnlyPlans t := ⟨t.plans, t.slots, rfl⟩

theorem OnlyPlans.trans (t t' t'' : Tables) (h : t.OnlyPlans t') (h' : t'.OnlyPlans t'') :
    t.OnlyPlans t'' := by
  obtain ⟨_, _, rfl⟩ := h
  obtain ⟨plans, slots, rfl⟩ := h'
  exact ⟨plans, slots, rfl⟩

theorem OnlyPlans.onlyLocks (h : t.OnlyPlans t') : t.OnlyLocks t' := by
  obtain ⟨plans, slots, rfl⟩ := h
  exact ⟨plans, slots, t.locks, rfl⟩

theorem OnlyLocks.refl (t : Tables) : t.OnlyLocks t := (OnlyPlans.refl t).onlyLocks

theorem OnlyLocks.trans (t t' t'' : Tables) (h : t.OnlyLocks t') (h' : t'.OnlyLocks t'') :
    t.OnlyLocks t'' := by
  obtain ⟨_, _, _, rfl⟩ := h
  obtain ⟨plans, slots, locks, rfl⟩ := h'
  exact ⟨plans, slots, locks, rfl⟩

theorem OnlyLocks.log (h : t.OnlyLocks t') : t'.log = t.log := by
  obtain ⟨_, _, _, rfl⟩ := h
  rfl

theorem OnlyDemand.refl (t : Tables) : t.OnlyDemand t := ⟨t.jobs, t.assignments, rfl⟩

theorem OnlyDemand.trans (t t' t'' : Tables) (h : t.OnlyDemand t') (h' : t'.OnlyDemand t'') :
    t.OnlyDemand t'' := by
  obtain ⟨_, _, rfl⟩ := h
  obtain ⟨jobs, assignments, rfl⟩ := h'
  exact ⟨jobs, assignments, rfl⟩

end Tables

open Tables (OnlyPlans OnlyLocks OnlyDemand RosterGrows)

/-! ## Capacity -/

theorem Store.upsertPlan_onlyPlans (teamId : String) (d : Day) (capacity : Nat) :
    (upsertPlan teamId d capacity).Does OnlyPlans := by
  unfold upsertPlan
  refine Work.does_bind OnlyPlans.trans (Work.does_draw OnlyPlans.refl _) fun id =>
    Work.does_bind OnlyPlans.trans (Work.does_run fun t t' h => ?_) fun _ =>
    Work.does_bind OnlyPlans.trans ((Work.looks_readRow _ _).does OnlyPlans.refl) fun row =>
    (Work.looks_found _ _ row).does OnlyPlans.refl
  obtain ⟨-, ⟨-, rfl⟩ | ⟨-, -, rfl⟩⟩ := Tables.upsertPlan_ok_cases h
  · exact ⟨_, _, rfl⟩
  · exact ⟨_, _, rfl⟩

namespace Ledger

theorem ensureSlotJoined_onlyPlans (teamId : String) (start stop : Instant) :
    (ensureSlotJoined teamId start stop).Does OnlyPlans := by
  unfold ensureSlotJoined
  refine Work.does_bind OnlyPlans.trans ((Work.looks_ofExcept _).does OnlyPlans.refl) fun w =>
    Work.does_bind OnlyPlans.trans ((Work.looks_demand _ _ _).does OnlyPlans.refl) fun team =>
    Work.does_bind OnlyPlans.trans ((Work.looks_ofExcept _).does OnlyPlans.refl) fun z =>
    Work.does_bind OnlyPlans.trans ((Work.looks_ask _).does OnlyPlans.refl) fun profiles =>
    Work.does_bind OnlyPlans.trans (Store.upsertPlan_onlyPlans _ _ _) fun plan =>
    Work.does_bind OnlyPlans.trans ((Work.looks_readRow _ _).does OnlyPlans.refl) fun row => ?_
  cases row with
  | some slot =>
    exact Work.does_bind OnlyPlans.trans (Work.does_write fun _ => ⟨_, _, rfl⟩) fun _ =>
      Work.does_pure OnlyPlans.refl _
  | none =>
    refine Work.does_bind OnlyPlans.trans (Work.does_draw OnlyPlans.refl _) fun id =>
      Work.does_bind OnlyPlans.trans (Work.does_run fun t t' h => ?_) fun _ =>
      Work.does_pure OnlyPlans.refl _
    obtain ⟨-, -, -, -, rfl⟩ := Tables.insertSlot_eq_ok.mp h
    exact ⟨_, _, rfl⟩

theorem ensureSlot_onlyPlans (teamId : String) (start stop : Instant) :
    (ensureSlot teamId start stop).Does OnlyPlans :=
  Work.does_atomic (ensureSlotJoined_onlyPlans teamId start stop)

theorem generatePlans_onlyPlans (teamId : String) (first last : Day) :
    (generatePlans teamId first last).Does OnlyPlans := by
  unfold generatePlans
  refine Work.does_guard <|
    Work.does_bind OnlyPlans.trans ((Work.looks_demand _ _ _).does OnlyPlans.refl) fun team =>
    Work.does_bind OnlyPlans.trans ((Work.looks_ofExcept _).does OnlyPlans.refl) fun z =>
    Work.does_bind OnlyPlans.trans ((Work.looks_ask _).does OnlyPlans.refl) fun profiles => ?_
  exact Work.does_atomic (Work.does_collect OnlyPlans.refl OnlyPlans.trans
    (fun _ => Store.upsertPlan_onlyPlans _ _ _) _)

end Ledger

/-! ## Locks -/

namespace Locks

theorem insertLock_onlyLocks (l : Lock) : (Work.run (Tables.insertLock l)).Does OnlyLocks := by
  refine Work.does_run fun t t' h => ?_
  obtain ⟨-, -, -, -, rfl⟩ := Tables.insertLock_eq_ok.mp h
  exact ⟨_, _, _, rfl⟩

theorem createOnTeam_onlyLocks (j : Job) (teamId : String) (units : Option Nat)
    (expiresAt now : Instant) : (createOnTeam j teamId units expiresAt now).Does OnlyLocks := by
  unfold createOnTeam
  refine Work.does_bind OnlyLocks.trans ((Work.looks_ofExcept _).does OnlyLocks.refl) fun _ =>
    Work.does_bind OnlyLocks.trans ((Ledger.ensureSlotJoined_onlyPlans _ _ _).mono
      fun _ _ h => h.onlyLocks) fun slot =>
    Work.does_bind OnlyLocks.trans ((Work.looks_readRow _ _).does OnlyLocks.refl) fun row =>
    Work.does_bind OnlyLocks.trans ((Work.looks_found _ _ _).does OnlyLocks.refl) fun plan =>
    Work.does_guard <| Work.does_bind OnlyLocks.trans (Work.does_draw OnlyLocks.refl _) fun id =>
    Work.does_bind OnlyLocks.trans (insertLock_onlyLocks _) fun _ =>
    Work.does_bind OnlyLocks.trans (Work.does_write fun _ => ⟨_, _, _, rfl⟩) fun _ =>
    Work.does_pure OnlyLocks.refl _

theorem createOnProviders_onlyLocks (j : Job) (expiresAt now : Instant) (seen ids : List String) :
    (createOnProviders j expiresAt now seen ids).Does OnlyLocks := by
  induction ids generalizing seen with
  | nil => exact Work.does_pure OnlyLocks.refl _
  | cons providerId rest ih =>
    refine Work.does_bind OnlyLocks.trans ((Work.looks_ask _).does OnlyLocks.refl) fun fault => ?_
    cases fault with
    | some fault => exact (Work.looks_refuse fault).does OnlyLocks.refl
    | none =>
      exact Work.does_bind OnlyLocks.trans (Work.does_draw OnlyLocks.refl _) fun id =>
        Work.does_bind OnlyLocks.trans (insertLock_onlyLocks _) fun _ =>
        Work.does_bind OnlyLocks.trans (ih _) fun _ => Work.does_pure OnlyLocks.refl _

theorem create_onlyLocks (config : LockConfig) (actor : Actor) (jobId : String)
    (request : LockRequest) (now : Instant) :
    (create config actor jobId request now).Does OnlyLocks := by
  unfold create
  refine Work.does_bind OnlyLocks.trans ((Work.looks_ofExcept _).does OnlyLocks.refl) fun _ =>
    Work.does_atomic <|
    Work.does_bind OnlyLocks.trans ((Work.looks_demand _ _ _).does OnlyLocks.refl) fun j =>
    Work.does_guard ?_
  obtain ⟨target, ttl⟩ := request
  cases target with
  | team teamId units => exact createOnTeam_onlyLocks _ _ _ _ _
  | providers ids =>
    cases ids with
    | nil => exact (Work.looks_refuse _).does OnlyLocks.refl
    | cons id rest => exact createOnProviders_onlyLocks _ _ _ _ _

theorem confirmOne_onlyLocks (now : Instant) (l : Lock) : (confirmOne now l).Does OnlyLocks := by
  unfold confirmOne
  exact Work.does_bind OnlyLocks.trans (Work.does_write fun _ => ⟨_, _, _, rfl⟩) fun _ =>
    Work.does_pure OnlyLocks.refl _

theorem confirm_onlyLocks (actor : Actor) (jobId : String) (ids : Option (List String))
    (now : Instant) : (confirm actor jobId ids now).Does OnlyLocks := by
  unfold confirm
  exact Work.does_bind OnlyLocks.trans ((Work.looks_ofExcept _).does OnlyLocks.refl) fun _ =>
    Work.does_atomic <|
    Work.does_bind OnlyLocks.trans ((Work.looks_demand _ _ _).does OnlyLocks.refl) fun _ =>
    Work.does_bind OnlyLocks.trans ((Work.looks_ask _).does OnlyLocks.refl) fun live =>
    Work.does_collect OnlyLocks.refl OnlyLocks.trans (confirmOne_onlyLocks now) _

theorem releaseOne_onlyLocks (reason : ReleaseReason) (now : Instant) (l : Lock) :
    (releaseOne reason now l).Does OnlyLocks := by
  intro s r s' h
  obtain ⟨tables, saved⟩ := releaseOne_eq_ok h
  rw [tables, Tables.released_frame]
  exact ⟨⟨_, _, _, rfl⟩, saved⟩

theorem release_onlyLocks (actor : Actor) (jobId : String) (ids : Option (List String))
    (now : Instant) : (release actor jobId ids now).Does OnlyLocks := by
  unfold release
  exact Work.does_bind OnlyLocks.trans ((Work.looks_ofExcept _).does OnlyLocks.refl) fun _ =>
    Work.does_atomic <|
    Work.does_bind OnlyLocks.trans ((Work.looks_demand _ _ _).does OnlyLocks.refl) fun _ =>
    Work.does_bind OnlyLocks.trans ((Work.looks_ask _).does OnlyLocks.refl) fun live =>
    Work.does_collect OnlyLocks.refl OnlyLocks.trans (releaseOne_onlyLocks _ now) _

theorem expire_onlyLocks (lockId : String) (now : Instant) :
    (expire lockId now).Does OnlyLocks := by
  unfold expire
  refine Work.does_atomic <|
    Work.does_bind OnlyLocks.trans ((Work.looks_demand _ _ _).does OnlyLocks.refl) fun l =>
    Work.does_ite ?_ (Work.does_pure OnlyLocks.refl _)
  exact Work.does_bind OnlyLocks.trans (releaseOne_onlyLocks _ _ _) fun _ =>
    Work.does_pure OnlyLocks.refl _

end Locks

theorem Promotion.settle_onlyLocks (lockIds : List String) (now : Instant) (l : Lock) :
    (settle lockIds now l).Does OnlyLocks := by
  unfold settle
  refine Work.does_ite (Work.does_write fun _ => ⟨_, _, _, rfl⟩) ?_
  exact Work.does_bind OnlyLocks.trans (Locks.releaseOne_onlyLocks _ _ _) fun _ =>
    Work.does_pure OnlyLocks.refl _

/-- All live locks of a promoted job. -/
theorem Promotion.eachSettle_onlyLocks (lockIds : List String) (now : Instant) (live : List Lock) :
    (Work.each (settle lockIds now) live).Does OnlyLocks :=
  Work.does_each OnlyLocks.refl OnlyLocks.trans (settle_onlyLocks lockIds now) live

/-! ## Jobs -/

theorem Promotion.assign_onlyDemand (j : Job) (teamId : Option String) (now : Instant)
    (providerId : String) : (assign j teamId now providerId).Does OnlyDemand := by
  unfold assign
  refine Work.does_bind OnlyDemand.trans (Work.does_draw OnlyDemand.refl _) fun id =>
    Work.does_bind OnlyDemand.trans (Work.does_run fun t t' h => ?_) fun _ =>
    Work.does_pure OnlyDemand.refl _
  obtain ⟨-, -, -, rfl⟩ := Tables.insertAssignment_eq_ok.mp h
  exact ⟨_, _, rfl⟩

/-- A commit does not touch the locks of its job. -/
theorem Selection.commit_onlyDemand (selection : Selection) (j : Job) (now : Instant) :
    (selection.commit j now).Does OnlyDemand := by
  unfold commit commitJoined
  refine Work.does_atomic <|
    Work.does_bind OnlyDemand.trans ((Work.looks_demand _ _ _).does OnlyDemand.refl) fun stored =>
    Work.does_bind OnlyDemand.trans ((Work.looks_ask _).does OnlyDemand.refl) fun live =>
    Work.does_ite (Work.does_pure OnlyDemand.refl _) ?_
  refine Work.does_bind OnlyDemand.trans ((Work.looks_ask _).does OnlyDemand.refl) fun fault => ?_
  cases fault with
  | some fault => exact (Work.looks_refuse fault).does OnlyDemand.refl
  | none =>
    refine Work.does_bind OnlyDemand.trans (Work.does_collect OnlyDemand.refl OnlyDemand.trans
      (Promotion.assign_onlyDemand j selection.teamId? now) _) fun _ => ?_
    exact Work.does_bind OnlyDemand.trans (Work.does_write fun _ => ⟨_, _, rfl⟩) fun _ =>
      Work.does_pure OnlyDemand.refl _

/-! ## Calls -/

/-- Whichever way the call ends, the tables before and after are related by `R`, and it has left no
transaction open. -/
def EngineWork.Keeps (R : Tables → Tables → Prop) (w : EngineWork α) : Prop :=
  ∀ e : Engine, e.store.saved = none →
    R e.store.tables (after w e).store.tables ∧ (after w e).store.saved = none

theorem EngineWork.Keeps.mono {R R' : Tables → Tables → Prop} (weaker : ∀ t t', R t t' → R' t t')
    {w : EngineWork α} (hw : w.Keeps R) : w.Keeps R' :=
  fun e idle => ⟨weaker _ _ (hw e idle).1, (hw e idle).2⟩

namespace Engine

variable {R : Tables → Tables → Prop}

theorem keeps_pure (refl : ∀ t, R t t) (a : α) : (pure a : EngineWork α).Keeps R :=
  fun _ idle => ⟨refl _, idle⟩

theorem keeps_ofExcept (refl : ∀ t, R t t) (x : Except Fault α) : (ofExcept x).Keeps R := by
  intro e idle
  cases x <;> exact ⟨refl _, idle⟩

theorem keeps_ask (refl : ∀ t, R t t) (question : Tables → α) : (ask question).Keeps R :=
  fun _ idle => ⟨refl _, idle⟩

theorem keeps_bind (trans : ∀ t u v, R t u → R u v → R t v) {w : EngineWork α}
    {f : α → EngineWork β} (hw : w.Keeps R) (hf : ∀ a, (f a).Keeps R) : (w >>= f).Keeps R := by
  intro e idle
  obtain ⟨first, idle₁⟩ := hw e idle
  cases done : w e with
  | ok a e₁ =>
    rw [after_of_ok done] at first idle₁
    rw [after_bind_of_ok done]
    obtain ⟨second, idle'⟩ := hf a e₁ idle₁
    exact ⟨trans _ _ _ first second, idle'⟩
  | error fault e₁ =>
    rw [after_of_error done] at first idle₁
    rw [after_bind_of_error done]
    exact ⟨first, idle₁⟩

/-- A check in front of a call. -/
theorem keeps_guard (refl : ∀ t, R t t) {c : Prop} [Decidable c] {fault : Fault}
    {f : α → EngineWork β} {w : EngineWork β} (hw : ¬ c → w.Keeps R) :
    (if c then refuse fault >>= f else w).Keeps R := by
  by_cases h : c
  · rw [if_pos h]
    exact fun _ idle => ⟨refl _, idle⟩
  · rw [if_neg h]
    exact hw h

theorem keeps_ite {c : Prop} [Decidable c] {v w : EngineWork α} (hv : v.Keeps R)
    (hw : w.Keeps R) : (if c then v else w).Keeps R := by
  split
  · exact hv
  · exact hw

/-- A unit of work that fails clean. -/
theorem keeps_onStore (refl : ∀ t, R t t) {w : Work α} (does : w.Does R) (clean : w.FailsClean) :
    (onStore w).Keeps R := by
  intro e idle
  rw [after_onStore]
  cases done : w e.store with
  | ok a s' =>
    rw [after_of_ok done]
    exact ⟨(does _ _ _ done).1, (does _ _ _ done).2.trans idle⟩
  | error fault s' =>
    rw [after_of_error done]
    obtain ⟨tables, idle'⟩ := clean _ _ _ idle done
    exact ⟨tables ▸ refl _, idle'⟩

theorem keeps_looks (refl : ∀ t, R t t) {w : Work α} (hw : w.Looks) : (onStore w).Keeps R :=
  keeps_onStore refl (hw.does refl) hw.failsClean

/-! ### Teams -/

private theorem rosterGrows_trans (t u v : Tables) (h : t.RosterGrows u) (h' : u.RosterGrows v) :
    t.RosterGrows v := h.trans h'

theorem createTeam_grows (actor : Actor) (n : NewTeam) :
    (createTeam actor n).Keeps RosterGrows := by
  unfold createTeam
  refine keeps_bind rosterGrows_trans (keeps_ofExcept RosterGrows.refl _) fun _ =>
    keeps_guard RosterGrows.refl fun _ => keeps_guard RosterGrows.refl fun zone =>
    keeps_guard RosterGrows.refl fun _ =>
    keeps_bind rosterGrows_trans (keeps_ask RosterGrows.refl _) fun _ =>
    keeps_bind rosterGrows_trans (keeps_ofExcept RosterGrows.refl _) fun _ =>
    keeps_bind rosterGrows_trans (keeps_onStore RosterGrows.refl
      (Work.does_draw RosterGrows.refl _) (Work.failsClean_draw _)) fun id =>
    keeps_bind rosterGrows_trans ?_ fun _ => keeps_pure RosterGrows.refl _
  refine keeps_onStore RosterGrows.refl (Store.insertTeam_does ?_) (Work.failsClean_atomic _)
  simpa [Option.isSome_iff_ne_none] using zone

theorem replaceTeamMembers_grows (actor : Actor) (teamId : String) (members : List Member) :
    (replaceTeamMembers actor teamId members).Keeps RosterGrows := by
  unfold replaceTeamMembers
  refine keeps_bind rosterGrows_trans (keeps_ofExcept RosterGrows.refl _) fun _ =>
    keeps_bind rosterGrows_trans (keeps_looks RosterGrows.refl (Work.looks_demand _ _ _)) fun _ =>
    keeps_bind rosterGrows_trans (keeps_ask RosterGrows.refl _) fun _ =>
    keeps_bind rosterGrows_trans (keeps_ofExcept RosterGrows.refl _) fun _ =>
    keeps_bind rosterGrows_trans ?_ fun _ => keeps_pure RosterGrows.refl _
  exact keeps_onStore RosterGrows.refl (Store.replaceMembers_does teamId members)
    (Work.failsClean_atomic _)

/-! ### Jobs -/

theorem createJob_onlyDemand (n : NewJob) : (createJob n).Keeps OnlyDemand := by
  intro e idle
  obtain ⟨s', left, idle', same | ⟨id, -, -, -, -, booked⟩⟩ := createJob_cases idle n
  · exact left ▸ ⟨same ▸ .refl _, idle'⟩
  · exact left ▸ ⟨booked ▸ ⟨_, _, rfl⟩, idle'⟩

theorem cancelJob_onlyDemand (actor : Actor) (jobId : String) :
    (cancelJob actor jobId).Keeps OnlyDemand := by
  intro e idle
  obtain ⟨s', left, idle', same | ⟨-, cancelled⟩⟩ := cancelJob_cases idle actor jobId
  · exact left ▸ ⟨same ▸ .refl _, idle'⟩
  · obtain ⟨f, -, frame⟩ := Tables.cancelled_frame jobId e.now e.store.tables
    rw [frame] at cancelled
    exact left ▸ ⟨cancelled ▸ ⟨_, _, rfl⟩, idle'⟩

end Engine

end Staffing
