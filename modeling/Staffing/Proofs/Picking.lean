import Staffing.Proofs.DoubleBooking
import Staffing.Proofs.Fixpoint
import Staffing.Proofs.Headroom

/-!
# Who goes by the locks of a job

The choice of a promotion, said without its loops. A lock is of use when it is confirmed and expires
later than now, and a provider is free when no blocking assignment on another job overlaps the
window.

* `Tables.confirmedLocks`, `Tables.IsFree` — locks that are of use, providers who are free
* `Team.InOrder` — the members of a team, leads first, then by order index, then by id
* `Tables.Suffices`, `Tables.NamesEnough` — a lock on a team with enough free members; locks that
  name enough free providers
* `Tables.Picks` — who goes, by which locks
* `Promotion.choice?_isSome_iff`, `Promotion.choice?_picks` — the choice is that, whenever there is
  one
-/

namespace Staffing

variable {now : Instant} {t : Tables} {j : Job} {l : Lock} {usable : List Lock} {team : Team}
  {e : Engine} {past : List (Engine × Operation)}

/-! ## Locks and providers -/

namespace Tables

/-- The confirmed locks of a job that expire later than now, in the order in which they came. -/
def confirmedLocks (t : Tables) (jobId : String) (now : Instant) : List Lock :=
  t.locks.filter fun l => l.jobId = jobId ∧ l.status = .confirmed ∧ now < l.expiresAt

theorem usableLocks_eq (whole : t.ExpiriesWhole) (jobId : String) (now : Instant) :
    t.usableLocks jobId now = t.confirmedLocks jobId now := by
  unfold usableLocks locksFor confirmedLocks
  rw [List.filter_filter]
  refine List.filter_congr fun l hl => ?_
  unfold Lock.isUsable Lock.isLive
  rw [Lock.lapsed_eq (whole l hl)]
  by_cases confirmed : l.status = .confirmed
  · rw [Bool.eq_iff_iff]
    simp [confirmed, LockStatus.isActive, and_comm]
  · simp [confirmed]

/-- Does no blocking assignment of the provider, on another job, overlap the window of the job? -/
def IsFree (t : Tables) (j : Job) (id : String) : Prop :=
  ∀ a ∈ t.assignments, a.providerId = id → a.jobId ≠ j.id → a.status.isBlocking = true →
    a.window.overlaps j.window = false

instance (t : Tables) (j : Job) (id : String) : Decidable (t.IsFree j id) :=
  inferInstanceAs (Decidable (∀ a ∈ t.assignments, _))

/-- The windows of assignments and of the job are those of whole seconds. -/
structure InSeconds (t : Tables) (j : Job) : Prop where
  assignments : ∀ a ∈ t.assignments, a.window.wholeSeconds = a.window
  job : j.window.wholeSeconds = j.window

end Tables

theorem Promotion.isFree_eq (whole : t.InSeconds j) :
    isFree t j = fun id => decide (t.IsFree j id) := by
  funext id
  rw [Bool.eq_iff_iff, isFree_iff, decide_eq_true_iff, Bool.eq_false_iff, ne_eq,
    Tables.hasConflict_iff]
  simp only [not_exists, not_and, Bool.not_eq_true]
  refine forall₂_congr fun a ha => ?_
  rw [whole.assignments a ha, whole.job]

/-! ## Members in order -/

/-- Does `a` come before `b`? Leads come first, then lower order indices, then lower ids. -/
def Member.ComesBefore (a b : Member) : Prop :=
  a.isLead = true ∧ b.isLead = false ∨ a.isLead = b.isLead ∧
    (a.orderIndex < b.orderIndex ∨ a.orderIndex = b.orderIndex ∧ a.providerId < b.providerId)

/-- These are the members of the team, in order. -/
structure Team.InOrder (team : Team) (members : List Member) : Prop where
  perm : members.Perm team.members
  sorted : members.Pairwise Member.ComesBefore

namespace Member

theorem precedes_iff {a b : Member} : a.precedes b = true ↔
    a.isLead = true ∧ b.isLead = false ∨ a.isLead = b.isLead ∧ (a.orderIndex < b.orderIndex ∨
      a.orderIndex = b.orderIndex ∧ a.providerId ≤ b.providerId) := by
  unfold precedes
  by_cases lead : a.isLead = b.isLead
  · by_cases index : a.orderIndex = b.orderIndex
    · simp [lead, index]
    · simp [lead, index]
  · cases ha : a.isLead <;> cases hb : b.isLead <;> simp_all

theorem precedes_trans {a b c : Member} (hab : a.precedes b = true) (hbc : b.precedes c = true) :
    a.precedes c = true := by
  rw [precedes_iff] at *
  rcases hab with ⟨lead, other⟩ | ⟨lead, hab⟩
  · rcases hbc with ⟨again, -⟩ | ⟨same, -⟩
    · rw [other] at again
      cases again
    · exact .inl ⟨lead, same ▸ other⟩
  · rcases hbc with ⟨leads, other⟩ | ⟨same, hbc⟩
    · exact .inl ⟨lead.trans leads, other⟩
    · refine .inr ⟨lead.trans same, ?_⟩
      rcases hab with lower | ⟨level, before⟩ <;> rcases hbc with lower' | ⟨level', before'⟩
      · exact .inl (lower.trans lower')
      · exact .inl (level' ▸ lower)
      · exact .inl (level ▸ lower')
      · exact .inr ⟨level.trans level', before.trans before'⟩

theorem precedes_total (a b : Member) : (a.precedes b || b.precedes a) = true := by
  rw [Bool.or_eq_true, precedes_iff, precedes_iff]
  by_cases lead : a.isLead = b.isLead
  · rcases lt_trichotomy a.orderIndex b.orderIndex with lower | level | higher
    · exact .inl (.inr ⟨lead, .inl lower⟩)
    · rcases le_total a.providerId b.providerId with before | after
      · exact .inl (.inr ⟨lead, .inr ⟨level, before⟩⟩)
      · exact .inr (.inr ⟨lead.symm, .inr ⟨level.symm, after⟩⟩)
    · exact .inr (.inr ⟨lead.symm, .inl higher⟩)
  · cases ha : a.isLead <;> cases hb : b.isLead <;> simp_all

/-- Of two members the one that precedes comes before the other. -/
theorem comesBefore_of_precedes {a b : Member} (h : a.precedes b = true)
    (differ : a.providerId ≠ b.providerId) : a.ComesBefore b := by
  rcases precedes_iff.mp h with lead | ⟨lead, lower | ⟨level, before⟩⟩
  · exact .inl lead
  · exact .inr ⟨lead, .inl lower⟩
  · exact .inr ⟨lead, .inr ⟨level, lt_of_le_of_ne before differ⟩⟩

end Member

theorem Team.orderedMembers_inOrder (nodup : (team.members.map (·.providerId)).Nodup) :
    team.InOrder team.orderedMembers where
  perm := List.mergeSort_perm _ _
  sorted := by
    have sorted : team.orderedMembers.Pairwise fun a b => a.precedes b = true := by
      refine List.pairwise_mergeSort ?_ ?_ team.members
      · exact fun _ _ _ => Member.precedes_trans
      · exact Member.precedes_total
    have distinct := List.pairwise_map.mp (Team.orderedMembers_nodup nodup)
    exact (sorted.and distinct).imp fun ⟨precedes, differ⟩ =>
      Member.comesBefore_of_precedes precedes differ

/-! ## Who goes -/

namespace Tables

/-- The lock is on a team that has enough free members. -/
def Suffices (t : Tables) (j : Job) (l : Lock) : Prop :=
  ∃ teamId slotId team, l.target = .team teamId slotId ∧ t.team? teamId = some team ∧
    j.requiredMembers ≤ (team.members.filter fun m => t.IsFree j m.providerId).length

/-- The locks name enough different providers who are free. -/
def NamesEnough (t : Tables) (j : Job) (usable : List Lock) : Prop :=
  ∃ ids : List String, ids.Nodup ∧ ids.length = j.requiredMembers ∧
    ∀ id ∈ ids, t.IsFree j id ∧ ∃ l ∈ usable, l.target = .provider id

/-- The free ones of the members, in their order. -/
def freeAmong (t : Tables) (j : Job) (members : List Member) : List String :=
  (members.map (·.providerId)).filter fun id => t.IsFree j id

/-- The free providers whom locks name, in the order of the locks, each once. -/
def freeHolders (t : Tables) (j : Job) (usable : List Lock) : List String :=
  ((usable.filterMap (·.target.providerId?)).filter fun id => t.IsFree j id).eraseDups

/-- The first of the locks that names the provider. -/
def firstOn (usable : List Lock) (id : String) : Option Lock :=
  usable.find? fun l => l.target.providerId? == some id

/-- From which team, if from one, which providers go, and by which locks. -/
inductive Picks (t : Tables) (j : Job) (usable : List Lock) :
    Option String → List String → List String → Prop
  /-- By the first lock on a team that has enough free members go the first of these. -/
  | team {before later : List Lock} {l : Lock} {teamId slotId : String} {team : Team}
      {members : List Member} :
      usable = before ++ l :: later → (∀ k ∈ before, ¬ t.Suffices j k) →
      l.target = .team teamId slotId → t.team? teamId = some team → team.InOrder members →
      j.requiredMembers ≤ (t.freeAmong j members).length →
      Picks t j usable (some teamId) ((t.freeAmong j members).take j.requiredMembers) [l.id]
  /-- There is no such lock, and the first free providers go whom locks name, each by the first lock
  that names him. -/
  | holders :
      (∀ k ∈ usable, ¬ t.Suffices j k) → j.requiredMembers ≤ (t.freeHolders j usable).length →
      Picks t j usable none ((t.freeHolders j usable).take j.requiredMembers)
        (((t.freeHolders j usable).take j.requiredMembers).filterMap fun id =>
          (firstOn usable id).map (·.id))

/-- The order does not matter for the number of those who are free. -/
theorem length_freeAmong (t : Tables) (j : Job) (team : Team) :
    (t.freeAmong j team.orderedMembers).length
      = (team.members.filter fun m => t.IsFree j m.providerId).length := by
  have perm : team.orderedMembers.Perm team.members := List.mergeSort_perm _ _
  unfold freeAmong
  rw [((perm.map _).filter _).length_eq, List.filter_map, List.length_map]
  rfl

end Tables

namespace Promotion

/-- A lock on a team that has enough free members sends the first of these. -/
theorem byTeamLock?_eq_some (whole : t.InSeconds j) {choice : PromotionChoice}
    (h : byTeamLock? t j l = some choice) : ∃ teamId slotId team, l.target = .team teamId slotId ∧
      t.team? teamId = some team ∧
      j.requiredMembers ≤ (t.freeAmong j team.orderedMembers).length ∧ choice
        = ⟨some teamId, (t.freeAmong j team.orderedMembers).take j.requiredMembers, [l.id]⟩ := by
  unfold byTeamLock? freeMembers at h
  rw [isFree_eq whole] at h
  simp only [Option.bind_eq_bind, Option.bind_eq_some_iff] at h
  obtain ⟨teamId, target, team, found, h⟩ := h
  split at h
  · next enough =>
    cases onTeam : l.target with
    | provider => simp [LockTarget.teamId?, onTeam] at target
    | team teamId' slotId =>
      obtain rfl : teamId' = teamId := by simpa [LockTarget.teamId?, onTeam] using target
      exact ⟨teamId', slotId, team, rfl, found, enough, (Option.some.inj h).symm⟩
  · cases h

/-- No other lock sends anyone. -/
theorem byTeamLock?_isSome_iff (whole : t.InSeconds j) :
    (byTeamLock? t j l).isSome = true ↔ t.Suffices j l := by
  constructor
  · intro some
    obtain ⟨choice, decides⟩ := Option.isSome_iff_exists.mp some
    obtain ⟨teamId, slotId, team, target, found, enough, -⟩ := byTeamLock?_eq_some whole decides
    rw [Tables.length_freeAmong] at enough
    exact ⟨teamId, slotId, team, target, found, enough⟩
  · rintro ⟨teamId, slotId, team, target, found, enough⟩
    rw [← Tables.length_freeAmong] at enough
    unfold byTeamLock? freeMembers
    rw [isFree_eq whole]
    have free : j.requiredMembers ≤ ((team.orderedMembers.map (·.providerId)).filter fun id =>
        decide (t.IsFree j id)).length := enough
    simp [target, LockTarget.teamId?, found, free]

/-- The providers whom locks offer, in the order of the locks; `seen` came before. -/
theorem freeProviderLocks_ids (whole : t.InSeconds j) (seen : List String) (usable : List Lock) :
    (freeProviderLocks t j seen usable).map (·.1)
      = ((usable.filterMap (·.target.providerId?)).filter fun id =>
          t.IsFree j id ∧ id ∉ seen).eraseDups := by
  induction usable generalizing seen with
  | nil => rfl
  | cons l rest ih =>
    rw [freeProviderLocks, List.filterMap_cons]
    cases target : l.target.providerId? with
    | none => exact ih seen
    | some id =>
      dsimp only
      by_cases known : id ∈ seen
      · rw [if_pos (List.contains_iff_mem.mpr known), ih,
          List.filter_cons_of_neg (by simp [known])]
      · rw [if_neg (by simpa using known), isFree_eq whole]
        by_cases free : t.IsFree j id
        · rw [if_pos (by simpa using free), List.map_cons, ih,
            List.filter_cons_of_pos (by simp [free, known]), List.eraseDups_cons,
            List.filter_filter]
          -- What comes once more is among those who have been seen now.
          refine congrArg (fun rows => id :: List.eraseDups rows) (List.filter_congr fun k _ => ?_)
          rw [Bool.eq_iff_iff]
          simp [and_comm, and_assoc]
        · rw [if_neg (by simpa using free), ih, List.filter_cons_of_neg (by simp [free])]
          refine congrArg List.eraseDups (List.filter_congr fun k _ => ?_)
          by_cases same : k = id
          · simp [same, free]
          · simp [same]

/-- Each provider is offered by the first lock that names him. -/
theorem freeProviderLocks_first (seen : List String) (usable : List Lock) :
    ∀ pick ∈ freeProviderLocks t j seen usable,
      (Tables.firstOn usable pick.1).map (·.id) = some pick.2 := by
  induction usable generalizing seen with
  | nil => exact fun _ never => absurd never List.not_mem_nil
  | cons l rest ih =>
    -- A lock that is passed over names nobody who is offered later.
    have passed (seen' : List String) (grown : ∀ id, l.target.providerId? = some id → id ∈ seen') :
        ∀ pick ∈ freeProviderLocks t j seen' rest,
          (Tables.firstOn (l :: rest) pick.1).map (·.id) = some pick.2 := by
      intro pick hpick
      have unseen := ((freeProviderLocks_cases t j seen' rest).2.2 pick hpick).1
      have other : (l.target.providerId? == some pick.1) = false :=
        beq_eq_false_iff_ne.mpr fun same => unseen (grown _ same)
      unfold Tables.firstOn
      rw [List.find?_cons, other]
      exact ih seen' pick hpick
    rw [freeProviderLocks]
    cases target : l.target.providerId? with
    | none => exact passed seen fun id named => by cases target.symm.trans named
    | some id =>
      have named (seen' : List String) (known : id ∈ seen') :
          ∀ id, l.target.providerId? = some id → id ∈ seen' := by
        intro id' same
        rwa [← Option.some.inj (target.symm.trans same)]
      dsimp only
      split
      · next known => exact passed seen (named seen (List.contains_iff_mem.mp known))
      · split
        · intro pick hpick
          rcases List.mem_cons.mp hpick with rfl | later
          · unfold Tables.firstOn
            rw [List.find?_cons, target, beq_self_eq_true]
            rfl
          · exact passed _ (named _ List.mem_cons_self) pick later
        · exact passed _ (named _ List.mem_cons_self)

/-- The locks of the providers who are offered. -/
theorem freeProviderLocks_lockIds (usable : List Lock) (n : Nat) :
    ((freeProviderLocks t j [] usable).take n).map (·.2)
      = (((freeProviderLocks t j [] usable).map (·.1)).take n).filterMap fun id =>
          (Tables.firstOn usable id).map (·.id) := by
  rw [← List.map_take, List.filterMap_map, ← List.filterMap_eq_map]
  refine List.filterMap_congr fun pick hpick => ?_
  exact (freeProviderLocks_first [] usable pick (List.mem_of_mem_take hpick)).symm

theorem freeProviderLocks_holders (whole : t.InSeconds j) (usable : List Lock) :
    (freeProviderLocks t j [] usable).map (·.1) = t.freeHolders j usable := by
  rw [freeProviderLocks_ids whole]
  simp [Tables.freeHolders]

theorem mem_freeHolders {id : String} : id ∈ t.freeHolders j usable ↔
    t.IsFree j id ∧ ∃ l ∈ usable, l.target = .provider id := by
  unfold Tables.freeHolders
  simp [LockTarget.providerId?_eq_some, and_comm]

/-- Locks name enough free providers exactly if so many are left when each is taken once. -/
theorem namesEnough_iff (whole : t.InSeconds j) :
    t.NamesEnough j usable ↔ j.requiredMembers ≤ (t.freeHolders j usable).length := by
  constructor
  · rintro ⟨ids, distinct, enough, named⟩
    rw [← enough]
    exact distinct.length_le_of_subset fun id hid => mem_freeHolders.mpr (named id hid)
  · intro enough
    have distinct : (t.freeHolders j usable).Nodup := by
      rw [← freeProviderLocks_holders whole]
      exact (freeProviderLocks_cases t j [] usable).1
    refine ⟨(t.freeHolders j usable).take j.requiredMembers, ?_, ?_, fun id hid => ?_⟩
    · exact distinct.sublist (List.take_sublist _ _)
    · rw [List.length_take, Nat.min_eq_left enough]
    · exact mem_freeHolders.mp (List.mem_of_mem_take hid)

/-- By the locks on providers the first free ones whom they name go, if they are enough. -/
theorem byProviderLocks?_eq (whole : t.InSeconds j) (usable : List Lock) :
    byProviderLocks? t j usable = if j.requiredMembers ≤ (t.freeHolders j usable).length then
      some ⟨none, (t.freeHolders j usable).take j.requiredMembers,
        ((t.freeHolders j usable).take j.requiredMembers).filterMap fun id =>
          (Tables.firstOn usable id).map (·.id)⟩ else none := by
  unfold byProviderLocks?
  rw [← freeProviderLocks_holders whole, List.length_map]
  dsimp only
  rw [freeProviderLocks_lockIds, List.map_take]

/-- **Somebody goes by the usable locks** exactly if one of them is on a team that has enough free
members, or they name enough free providers. -/
theorem choice?_isSome_iff (whole : t.InSeconds j) (some : 1 ≤ j.requiredMembers) :
    (choice? t j usable).isSome = true ↔
      (∃ l ∈ usable, t.Suffices j l) ∨ t.NamesEnough j usable := by
  have byTeam :
      (usable.findSome? (byTeamLock? t j)).isSome = true ↔ ∃ l ∈ usable, t.Suffices j l := by
    rw [List.findSome?_isSome_iff]
    exact exists_congr fun l => and_congr_right fun _ => byTeamLock?_isSome_iff whole
  have byProviders : (byProviderLocks? t j usable).isSome = true ↔ t.NamesEnough j usable := by
    rw [byProviderLocks?_eq whole, namesEnough_iff whole]
    split <;> simp_all
  unfold choice?
  cases usable with
  | nil =>
    -- Without locks nobody is named, and somebody is required.
    simp only [List.isEmpty_nil, if_true, Option.isSome_none, Bool.false_eq_true, List.not_mem_nil,
      false_and, exists_false, false_or, false_iff]
    rintro ⟨ids, -, enough, named⟩
    cases ids with
    | nil => exact absurd (enough ▸ some) (by decide)
    | cons id rest => obtain ⟨-, l, never, -⟩ := named id List.mem_cons_self; cases never
  | cons l rest =>
    rw [List.isEmpty_cons, if_neg Bool.false_ne_true, ← byTeam, ← byProviders]
    cases (l :: rest).findSome? (byTeamLock? t j) <;> simp

/-- **Who goes by the usable locks.** -/
theorem choice?_picks (keyed : t.RosterKeyed) (whole : t.InSeconds j) {choice : PromotionChoice}
    (h : choice? t j usable = some choice) :
    t.Picks j usable choice.teamId choice.providerIds choice.lockIds := by
  unfold choice? at h
  split at h
  · cases h
  cases byTeam : usable.findSome? (byTeamLock? t j) with
  | some chosen =>
    rw [byTeam] at h
    obtain rfl : chosen = choice := Option.some.inj h
    obtain ⟨before, l, later, split, decides, others⟩ := List.findSome?_eq_some_iff.mp byTeam
    obtain ⟨teamId, slotId, team, target, found, enough, rfl⟩ := byTeamLock?_eq_some whole decides
    have inOrder : team.InOrder team.orderedMembers :=
      Team.orderedMembers_inOrder (keyed.members team (List.mem_of_find?_eq_some found))
    refine .team split (fun k hk can => ?_) target found inOrder enough
    rw [← byTeamLock?_isSome_iff whole, others k hk] at can
    cases can
  | none =>
    have byProviders : byProviderLocks? t j usable = some choice := by rwa [byTeam] at h
    rw [byProviderLocks?_eq whole] at byProviders
    split at byProviders
    · next enough =>
      obtain rfl := Option.some.inj byProviders
      refine .holders (fun k hk can => ?_) enough
      rw [← byTeamLock?_isSome_iff whole, List.findSome?_eq_none_iff.mp byTeam k hk] at can
      cases can
    · cases byProviders

end Promotion

/-! ## Runs -/

namespace Tables

/-- Jobs ask for somebody. -/
def AsksForSome (t : Tables) : Prop := ∀ j ∈ t.jobs, 1 ≤ j.requiredMembers

end Tables

theorem Calm.asksForSome {t' : Tables} (h : Calm now t t') (asks : t.AsksForSome) :
    t'.AsksForSome := by
  intro j hj
  rcases h.jobs_cases with same | ⟨n, id, -, -, least, -, added⟩ | ⟨id, f, hf, updated⟩
  · exact asks j (same ▸ hj)
  · rw [added] at hj
    rcases List.mem_append.mp hj with old | new
    · exact asks j old
    · rw [List.mem_singleton.mp new]
      exact least
  · rw [updated] at hj
    obtain ⟨k, hk, rfl⟩ := mem_updateWhere.mp hj
    split
    · exact (hf k).2.2 ▸ asks k hk
    · exact asks k hk

/-- Every step leaves jobs that ask for somebody. -/
theorem Step.asksForSome {p q : Tables × List String} (h : Step now p q)
    (asks : p.1.AsksForSome) : q.1.AsksForSome := by
  cases h with
  | ebb h =>
    cases h with
    | calm h => exact h.asksForSome asks
    | settle => exact asks
  | holdTeam => exact asks

namespace Run

theorem asksForSome (run : Run past e) : e.store.tables.AsksForSome :=
  (run.holds (I := fun p => p.1.AsksForSome) (fun _ h => absurd h List.not_mem_nil)
    fun _ _ _ _ asks step => step.asksForSome asks).2

theorem inSeconds (run : Run past e) (hj : j ∈ e.store.tables.jobs) :
    e.store.tables.InSeconds j where
  assignments := run.keepsApart.whole
  job := (run.orderly.jobs j hj).2

end Run

end Staffing
