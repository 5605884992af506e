import Staffing.Proofs.Competition
import Staffing.Proofs.DayCeiling
import Staffing.Proofs.ExactPromotion

/-!
# Members who are counted and members who go

The capacity of a team's window counts the active members whose hours cover it and who are not off.
A promotion by a lock on the team does not ask for that: it sends members who have nothing else to
do then. So someone who was not counted may go, but of these no more than the team has.

* `Team.counted` — the members who are counted
* `Tables.SameCrew` — a team has the same members with the same hours
* `Run.createLocks_capacity` — the capacity that a lock on a team is made with
* `Tables.Picks.byTeamLock` — who goes by a lock on a team
* `promoted_members_counted` — how many of these were counted
-/

namespace Staffing

variable {now : Instant} {t t' : Tables} {e e₀ e₁ e' : Engine} {team : Team} {w : Window} {j : Job}
  {past : List (Engine × Operation)} {actor : Actor} {jobId teamId : String} {units : Option Nat}
  {ttl : Option Int}

/-! ## Members who are counted -/

namespace Team

/-- The active members whose hours cover the window, and who are not off then. -/
def counted (team : Team) (t : Tables) (w : Window) : List String :=
  ((team.profiles t).filter fun p => coversExactly p.slots p.timeOff w).map (·.id)

/-- The capacity of a window is the number of those, or that of the day. -/
theorem windowCapacity_eq (team : Team) (t : Tables) (w : Window) (z : Zone) :
    team.windowCapacity (team.profiles t) w z = min ((team.counted t w).length % UInt32.size)
      (team.dailyCapacity (team.profiles t) (z.dayAt w.start) z) := by
  unfold windowCapacity counted
  rw [List.countP_eq_length_filter, List.length_map]

/-- They are members, in the order of the team. -/
theorem counted_sublist (team : Team) (t : Tables) (w : Window) :
    (team.counted t w).Sublist (team.members.map (·.providerId)) := by
  have profiles : ((team.members.filterMap fun m => t.provider? m.providerId).map (·.id)).Sublist
      (team.members.map (·.providerId)) := by
    induction team.members with
    | nil => exact .slnil
    | cons m rest ih =>
      rw [List.filterMap_cons]
      cases found : t.provider? m.providerId with
      | none => exact ih.cons _
      | some p =>
        have own : p.id = m.providerId := (mem_of_find?_key found).2
        rw [List.map_cons, List.map_cons, own]
        exact ih.cons_cons _
  unfold counted Team.profiles
  rw [List.filter_filter]
  exact (List.filter_sublist.map _).trans profiles

/-- Of different members, those who are not counted and those who are make up no more than all. -/
theorem length_uncounted_le {ids : List String} (distinct : ids.Nodup)
    (keyed : (team.members.map (·.providerId)).Nodup)
    (members : ∀ id ∈ ids, id ∈ team.members.map (·.providerId)) :
    (ids.filter fun id => id ∉ team.counted t w).length + (team.counted t w).length
      ≤ team.members.length := by
  have sublist := team.counted_sublist t w
  have apart : (ids.filter fun id => id ∉ team.counted t w).Disjoint (team.counted t w) := by
    intro id hid counted
    simp [counted] at hid
  have all : (team.members.map (·.providerId)).length = team.members.length := List.length_map _
  rw [← List.length_append, ← all]
  refine ((distinct.filter _).append (keyed.sublist sublist) apart).length_le_of_subset ?_
  intro id hid
  rcases List.mem_append.mp hid with sent | counted
  · exact members id (List.mem_filter.mp sent).1
  · exact sublist.subset counted

/-- Where all members are counted, there is none among them who is not. -/
theorem mem_counted_of_all {ids : List String} (distinct : ids.Nodup)
    (keyed : (team.members.map (·.providerId)).Nodup)
    (members : ∀ id ∈ ids, id ∈ team.members.map (·.providerId))
    (all : (team.counted t w).length = team.members.length) :
    ∀ id ∈ ids, id ∈ team.counted t w := by
  intro id hid
  by_contra uncounted
  have one : 0 < (ids.filter fun id => id ∉ team.counted t w).length :=
    List.length_pos_of_mem (List.mem_filter.mpr ⟨hid, decide_eq_true uncounted⟩)
  have atMost := length_uncounted_le (t := t) (w := w) distinct keyed members
  omega

end Team

/-- What counts of a profile: whether the provider is active, the weekly hours and the times off. -/
def Provider.hours (p : Provider) : Bool × List WeeklySlot × List Window :=
  (p.active, p.slots, p.timeOff)

/-- The team has the same members, and these have the same hours. -/
def Tables.SameCrew (t t' : Tables) (teamId : String) : Prop :=
  ∀ team ∈ t.team? teamId, ∀ team' ∈ t'.team? teamId, team'.members = team.members ∧
    ∀ m ∈ team.members, (t'.provider? m.providerId).map Provider.hours
      = (t.provider? m.providerId).map Provider.hours

instance (t t' : Tables) (teamId : String) : Decidable (t.SameCrew t' teamId) :=
  inferInstanceAs (Decidable (∀ team ∈ t.team? teamId, ∀ team' ∈ t'.team? teamId, _ ∧ _))

namespace Team

theorem profiles_hours (same : ∀ m ∈ team.members, (t'.provider? m.providerId).map Provider.hours
    = (t.provider? m.providerId).map Provider.hours) :
    (team.profiles t').map Provider.hours = (team.profiles t).map Provider.hours := by
  have view : (fun p : Provider => p.active) = (·.1) ∘ Provider.hours := rfl
  unfold profiles
  rw [view, ← List.filter_map, ← List.filter_map, List.map_filterMap, List.map_filterMap,
    List.filterMap_congr same]

/-- The capacity of a window is a matter of the members' hours. -/
theorem windowCapacity_congr {profiles profiles' : List Provider}
    (same : profiles'.map Provider.hours = profiles.map Provider.hours) (w : Window) (z : Zone) :
    team.windowCapacity profiles' w z = team.windowCapacity profiles w z := by
  have count (f : List WeeklySlot → List Window → Bool) :
      profiles'.countP (fun p => f p.slots p.timeOff)
        = profiles.countP fun p => f p.slots p.timeOff := by
    have view : (fun p : Provider => f p.slots p.timeOff)
        = (fun hours => f hours.2.1 hours.2.2) ∘ Provider.hours := rfl
    rw [view, ← List.countP_map, same, List.countP_map]
  unfold windowCapacity dailyCapacity
  rw [count fun slots timeOff => coversExactly slots timeOff w,
    count fun slots timeOff => availableOnDay slots timeOff (z.dayAt w.start) z]

end Team

/-! ## The lock -/

/-- A lock on a team is made on the slot of its job's window, with the capacity that the hours of
the members give then. -/
theorem Run.createLocks_capacity (run : Run past e) {locks : List Lock}
    (done : Engine.createLocks actor jobId ⟨.team teamId units, ttl⟩ e = .ok locks e') :
    ∃ j team z l slot, e.store.tables.job? jobId = some j ∧
      e.store.tables.team? teamId = some team ∧ team.zone = .ok z ∧ locks = [l] ∧
      l.target = .team teamId slot.id ∧ l.stored ∈ e'.store.tables.locks ∧
      slot ∈ e'.store.tables.slots ∧ slot.window = j.window ∧
      slot.capacity = team.windowCapacity (team.profiles e.store.tables) j.window z := by
  obtain ⟨operational, j, team, found, waits, known, range⟩ :=
    Engine.createLocks_team_ok run.ready.idle done
  obtain ⟨hj, rfl⟩ := mem_of_find?_key found
  obtain ⟨lasts, whole⟩ := run.orderly.jobs j hj
  obtain ⟨z, named⟩ := Option.isSome_iff_exists.mp
    (run.orderly.teams team (List.mem_of_find?_eq_some known))
  have zone := Team.zone_eq_ok.mpr named
  obtain ⟨slot, plan, s, ensured, atWindow, -, onPlan, -, -, -, -, -, keyed, one, fits, moves⟩ :=
    run.ensureSlot_left lasts whole known zone
  obtain ⟨team', z', -, known', zone', -, -, -, capacity, -⟩ :=
    Ledger.ensureSlotJoined_figures (s := e.store.begin) run.ready.keyed run.sound.onDay run.oneEach
      whole ensured
  obtain rfl : team' = team := Option.some.inj (known'.symm.trans known)
  obtain rfl : z' = z := Except.ok.inj (zone'.symm.trans zone)
  obtain ⟨hs, -, window⟩ := (Tables.slotAt?_eq_some keyed one).mp atWindow
  have read : Store.plan? slot.planId s = .ok (some plan) s := Work.readRow_eq_ok.mpr
    ⟨onPlan.symm, fun p hp => fits.plan_isReadable (List.mem_of_find?_eq_some hp), rfl⟩
  obtain ⟨refuses, books⟩ :=
    run.createLocks_team ttl operational found waits range ensured hs read moves
  by_cases left : 0 < Locks.headroom slot plan
  · obtain ⟨l, e₁, log, done', -, target, -, -, tables⟩ := books left
    obtain ⟨rfl, rfl⟩ := EStateM.Result.ok.inj (done'.symm.trans done)
    refine ⟨j, team', z', l, { slot with booked := Tables.moved slot.booked l.count }, found, known,
      zone, rfl, target, ?_, ?_, window.trans whole, capacity⟩
    · rw [tables]
      exact List.mem_append_right _ (List.mem_singleton_self _)
    · rw [tables]
      exact mem_updateWhere.mpr ⟨slot, hs, by simp⟩
  · obtain ⟨_, failed, -⟩ := refuses (Int.not_lt.mp left)
    cases failed.symm.trans done

/-- The same of a lock that one of the operations has left. -/
theorem Run.after_lock_becomes {op : Operation} (run : Run past e) (made : (e₀, op) ∈ past)
    {l : Lock} (hl : l ∈ (op.after e₀).store.tables.locks) :
    ∃ l' ∈ e.store.tables.locks, l.Becomes l' := by
  rcases run.after_cases made with here | ⟨op', later⟩
  · exact ⟨l, here ▸ hl, .refl l⟩
  · obtain ⟨l', hl', becomes, -⟩ := run.lock_becomes later hl
    exact ⟨l', hl', becomes⟩

/-! ## Who goes -/

/-- If one of the locks that decide is on a team, it decides alone, and the first free members of
the team go. -/
theorem Tables.Picks.byTeamLock {usable : List Lock} {team? : Option String}
    {ids lockIds : List String} {id slotId : String} (picks : t.Picks j usable team? ids lockIds)
    (decides : id ∈ lockIds)
    (target : ∀ k ∈ usable, k.id = id → k.target = .team teamId slotId) :
    team? = some teamId ∧ lockIds = [id] ∧ ∃ team members, t.team? teamId = some team ∧
      team.InOrder members ∧ ids = (t.freeAmong j members).take j.requiredMembers := by
  cases picks with
  | @team before later k teamId' slotId' team members split _ onTeam found inOrder _ =>
    obtain rfl := List.mem_singleton.mp decides
    have same := target k (split ▸ List.mem_append_right _ List.mem_cons_self) rfl
    obtain ⟨rfl, -⟩ := LockTarget.team.inj (onTeam.symm.trans same)
    exact ⟨rfl, rfl, team, members, found, inOrder, rfl⟩
  | holders =>
    obtain ⟨holder, -, first⟩ := List.mem_filterMap.mp decides
    obtain ⟨k, found, own⟩ := Option.map_eq_some_iff.mp first
    have named := List.find?_some found
    rw [target k (List.mem_of_find?_eq_some found) own] at named
    cases named

/-- A single lock on a team that has enough free members decides. -/
theorem Tables.Picks.bySingleLock {k : Lock} {team? : Option String} {ids lockIds : List String}
    (picks : t.Picks j [k] team? ids lockIds) (enough : t.Suffices j k) : lockIds = [k.id] := by
  cases picks with
  | @team before later l _ _ _ _ split =>
    have only : l ∈ [k] := split ▸ List.mem_append_right _ List.mem_cons_self
    rw [List.mem_singleton.mp only]
  | holders none => exact absurd enough (none k (List.mem_singleton_self k))

/-- **Of those whom a promotion sends by a lock on a team, how many were counted.** Let the lock be
made in the run, and the team's members and their hours be now as they were then. The capacity of
its slot was that of the members who are counted. Those who go by it are members, and free; and of
them no more are not counted than there are members who are not. Where all members are counted, all
who go were counted. -/
theorem promoted_members_counted (run : Run past e) {locks : List Lock} {l : Lock}
    (made : (e₀, .createLocks actor jobId ⟨.team teamId units, ttl⟩) ∈ past)
    (created : Engine.createLocks actor jobId ⟨.team teamId units, ttl⟩ e₀ = .ok locks e₁)
    (hl : l ∈ locks) (same : e₀.store.tables.SameCrew e.store.tables teamId)
    (found : e.store.tables.job? jobId = some j) {p : Promotion}
    (promoted : Engine.promote jobId now e = .ok (some p) e') (decides : l.id ∈ p.promotedLockIds) :
    ∃ team z slot, e₀.store.tables.team? teamId = some team ∧ team.zone = .ok z ∧
      slot ∈ e₁.store.tables.slots ∧ l.target = .team teamId slot.id ∧ slot.window = j.window ∧
      slot.capacity = team.windowCapacity (team.profiles e.store.tables) j.window z ∧
      p.teamId = some teamId ∧ p.promotedLockIds = [l.id] ∧
      (∀ id ∈ p.providerIds,
        id ∈ team.members.map (·.providerId) ∧ e.store.tables.IsFree j id) ∧
      (p.providerIds.filter fun id => id ∉ team.counted e.store.tables j.window).length
        + (team.counted e.store.tables j.window).length ≤ team.members.length ∧
      ((team.counted e.store.tables j.window).length = team.members.length →
        ∀ id ∈ p.providerIds, id ∈ team.counted e.store.tables j.window) := by
  obtain ⟨before, later, split⟩ := List.append_of_mem made
  obtain ⟨j₀, team, z, l₀, slot, found₀, known, zone, one, target, stored, hs, atWindow,
    capacity⟩ :=
    (run.upTo split).createLocks_capacity created
  obtain rfl : l = l₀ := List.mem_singleton.mp (one ▸ hl)
  -- The job still has its window, and the lock its target.
  have window : j.window = j₀.window :=
    (run.becomes_of_id made (mem_of_find?_key found₀).1 (mem_of_find?_key found).1
      ((mem_of_find?_key found₀).2.trans (mem_of_find?_key found).2.symm)).window
  have left : (Operation.createLocks actor jobId ⟨.team teamId units, ttl⟩).after e₀ = e₁ :=
    after_of_ok created
  obtain ⟨l', hl', becomes⟩ := run.after_lock_becomes made (left ▸ stored)
  have promotes := run.promote_promotes found promoted
  obtain ⟨ofTeam, alone, team', members, known', inOrder, sent⟩ := promotes.picks.byTeamLock
    decides fun k hk own => by
      have hk := (List.mem_filter.mp hk).1
      obtain rfl := List.inj_on_of_nodup_map run.ready.keyed.locks hk hl'
        (own.trans becomes.id.symm)
      exact becomes.target.trans target
  obtain ⟨crew, profiles⟩ := same team known team' known'
  have keyed : (team.members.map (·.providerId)).Nodup :=
    crew ▸ run.ready.keyed.members team' (List.mem_of_find?_eq_some known')
  have goes : ∀ id ∈ p.providerIds,
      id ∈ team.members.map (·.providerId) ∧ e.store.tables.IsFree j id := by
    intro id hid
    rw [sent] at hid
    obtain ⟨member, free⟩ := List.mem_filter.mp (List.mem_of_mem_take hid)
    rw [(inOrder.perm.map _).mem_iff, crew] at member
    exact ⟨member, of_decide_eq_true free⟩
  have distinct := promotes.staffs.distinct
  have members : ∀ id ∈ p.providerIds, id ∈ team.members.map (·.providerId) :=
    fun id hid => (goes id hid).1
  refine ⟨team, z, slot, known, zone, hs, target, atWindow.trans window.symm, ?_, ofTeam, alone,
    goes, Team.length_uncounted_le distinct keyed members,
    Team.mem_counted_of_all distinct keyed members⟩
  rw [capacity, window]
  exact (Team.windowCapacity_congr (Team.profiles_hours profiles) _ z).symm

namespace Sample

/-- A team of someone without hours and of someone with, and a job for both. -/
def oneIdle : List Operation := [
  .insertProvider { provider "ada" with slots := [] }, .insertProvider (provider "bob"),
  .createTeam admin (Sample.team ["ada", "bob"]), .createJob { job 9 with requiredMembers := 2 }]

/-- The job asks for a lock on the team, and gets one unit. -/
def lockOnTeam : Operation :=
  .createLocks admin (idText "job" 1) ⟨.team (idText "team" 0) none, none⟩

/-- The lock is confirmed. -/
def confirmLock : Operation := .confirmLocks admin (idText "job" 1) none

/-- Then both go by the lock, although only one of them was counted. -/
theorem bothGo : ∃ before e₀ e₁ e l j p e',
    Run (before ++ [(e₀, lockOnTeam), (e₁, confirmLock)]) e ∧
    Engine.createLocks admin (idText "job" 1) ⟨.team (idText "team" 0) none, none⟩ e₀
      = .ok [l] e₁ ∧
    e₀.store.tables.SameCrew e.store.tables (idText "team" 0) ∧
    e.store.tables.job? (idText "job" 1) = some j ∧
    Engine.promote (idText "job" 1) 0 e = .ok (some p) e' ∧ p.teamId = some (idText "team" 0) ∧
    p.promotedLockIds = [l.id] ∧ "ada" ∈ p.providerIds ∧
    ∃ team, e.store.tables.team? (idText "team" 0) = some team ∧
      team.counted e.store.tables j.window = ["bob"] := by
  obtain ⟨e₀, found⟩ : ∃ e₀, e₀ = Operation.afterAll oneIdle engine := ⟨_, rfl⟩
  obtain ⟨e₁, locked⟩ : ∃ e₁, e₁ = lockOnTeam.after e₀ := ⟨_, rfl⟩
  obtain ⟨e, left⟩ : ∃ e, e = confirmLock.after e₁ := ⟨_, rfl⟩
  have before : Run (Operation.trace oneIdle engine) e₀ := found ▸
    Run.of_operations rfl rfl (fun _ _ _ => rfl) (by simp [oneIdle, Operation.IsAdmissible])
  have run : Run (Operation.trace oneIdle engine ++ [(e₀, lockOnTeam), (e₁, confirmLock)]) e := by
    rw [List.append_cons, left, locked]
    exact (before.operation lockOnTeam trivial).operation confirmLock trivial
  obtain ⟨created, same, vacant, ⟨j, known, waits, two, team, ofTeam, members, counted⟩, usable⟩ :
      (answer? (Engine.createLocks admin (idText "job" 1) ⟨.team (idText "team" 0) none, none⟩)
        e₀).map (·.map (·.id)) = some [idText "lock" 4] ∧
      e₀.store.tables.SameCrew e.store.tables (idText "team" 0) ∧
      e.store.tables.assignments = [] ∧
      (∃ j ∈ e.store.tables.job? (idText "job" 1), j.isPending = true ∧ j.requiredMembers = 2 ∧
        ∃ team ∈ e.store.tables.team? (idText "team" 0),
          team.members.map (·.providerId) = ["ada", "bob"] ∧
          team.counted e.store.tables j.window = ["bob"]) ∧
      (e.store.tables.confirmedLocks (idText "job" 1) 0).map (fun k => (k.id, k.target))
        = [(idText "lock" 4, .team (idText "team" 0) (idText "slot" 3))] := by
    rw [left, locked, found]
    decide +kernel
  obtain ⟨hj, own⟩ := mem_of_find?_key known
  obtain ⟨k, confirmed, lock⟩ := List.map_eq_singleton_iff.mp usable
  obtain ⟨lockId, target⟩ := Prod.mk.inj lock
  have free : ∀ id, e.store.tables.IsFree j id := by
    intro id a ha
    rw [vacant] at ha
    cases ha
  have all : team.members.length = 2 := by
    rw [← List.length_map (·.providerId), members]
    rfl
  have enough : e.store.tables.Suffices j k := by
    refine ⟨_, _, team, target, ofTeam, ?_⟩
    rw [List.filter_eq_self.mpr fun m _ => decide_eq_true (free m.providerId), two, all]
  have promotable : e.store.tables.Promotable 0 j := by
    refine (Tables.promotable_iff run.expiriesWhole (run.inSeconds hj) (run.asksForSome j hj)).mpr
      ⟨waits, ?_, .inl ⟨k, ?_, enough⟩⟩
    · rw [vacant]
      exact fun _ never => absurd never List.not_mem_nil
    · rw [own, confirmed]
      exact List.mem_singleton_self k
  obtain ⟨locks, made, ids⟩ := Option.map_eq_some_iff.mp created
  obtain ⟨l, rfl, sameId⟩ := List.map_eq_singleton_iff.mp ids
  obtain ⟨-, p, e', done⟩ | ⟨never, -⟩ := run.promote_answers 0 known
  · have picks := (run.promote_promotes known done).picks
    rw [own, confirmed] at picks
    have decides : k.id ∈ p.promotedLockIds := by
      rw [picks.bySingleLock enough]
      exact List.mem_singleton_self _
    obtain ⟨byTeam, alone, team', rows, ofTeam', inOrder, sent⟩ :=
      picks.byTeamLock decides fun k' hk' _ => List.mem_singleton.mp hk' ▸ target
    obtain rfl : team' = team := Option.some.inj (ofTeam'.symm.trans ofTeam)
    have goes : "ada" ∈ p.providerIds := by
      have atMost : (e.store.tables.freeAmong j rows).length ≤ 2 := by
        rw [← all, ← inOrder.perm.length_eq]
        exact (List.length_filter_le _ _).trans (List.length_map _).le
      rw [sent, two, List.take_of_length_le atMost]
      refine List.mem_filter.mpr ⟨(inOrder.perm.map _).mem_iff.mpr ?_, decide_eq_true (free "ada")⟩
      rw [members]
      exact List.mem_cons_self
    have created := answer?_eq_some.mp made
    rw [show after _ e₀ = e₁ from locked.symm] at created
    exact ⟨_, e₀, e₁, e, l, j, p, e', run, created, same, known, done, byTeam,
      (lockId.trans sameId.symm) ▸ alone, goes, team', ofTeam, counted⟩
  · exact absurd promotable never

end Sample

/-- Someone goes who was not counted, but no more than one. -/
theorem promoted_members_counted_oneIdle : ∃ past e₀ e₁ e l j p e', Run past e ∧
    (e₀, Sample.lockOnTeam) ∈ past ∧
    Engine.createLocks Sample.admin (idText "job" 1) ⟨.team (idText "team" 0) none, none⟩ e₀
      = .ok [l] e₁ ∧
    e₀.store.tables.SameCrew e.store.tables (idText "team" 0) ∧
    e.store.tables.job? (idText "job" 1) = some j ∧
    Engine.promote (idText "job" 1) 0 e = .ok (some p) e' ∧ l.id ∈ p.promotedLockIds ∧
    "ada" ∈ p.providerIds ∧ ∃ team, e₀.store.tables.team? (idText "team" 0) = some team ∧
      (p.providerIds.filter fun id => id ∉ team.counted e.store.tables j.window).length
        + (team.counted e.store.tables j.window).length ≤ team.members.length := by
  obtain ⟨before, e₀, e₁, e, l, j, p, e', run, created, same, found, done, -, alone, goes, -⟩ :=
    Sample.bothGo
  have made : (e₀, Sample.lockOnTeam)
      ∈ before ++ [(e₀, Sample.lockOnTeam), (e₁, Sample.confirmLock)] :=
    List.mem_append_right _ List.mem_cons_self
  have decides : l.id ∈ p.promotedLockIds := alone ▸ List.mem_singleton_self l.id
  obtain ⟨team, -, -, known, -, -, -, -, -, -, -, -, fits, -⟩ := promoted_members_counted run made
    created (List.mem_singleton_self l) same found done decides
  exact ⟨_, e₀, e₁, e, l, j, p, e', run, made, created, same, found, done, decides, goes, team,
    known, fits⟩

/-- So it is not so that only members go who were counted. Nothing has happened since the lock was
made but that it was confirmed, and someone goes who has no hours at all. -/
theorem not_only_counted_members_go : ∃ before e₀ e₁ e l j p e' team,
    Run (before ++ [(e₀, Sample.lockOnTeam), (e₁, Sample.confirmLock)]) e ∧
    Engine.createLocks Sample.admin (idText "job" 1) ⟨.team (idText "team" 0) none, none⟩ e₀
      = .ok [l] e₁ ∧
    e₀.store.tables.SameCrew e.store.tables (idText "team" 0) ∧
    e.store.tables.team? (idText "team" 0) = some team ∧
    e.store.tables.job? (idText "job" 1) = some j ∧
    Engine.promote (idText "job" 1) 0 e = .ok (some p) e' ∧ p.teamId = some (idText "team" 0) ∧
    p.promotedLockIds = [l.id] ∧
    ∃ id ∈ p.providerIds, id ∉ team.counted e.store.tables j.window := by
  obtain ⟨before, e₀, e₁, e, l, j, p, e', run, created, same, found, done, byTeam, alone, goes,
    team, known, counted⟩ := Sample.bothGo
  refine ⟨before, e₀, e₁, e, l, j, p, e', team, run, created, same, known, found, done, byTeam,
    alone, "ada", goes, ?_⟩
  rw [counted]
  decide

end Staffing
