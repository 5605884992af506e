import Staffing.Proofs.Competition
import Staffing.Proofs.SingleHold

/-!
# The ceiling of a day

The units that a team has booked count on the day on which their window starts, on the team's
clocks, and no day has more than the members who work on it. So windows of one day never take more
units together than the team has members. Nothing weighs the windows of one day against those of the
next: where members work in zones other than their team's, a window that crosses the team's midnight
may overlap one that starts after it, and the two may take the same member.

* `Tables.bookedOver`, `Tables.bookedOverSameDay` — what overlapping windows have booked
* `Run.bookedOverSameDay_le` — windows of one day have booked no more than its plan
* `same_day_windows_within_members` — the law for windows that start on one day
* `not_all_windows_within_members` — it fails for windows of different days
-/

namespace Staffing

namespace Tables

variable {t : Tables} {teamId : String} {w : Window} {decided : List String}

/-- The units that a team has booked in all windows that overlap a window. -/
def bookedOver (t : Tables) (teamId : String) (w : Window) : Nat :=
  ((t.slots.filter fun s => s.teamId == teamId && s.window.overlaps w).map (·.booked)).sum

/-- The units that a team has booked in those of them that start on the same day. -/
def bookedOverSameDay (t : Tables) (teamId : String) (z : Zone) (w : Window) : Nat :=
  ((t.slots.filter fun s => s.teamId == teamId && s.window.overlaps w
    && z.dayAt s.start = z.dayAt w.start).map (·.booked)).sum

/-- A window itself is one of them. -/
theorem bookedAt_le_bookedOverSameDay (lasts : w.start < w.stop) (whole : w.wholeSeconds = w)
    (z : Zone) : t.bookedAt teamId w ≤ t.bookedOverSameDay teamId z w := by
  unfold bookedAt bookedOverSameDay
  cases found : t.slotAt? teamId w with
  | none => exact Nat.zero_le _
  | some s =>
    obtain ⟨ofTeam, window⟩ := isSlotAt_iff.mp (List.find?_some found)
    obtain rfl : s.window = w := window.trans whole
    refine List.le_sum_of_mem (List.mem_map.mpr ⟨s, List.mem_filter.mpr ⟨?_, ?_⟩, rfl⟩)
    · exact List.mem_of_find?_eq_some found
    · rw [Window.overlaps_self lasts]
      simp [ofTeam, Slot.window]

/-- When no other windows that overlap have units booked, these are all. -/
theorem bookedOver_eq {z : Zone} (alone : ∀ s ∈ t.slots, s.teamId = teamId →
      s.window.overlaps w = true → 0 < s.booked → z.dayAt s.start = z.dayAt w.start) :
    t.bookedOver teamId w = t.bookedOverSameDay teamId z w := by
  unfold bookedOver bookedOverSameDay
  rw [sum_filter_map, sum_filter_map]
  refine congrArg List.sum (List.map_congr_left fun s hs => ?_)
  by_cases meets : (s.teamId == teamId && s.window.overlaps w) = true
  · rw [if_pos meets, meets, Bool.true_and]
    by_cases day : z.dayAt s.start = z.dayAt w.start
    · rw [if_pos (decide_eq_true day)]
    · -- A window of another day has nothing booked.
      obtain ⟨ofTeam, overlaps⟩ : s.teamId = teamId ∧ s.window.overlaps w = true := by
        simpa using meets
      rw [if_neg (by simpa using day)]
      by_contra some
      exact day (alone s hs ofTeam overlaps (Nat.pos_of_ne_zero some))
  · rw [if_neg meets, Bool.eq_false_iff.mpr meets, Bool.false_and, if_neg Bool.false_ne_true]

/-- Whichever windows of a team's day one adds up, they have booked no more than the day's plan. -/
theorem sum_sameDay_le {team : Team} {z : Zone} {plan : Plan} (keyed : t.LedgerKeyed)
    (one : t.OneEach) (onDay : t.SlotsOnDay) (balanced : t.Balanced decided)
    (known : t.team? teamId = some team) (zone : team.zone = .ok z)
    (found : t.planOn? teamId plan.day = some plan) {p : Slot → Bool}
    (ofDay : ∀ s ∈ t.slots, p s = true → s.teamId = teamId ∧ z.dayAt s.start = plan.day) :
    ((t.slots.filter p).map (·.booked)).sum ≤ plan.booked := by
  obtain ⟨hp, planTeam, -⟩ := (planOn?_eq_some keyed one).mp found
  rw [sum_filter_map, balanced.plans plan hp]
  refine List.sum_le_sum fun s hs => ?_
  split
  · next counts =>
    obtain ⟨ofTeam, day⟩ := ofDay s hs counts
    have onPlan : t.plan? s.planId = some plan :=
      plan?_of_slot keyed one onDay hs (ofTeam ▸ known) zone (by rw [ofTeam, day, found])
    have own : plan.id = s.planId := ((plan?_eq_some keyed).mp onPlan).2
    unfold share
    rw [if_pos (by simp [own])]
  · exact Nat.zero_le _

end Tables

/-- A day has at most as many units as the team has members. -/
theorem Team.dailyCapacity_le_members (team : Team) (t : Tables) (d : Day) (z : Zone) :
    team.dailyCapacity (team.profiles t) d z ≤ team.members.length := by
  unfold Team.dailyCapacity
  refine (Nat.min_le_left _ _).trans ((Nat.mod_le _ _).trans (List.countP_le_length.trans ?_))
  unfold Team.profiles
  exact (List.length_filter_le _ _).trans (List.length_filterMap_le _ _)

/-- The plan of a day has booked what the windows of the day have. -/
theorem Run.bookedOverSameDay_le {past : List (Engine × Operation)} {e : Engine} (run : Run past e)
    {teamId : String} {team : Team} {z : Zone} {w : Window} {plan : Plan}
    (known : e.store.tables.team? teamId = some team) (zone : team.zone = .ok z)
    (onDay : e.store.tables.planOn? teamId (z.dayAt w.start) = some plan) :
    e.store.tables.bookedOverSameDay teamId z w ≤ plan.booked := by
  have keyed := run.ready.keyed.toLedgerKeyed
  obtain ⟨-, -, ofDay⟩ := (Tables.planOn?_eq_some keyed run.oneEach).mp onDay
  refine Tables.sum_sameDay_le keyed run.oneEach run.sound.onDay run.sound.balanced known zone
    (ofDay.symm ▸ onDay) fun r _ counts => ?_
  rw [ofDay]
  simp only [Bool.and_eq_true, beq_iff_eq, decide_eq_true_eq] at counts
  exact ⟨counts.1.1, counts.2⟩

/-! ## A request that is granted -/

/-- A lock on a team is made only for an operational actor and for 1 to 20 units; its job and its
team are stored, and the job is not over. -/
theorem Engine.createLocks_team_ok {e e' : Engine} (idle : e.store.saved = none) {actor : Actor}
    {jobId teamId : String} {units : Option Nat} {ttl : Option Int} {locks : List Lock}
    (done : createLocks actor jobId ⟨.team teamId units, ttl⟩ e = .ok locks e') :
    actor.isOperational = true ∧ ∃ j team, e.store.tables.job? jobId = some j ∧
      j.isClosed = false ∧ e.store.tables.team? teamId = some team ∧
      1 ≤ units.getD j.requiredMembers ∧ units.getD j.requiredMembers ≤ 20 := by
  cases made : Locks.create e.config.locks actor jobId ⟨.team teamId units, ttl⟩ e.now e.store with
  | error fault s =>
    rw [createLocks_of_error made] at done
    cases done
  | ok made' s =>
    unfold Locks.create at made
    simp only [bind_eq_ok, Work.ofExcept_eq_ok] at made
    obtain ⟨_, s, ⟨allowed, rfl⟩, h⟩ := made
    obtain ⟨s₁, joined, -⟩ := (Work.atomic_eq_ok idle).mp h
    unfold Locks.createJoined at joined
    simp only [bind_eq_ok, Work.demand_eq_ok, Work.guard_eq_ok, Bool.not_eq_true] at joined
    obtain ⟨j, _, ⟨found, rfl⟩, waits, onTeam⟩ := joined
    unfold Locks.createOnTeam at onTeam
    simp only [bind_eq_ok, Work.ofExcept_eq_ok] at onTeam
    obtain ⟨_, _, ⟨headcount, rfl⟩, slot, s', ensured, -⟩ := onTeam
    unfold Ledger.ensureSlotJoined at ensured
    simp only [bind_eq_ok, Work.ofExcept_eq_ok, Work.demand_eq_ok] at ensured
    obtain ⟨_, _, ⟨-, rfl⟩, team, _, ⟨known, rfl⟩, -⟩ := ensured
    exact ⟨requireOperational_eq_ok.mp allowed, j, team, found, waits, known,
      checkHeadcount_eq_ok.mp headcount⟩

/-- **The windows of one day never take more units than the team has members.** When a lock on a
team has been made, the windows of the team that overlap the job's and start on its day, as the
team's clocks show it, the job's own included, have booked together no more than the members who
work on that day. When no units are booked in overlapping windows of another day, this holds of all
windows that overlap. -/
theorem same_day_windows_within_members {past : List (Engine × Operation)} {e : Engine}
    (run : Run past e) {actor : Actor} {jobId teamId : String} {units : Option Nat}
    {ttl : Option Int} {locks : List Lock} {e' : Engine}
    (done : Engine.createLocks actor jobId ⟨.team teamId units, ttl⟩ e = .ok locks e') :
    ∃ j team z, e.store.tables.job? jobId = some j ∧ e.store.tables.team? teamId = some team ∧
      team.zone = .ok z ∧
      0 < e'.store.tables.bookedAt teamId j.window ∧
      e'.store.tables.bookedAt teamId j.window
        ≤ e'.store.tables.bookedOverSameDay teamId z j.window ∧
      e'.store.tables.bookedOverSameDay teamId z j.window
        ≤ team.dailyCapacity (team.profiles e.store.tables) (z.dayAt j.start) z ∧
      e'.store.tables.bookedOverSameDay teamId z j.window ≤ team.members.length ∧
      ((∀ s ∈ e'.store.tables.slots, s.teamId = teamId → s.window.overlaps j.window = true →
          0 < s.booked → z.dayAt s.start = z.dayAt j.start) →
        e'.store.tables.bookedOver teamId j.window ≤ team.members.length) := by
  obtain ⟨operational, j, team, found, waits, known, range⟩ :=
    Engine.createLocks_team_ok run.ready.idle done
  obtain ⟨hj, rfl⟩ := mem_of_find?_key found
  obtain ⟨lasts, whole⟩ := run.orderly.jobs j hj
  obtain ⟨z, named⟩ := Option.isSome_iff_exists.mp
    (run.orderly.teams team (List.mem_of_find?_eq_some known))
  have zone := Team.zone_eq_ok.mpr named
  obtain ⟨refuses, books⟩ := run.createLocks_gains ttl operational found waits range known zone
  rcases Nat.eq_zero_or_pos (e.store.tables.unitsLeft teamId team z j.window) with none | more
  · obtain ⟨_, _, _, failed, -⟩ := refuses none
    rw [failed] at done
    cases done
  obtain ⟨l, e₁, plan, made, -, count, gains, onDay, planFits⟩ := books more
  obtain ⟨-, rfl⟩ := EStateM.Result.ok.inj (made.symm.trans done)
  have positive : 0 < e₁.store.tables.bookedAt teamId j.window := by
    rw [gains.window, count]
    omega
  -- The engine that is left is one that a run reaches, too.
  have run₁ : Run _ (Operation.after e (.createLocks actor j.id ⟨.team teamId units, ttl⟩)) :=
    run.operation _ trivial
  rw [show Operation.after e (.createLocks actor j.id ⟨.team teamId units, ttl⟩) = e₁ from
    after_of_ok done] at run₁
  have known₁ : e₁.store.tables.team? teamId = some team := (gains.team? teamId).trans known
  have sameDay := (run₁.bookedOverSameDay_le (w := j.window) known₁ zone onDay).trans planFits
  have members := sameDay.trans (team.dailyCapacity_le_members _ _ z)
  refine ⟨j, team, z, found, known, zone, positive,
    Tables.bookedAt_le_bookedOverSameDay lasts whole z, sameDay, members, fun alone => ?_⟩
  rw [Tables.bookedOver_eq alone]
  exact members

/-! ## Across midnight -/

namespace Sample

/-- Someone who works around the clock, by universal time. -/
def sleepless : Provider :=
  { provider "ada" with slots := (List.range 7).map fun d => ⟨d, 0, 1440, "UTC", true⟩ }

/-- A job for one, on a Monday from half past the given hour of universal time on. -/
def lateJob (start stop : Instant) : NewJob := { job 9 with start, stop }

/-- A team of one, in Berlin, and two jobs that overlap. On the clocks there the first starts half
an hour before midnight, the second a quarter past. The first job has a lock on the team. -/
def acrossMidnight : List Operation := [
  .insertProvider sleepless, .createTeam admin (team ["ada"]),
  .createJob (lateJob (Instant.utc 2026 3 2 22 30) (Instant.utc 2026 3 2 23 30)),
  .createJob (lateJob (Instant.utc 2026 3 2 23 15) (Instant.utc 2026 3 2 23 45)),
  .createLocks admin (idText "job" 1) ⟨.team (idText "team" 0) none, none⟩]

/-- When the second job is. -/
def afterMidnight : Window := ⟨Instant.utc 2026 3 2 23 15, Instant.utc 2026 3 2 23 45⟩

end Sample

/-- On a day of its own each of the two locks stays within the one member. -/
theorem same_day_windows_within_members_acrossMidnight : ∃ past e locks e' z, Run past e ∧
    Engine.createLocks Sample.admin (idText "job" 2) ⟨.team (idText "team" 0) none, none⟩ e
      = .ok locks e' ∧
    e'.store.tables.bookedOverSameDay (idText "team" 0) z Sample.afterMidnight = 1 := by
  obtain ⟨e, left⟩ : ∃ e, e = Operation.afterAll Sample.acrossMidnight Sample.engine := ⟨_, rfl⟩
  have run : Run (Operation.trace Sample.acrossMidnight Sample.engine) e := left ▸
    Run.of_operations rfl rfl (fun _ _ _ => rfl)
      (by simp [Sample.acrossMidnight, Operation.IsAdmissible])
  obtain ⟨answered, window, size⟩ :
      (answer? (Engine.createLocks Sample.admin (idText "job" 2)
        ⟨.team (idText "team" 0) none, none⟩) e).isSome = true ∧
      (e.store.tables.job? (idText "job" 2)).map (·.window) = some Sample.afterMidnight ∧
      (e.store.tables.team? (idText "team" 0)).map (·.members.length) = some 1 := by
    rw [left]
    decide +kernel
  obtain ⟨locks, e', done⟩ : ∃ locks e', Engine.createLocks Sample.admin (idText "job" 2)
      ⟨.team (idText "team" 0) none, none⟩ e = .ok locks e' := by
    obtain ⟨locks, answered⟩ := Option.isSome_iff_exists.mp answered
    exact ⟨locks, _, answer?_eq_some.mp answered⟩
  obtain ⟨j, team, z, found, known, -, booked, atLeast, -, atMost, -⟩ :=
    same_day_windows_within_members run done
  rw [found] at window
  rw [known] at size
  have same : j.window = Sample.afterMidnight := Option.some.inj window
  have one : team.members.length = 1 := Option.some.inj size
  rw [same] at booked atLeast atMost
  exact ⟨_, e, locks, e', z, run, done, by omega⟩

/-- Across midnight they do not: it is not so that all windows of a team that overlap take no more
units together than it has members. -/
theorem not_all_windows_within_members : ¬ ∀ (past : List (Engine × Operation)) (e : Engine),
    Run past e → ∀ (actor : Actor) (jobId teamId : String) (units : Option Nat) (ttl : Option Int)
      (locks : List Lock) (e' : Engine) (j : Job) (team : Team),
      Engine.createLocks actor jobId ⟨.team teamId units, ttl⟩ e = .ok locks e' →
      e.store.tables.job? jobId = some j → e.store.tables.team? teamId = some team →
        e'.store.tables.bookedOver teamId j.window ≤ team.members.length := by
  intro always
  obtain ⟨e, left⟩ : ∃ e, e = Operation.afterAll Sample.acrossMidnight Sample.engine := ⟨_, rfl⟩
  have run : Run (Operation.trace Sample.acrossMidnight Sample.engine) e := left ▸
    Run.of_operations rfl rfl (fun _ _ _ => rfl)
      (by simp [Sample.acrossMidnight, Operation.IsAdmissible])
  obtain ⟨answered, booked, window, size⟩ :
      (answer? (Engine.createLocks Sample.admin (idText "job" 2)
        ⟨.team (idText "team" 0) none, none⟩) e).isSome = true ∧
      (after (Engine.createLocks Sample.admin (idText "job" 2)
        ⟨.team (idText "team" 0) none, none⟩) e).store.tables.bookedOver (idText "team" 0)
          Sample.afterMidnight = 2 ∧
      (e.store.tables.job? (idText "job" 2)).map (·.window) = some Sample.afterMidnight ∧
      (e.store.tables.team? (idText "team" 0)).map (·.members.length) = some 1 := by
    rw [left]
    decide +kernel
  obtain ⟨j, found, window⟩ := Option.map_eq_some_iff.mp window
  obtain ⟨team, known, size⟩ := Option.map_eq_some_iff.mp size
  obtain ⟨locks, answered⟩ := Option.isSome_iff_exists.mp answered
  have atMost := always _ e run _ _ _ _ _ _ _ _ _ (answer?_eq_some.mp answered) found known
  rw [window, booked, size] at atMost
  exact absurd atMost (by decide)

end Staffing
