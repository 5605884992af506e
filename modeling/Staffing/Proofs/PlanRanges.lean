import Staffing.Proofs.UpToDate

/-!
# Plans of a range of days

A range of days is planned day by day, and a window is brought up to date with the plan of its day.
Either way a day gets the capacity that the members' hours give, on the plan that there is or on a
new one. As no plan is ever taken away or moved to another day, it does not matter which of the two
came first, how often, or over which ranges.

* `Tables.KeepsPlans`, `Step.keepsPlans` — no step takes a plan away or moves it
* `Run.since` — what every step does to the tables, the rest of a run does
* `Run.generatePlans_sets` — the plans of a range are set
* `Run.ensureSlot_planned`, `Run.generatePlans_planned`, `Run.generatePlans_later` — what comes
  after that
* `generatePlans_agrees` — with windows brought up to date, and with other ranges
-/

namespace Staffing

variable {now : Instant} {t t' : Tables} {teamId : String} {team : Team} {z : Zone} {d : Day}
  {first last : Day} {days : List Day} {capacity : Day → Nat} {plans : List Plan}
  {past : List (Engine × Operation)} {e e₀ e' : Engine} {op : Operation}

/-! ## Days of a range -/

namespace Day

theorem mem_range : d ∈ range first last ↔ first ≤ d ∧ d ≤ last := by
  obtain ⟨n⟩ := d
  unfold range
  constructor
  · intro hd
    obtain ⟨k, hk, same⟩ := List.mem_map.mp hd
    have below := List.mem_range.mp hk
    have same : first.number + k = n := congrArg Day.number same
    show first.number ≤ n ∧ n ≤ last.number
    omega
  · rintro ⟨atLeast, atMost⟩
    have atLeast : first.number ≤ n := atLeast
    have atMost : n ≤ last.number := atMost
    refine List.mem_map.mpr ⟨(n - first.number).toNat, List.mem_range.mpr (by omega), ?_⟩
    refine congrArg Day.mk ?_
    show first.number + _ = n
    omega

theorem range_nodup (first last : Day) : (range first last).Nodup := by
  refine List.Nodup.map (fun m n same => ?_) List.nodup_range
  have same : first.number + m = first.number + n := congrArg Day.number same
  omega

end Day

/-! ## No plan is taken away -/

namespace Tables

/-- Every plan is still there, for the same team and day. -/
def KeepsPlans (t t' : Tables) : Prop :=
  ∀ p ∈ t.plans, ∃ q ∈ t'.plans, q.id = p.id ∧ q.teamId = p.teamId ∧ q.day = p.day

theorem KeepsPlans.of_eq (h : t'.plans = t.plans) : t.KeepsPlans t' :=
  fun p hp => ⟨p, h ▸ hp, rfl, rfl, rfl⟩

theorem KeepsPlans.trans (t u v : Tables) (h : t.KeepsPlans u) (h' : u.KeepsPlans v) :
    t.KeepsPlans v := by
  intro p hp
  obtain ⟨q, hq, id, ofTeam, day⟩ := h p hp
  obtain ⟨r, hr, id', ofTeam', day'⟩ := h' q hq
  exact ⟨r, hr, id'.trans id, ofTeam'.trans ofTeam, day'.trans day⟩

/-- An update of figures. -/
theorem KeepsPlans.of_updateWhere {p : Plan → Bool} {f : Plan → Plan}
    (h : t'.plans = updateWhere p f t.plans)
    (keeps : ∀ q, (f q).id = q.id ∧ (f q).teamId = q.teamId ∧ (f q).day = q.day) :
    t.KeepsPlans t' := by
  intro q hq
  refine ⟨_, h ▸ mem_updateWhere.mpr ⟨q, hq, rfl⟩, ?_⟩
  split
  · exact keeps q
  · exact ⟨rfl, rfl, rfl⟩

theorem keepsPlans_adjustBooking (slot : Slot) (delta : Int) :
    t.KeepsPlans (t.adjustBooking slot delta) :=
  .of_updateWhere rfl fun _ => ⟨rfl, rfl, rfl⟩

theorem keepsPlans_giveBack (l : Lock) : t.KeepsPlans (t.giveBack l) := by
  unfold giveBack
  split
  · exact keepsPlans_adjustBooking _ _
  · exact .of_eq rfl

end Tables

theorem Calm.keepsPlans (h : Calm now t t') : t.KeepsPlans t' := by
  cases h with
  | roster grows => exact .of_eq grows.plans
  | @cancel jobId _ =>
    obtain ⟨f, -, frame⟩ := Tables.cancelled_frame jobId now t
    rw [frame]
    exact .of_eq rfl
  | newPlan => exact fun p hp => ⟨p, List.mem_append_left _ hp, rfl, rfl, rfl⟩
  | resizePlan => exact .of_updateWhere rfl fun _ => ⟨rfl, rfl, rfl⟩
  | @release l reason _ _ =>
    rw [Tables.released_frame]
    exact Tables.keepsPlans_giveBack l
  | _ => exact .of_eq rfl

/-- No step takes a plan away or moves it to another team or day. -/
theorem Step.keepsPlans {p q : Tables × List String} (h : Step now p q) : p.1.KeepsPlans q.1 := by
  cases h with
  | ebb h =>
    cases h with
    | calm h => exact h.keepsPlans
    | settle => exact .of_eq rfl
  | holdTeam => exact Tables.keepsPlans_adjustBooking _ _

/-- **What every step does to the tables, the rest of a run does** after one of its operations. -/
theorem Run.since {R : Tables → Tables → Prop} (refl : ∀ t, R t t)
    (trans : ∀ t u v, R t u → R u v → R t v)
    (step : ∀ now p q, p.1.Keyed → Step now p q → R p.1 q.1) (run : Run past e)
    (made : (e₀, op) ∈ past) : R (op.after e₀).store.tables e.store.tables := by
  refine (run.induct (P := fun past e => e.Ready ∧
    ∀ made ∈ past, R (made.2.after made.1).store.tables e.store.tables) ?_ ?_).2 (e₀, op) made
  · intro e empty idle quiet
    refine ⟨⟨idle, ?_, quiet⟩, fun _ never => absurd never List.not_mem_nil⟩
    rw [empty]
    exact .empty
  · rintro past e op ⟨ready, earlier⟩ admissible
    obtain ⟨steps, ready'⟩ := op.steps ready admissible Operation.eq_of_instant?
    have next : R e.store.tables (op.after e).store.tables :=
      Steps.holds (I := fun p => R e.store.tables p.1)
        (fun p q keyed sofar step' => trans _ _ _ sofar (step _ p q keyed step')) (steps [])
        ready.keyed (refl _)
    refine ⟨ready', fun made hmade => ?_⟩
    rcases List.mem_append.mp hmade with before | last
    · exact trans _ _ _ (earlier made before) next
    · obtain rfl := List.mem_singleton.mp last
      exact refl _

/-! ## Plans that are set, among all plans -/

namespace Tables

/-- A team has one plan for a day. -/
theorem OneEach.plan_unique (one : t.OneEach) (keyed : t.LedgerKeyed) {p q : Plan}
    (hp : p ∈ t.plans) (hq : q ∈ t.plans) (ofTeam : p.teamId = q.teamId) (day : p.day = q.day) :
    p = q := List.inj_on_of_nodup_map keyed.plans hp hq (one.plans p hp q hq ofTeam day)

/-- No pair of a team and a day has two plans. -/
theorem OneEach.teamDays_nodup (one : t.OneEach) (keyed : t.LedgerKeyed) :
    (t.plans.map fun p => (p.teamId, p.day)).Nodup := by
  refine List.Nodup.map_on (fun p hp q hq same => ?_) keyed.plans.of_map
  obtain ⟨ofTeam, day⟩ := Prod.mk.inj same
  exact one.plan_unique keyed hp hq ofTeam day

namespace SetsPlans

/-- The plans that were set are all that the team has for the days. -/
theorem mem_plans_iff (h : t.SetsPlans teamId capacity days plans t') (one : t'.OneEach)
    (keyed : t'.LedgerKeyed) {p : Plan} :
    p ∈ plans ↔ p ∈ t'.plans ∧ isPlanAmong teamId days p = true := by
  rw [isPlanAmong_iff]
  constructor
  · exact fun hp => ⟨h.stored p hp, h.ofTeam p hp, h.day_mem hp⟩
  · rintro ⟨hp, ofTeam, day⟩
    rw [← h.eachDay] at day
    obtain ⟨q, hq, sameDay⟩ := List.mem_map.mp day
    have sameTeam := (h.ofTeam q hq).trans ofTeam.symm
    exact one.plan_unique keyed (h.stored q hq) hp sameTeam sameDay ▸ hq

theorem keepsPlans (h : t.SetsPlans teamId capacity days plans t') : t.KeepsPlans t' := by
  have updated : t.KeepsPlans { t with
      plans := updateWhere (isPlanAmong teamId days)
        (fun p => { p with capacity := capacity p.day }) t.plans } :=
    .of_updateWhere rfl fun _ => ⟨rfl, rfl, rfl⟩
  intro p hp
  obtain ⟨q, hq, same⟩ := updated p hp
  exact ⟨q, h.plans_eq ▸ List.mem_append_left _ hq, same⟩

theorem profiles (h : t.SetsPlans teamId capacity days plans t') (team : Team) :
    team.profiles t' = team.profiles t := by
  rw [h.frame]
  rfl

theorem team? (h : t.SetsPlans teamId capacity days plans t') (id : String) :
    t'.team? id = t.team? id := by
  rw [h.frame]
  rfl

/-- Other days set to the same capacities leave these plans as they are. -/
theorem eq_of_day {days' : List Day} {plans' : List Plan} {t'' : Tables}
    (h : t.SetsPlans teamId capacity days plans t')
    (h' : t'.SetsPlans teamId capacity days' plans' t'') (one : t''.OneEach)
    (keyed : t''.LedgerKeyed) {p q : Plan} (hp : p ∈ plans) (hq : q ∈ plans')
    (day : q.day = p.day) : q = p :=
  one.plan_unique keyed (h'.stored q hq) (h'.mem (h.stored p hp) fun _ => h.sized p hp)
    ((h'.ofTeam q hq).trans (h.ofTeam p hp).symm) day

/-- Some of the days set again, to the same capacities. -/
theorem again {days' : List Day} {plans' : List Plan} {t'' : Tables}
    (h : t.SetsPlans teamId capacity days plans t')
    (h' : t'.SetsPlans teamId capacity days' plans' t'') (one : t'.OneEach)
    (keyed : t'.LedgerKeyed) (among : ∀ d ∈ days', d ∈ days) : t'' = t' := by
  refine h'.eq_self (fun d hd => ?_) fun p hp own => ?_
  · have hd := among d hd
    rw [← h.eachDay] at hd
    obtain ⟨p, hp, rfl⟩ := List.mem_map.mp hd
    exact List.find?_isSome.mpr ⟨p, h.stored p hp, isPlanOf_iff.mpr ⟨h.ofTeam p hp, rfl⟩⟩
  · obtain ⟨ofTeam, day⟩ := isPlanAmong_iff.mp own
    exact h.sized p ((h.mem_plans_iff one keyed).mpr
      ⟨hp, isPlanAmong_iff.mpr ⟨ofTeam, among _ day⟩⟩)

end SetsPlans

end Tables

/-! ## The call -/

/-- In a state that a run reaches, the plans of a range of days are set for a known team. -/
theorem Run.generatePlans_sets (run : Run past e) (known : e.store.tables.team? teamId = some team)
    (zone : team.zone = .ok z) (ordered : first ≤ last) :
    ∃ plans e', Engine.generatePlans teamId first last e = .ok plans e' ∧
      Run (past ++ [(e, .generatePlans teamId first last)]) e' ∧
      e' = { e with store := { e.store with
        tables := e'.store.tables, serial := e'.store.serial } } ∧
      e.store.tables.SetsPlans teamId
        (fun d => team.dailyCapacity (team.profiles e.store.tables) d z) (Day.range first last)
        plans e'.store.tables := by
  obtain ⟨plans, s, collected⟩ := Ledger.collectPlans_succeeds (s := e.store.begin)
    run.sound.fits known zone (Day.range first last)
  have sets : e.store.tables.SetsPlans teamId
      (fun d => team.dailyCapacity (team.profiles e.store.tables) d z) (Day.range first last) plans
      s.tables :=
    Ledger.collectPlans_sets (s := e.store.begin) (Day.range_nodup first last) collected
  have done : Engine.generatePlans teamId first last e
      = .ok plans { e with store := s.commit } := by
    refine Engine.onStore_of_ok ?_
    unfold Ledger.generatePlans
    simp only [Work.guard_eq_ok, bind_eq_ok, Work.ofExcept_eq_ok, Work.demand_eq_ok,
      Work.ask_eq_ok]
    refine ⟨Int.not_lt.mpr ordered, team, _, ⟨known, rfl⟩, z, _, ⟨zone, rfl⟩, _, _, ⟨rfl, rfl⟩, ?_⟩
    exact (Work.atomic_eq_ok run.ready.idle).mpr ⟨s, collected, rfl⟩
  refine ⟨plans, _, done, ?_, ?_, sets⟩
  · have left : (Operation.generatePlans teamId first last).after e = _ := after_of_ok done
    exact left ▸ run.operation (.generatePlans teamId first last) trivial
  · show { e with store := s.commit } = { e with store := ⟨s.tables, s.serial, e.store.saved⟩ }
    rw [run.ready.idle]
    rfl

section Later

variable {first' last' : Day} (run : Run past e)
  (known : e.store.tables.team? teamId = some team) (zone : team.zone = .ok z)

include run known zone

/-- A window that starts on a day that was planned finds the plan of the day as it is. -/
theorem Run.ensureSlot_planned (sets : t.SetsPlans teamId
      (fun d => team.dailyCapacity (team.profiles t) d z) days plans e.store.tables)
    {p : Plan} (hp : p ∈ plans) {w : Window} (lasts : w.start < w.stop)
    (whole : w.wholeSeconds = w) (day : z.dayAt w.start = p.day) :
    ∃ slot e', Engine.ensureSlot teamId w.start w.stop e = .ok slot e' ∧ slot.planId = p.id ∧
      e'.store.tables.plans = e.store.tables.plans := by
  obtain ⟨slot, plan, e', done, -, -, -, setsDay, -, -, -, onPlan, -⟩ :=
    run.ensureSlot_sets known zone lasts whole
  have keyed := run.ready.keyed.toLedgerKeyed
  rw [sets.profiles] at setsDay
  have planDay : plan.day = p.day := (List.singleton_inj.mp setsDay.eachDay).trans day
  have same := sets.again setsDay run.oneEach keyed fun d hd => by
    rw [List.mem_singleton.mp hd, day]
    exact sets.day_mem hp
  have samePlan : plan = p := sets.eq_of_day setsDay (same ▸ run.oneEach) (same ▸ keyed) hp
    (List.mem_singleton_self plan) planDay
  exact ⟨slot, e', done, samePlan ▸ onPlan, (congrArg Tables.plans same :)⟩

/-- Another range leaves the plans of the days that were planned as they are, and all tables if it
has no other days. -/
theorem Run.generatePlans_planned (sets : t.SetsPlans teamId
      (fun d => team.dailyCapacity (team.profiles t) d z) (Day.range first last) plans
      e.store.tables)
    (ordered : first' ≤ last') :
    ∃ plans' e', Engine.generatePlans teamId first' last' e = .ok plans' e' ∧
      (∀ p ∈ plans, ∀ q ∈ plans', q.day = p.day → q = p) ∧
      (first ≤ first' → last' ≤ last → e'.store.tables = e.store.tables) := by
  obtain ⟨plans', e', done, run', -, sets'⟩ := run.generatePlans_sets known zone ordered
  rw [sets.profiles] at sets'
  refine ⟨plans', e', done, fun p hp q hq day => ?_, fun inside inside' => ?_⟩
  · exact sets.eq_of_day sets' run'.oneEach run'.ready.keyed.toLedgerKeyed hp hq day
  · refine sets.again sets' run.oneEach run.ready.keyed.toLedgerKeyed fun d hd => ?_
    obtain ⟨atLeast, atMost⟩ := Day.mem_range.mp hd
    exact Day.mem_range.mpr ⟨Int.le_trans inside atLeast, Int.le_trans atMost inside'⟩

/-- A range that is planned later finds the ids, and if the members' profiles are the same it sets
the same capacities. -/
theorem Run.generatePlans_later (sets : t.SetsPlans teamId
      (fun d => team.dailyCapacity (team.profiles t) d z) days plans t')
    (kept : t'.KeepsPlans e.store.tables) (same : team.profiles e.store.tables = team.profiles t)
    (ordered : first' ≤ last') :
    ∃ plans' e', Engine.generatePlans teamId first' last' e = .ok plans' e' ∧
      ∀ p ∈ plans, ∀ q ∈ plans', q.day = p.day → q.id = p.id ∧ q.capacity = p.capacity := by
  obtain ⟨plans', e', done, run', -, sets'⟩ := run.generatePlans_sets known zone ordered
  rw [same] at sets'
  refine ⟨plans', e', done, fun p hp q hq day => ⟨?_, ?_⟩⟩
  · obtain ⟨r, hr, id, ofTeam, sameDay⟩ :=
      Tables.KeepsPlans.trans _ _ _ kept sets'.keepsPlans p (sets.stored p hp)
    have sameTeam := (sets'.ofTeam q hq).trans ((sets.ofTeam p hp).symm.trans ofTeam.symm)
    rw [← id]
    exact run'.oneEach.plans q (sets'.stored q hq) r hr sameTeam (day.trans sameDay.symm)
  · rw [sets'.sized q hq, sets.sized p hp, day]

end Later

/-- **A range of days is planned as windows are, and however often it is.** In every state that a
run reaches, and for every stored team, the plans of the days from `first` to `last` are set to the
capacities of the days and answered day by day. Those that were there keep their ids and bookings,
and no other plan and no other table has changed; no pair of a team and a day has two plans, before
or after. A window that starts on one of the days would have set the same capacity, and once the
days are planned it finds its plan as it is. Other ranges leave the common days as they are, and the
tables too if they have no other days; and as long as the team and its members' profiles are the
same, they give the common days the same ids and capacities at any later point of the run. -/
theorem generatePlans_agrees (run : Run past e) (known : e.store.tables.team? teamId = some team)
    (ordered : first ≤ last) :
    ∃ z plans e', team.zone = .ok z ∧
      Engine.generatePlans teamId first last e = .ok plans e' ∧
      let t := e.store.tables
      let t' := e'.store.tables
      t.SetsPlans teamId (fun d => team.dailyCapacity (team.profiles t) d z) (Day.range first last)
        plans t' ∧
      (t.plans.map fun p => (p.teamId, p.day)).Nodup ∧
      (t'.plans.map fun p => (p.teamId, p.day)).Nodup ∧
      e' = { e with store := { e.store with tables := t', serial := e'.store.serial } } ∧
      (∀ p ∈ plans, ∀ w : Window, w.start < w.stop → w.wholeSeconds = w → z.dayAt w.start = p.day →
        (∃ slot plan e₁, Engine.ensureSlot teamId w.start w.stop e = .ok slot e₁ ∧
          e₁.store.tables.planOn? teamId p.day = some plan ∧ slot.planId = plan.id ∧
          plan.capacity = p.capacity) ∧
        ∃ slot e₁, Engine.ensureSlot teamId w.start w.stop e' = .ok slot e₁ ∧
          slot.planId = p.id ∧ e₁.store.tables.plans = t'.plans) ∧
      (∀ first' last', first' ≤ last' → ∃ plans' e'',
        Engine.generatePlans teamId first' last' e' = .ok plans' e'' ∧
        (∀ p ∈ plans, ∀ q ∈ plans', q.day = p.day → q = p) ∧
        (first ≤ first' → last' ≤ last → e''.store.tables = t')) ∧
      ∀ past₂ e₂, Run past₂ e₂ → (e, .generatePlans teamId first last) ∈ past₂ →
        e₂.store.tables.team? teamId = some team →
        (∀ m ∈ team.members, e₂.store.tables.provider? m.providerId = t.provider? m.providerId) →
        ∀ first' last', first' ≤ last' → ∃ plans' e'',
          Engine.generatePlans teamId first' last' e₂ = .ok plans' e'' ∧
          ∀ p ∈ plans, ∀ q ∈ plans', q.day = p.day → q.id = p.id ∧ q.capacity = p.capacity := by
  obtain ⟨z, named⟩ := Option.isSome_iff_exists.mp
    (run.orderly.teams team (List.mem_of_find?_eq_some known))
  have zone := Team.zone_eq_ok.mpr named
  obtain ⟨plans, e', done, run', frame, sets⟩ := run.generatePlans_sets known zone ordered
  have left : (Operation.generatePlans teamId first last).after e = e' := after_of_ok done
  have known' := (sets.team? teamId).trans known
  have keyed' := run'.ready.keyed.toLedgerKeyed
  refine ⟨z, plans, e', zone, done, sets, run.oneEach.teamDays_nodup run.ready.keyed.toLedgerKeyed,
    run'.oneEach.teamDays_nodup keyed', frame, ?_, ?_, ?_⟩
  · intro p hp w lasts whole day
    constructor
    · obtain ⟨slot, plan, e₁, ensured, -, -, -, setsDay, -, -, onDay, onPlan, -⟩ :=
        run.ensureSlot_sets known zone lasts whole
      refine ⟨slot, plan, e₁, ensured, day ▸ onDay, onPlan, ?_⟩
      have planDay : plan.day = p.day := (List.singleton_inj.mp setsDay.eachDay).trans day
      rw [setsDay.sized plan (List.mem_singleton_self plan), sets.sized p hp, planDay]
    · exact run'.ensureSlot_planned known' zone sets hp lasts whole day
  · exact fun first' last' ordered' => run'.generatePlans_planned known' zone sets ordered'
  · intro past₂ e₂ run₂ made known₂ members first' last' ordered'
    have profiles : team.profiles e₂.store.tables = team.profiles e.store.tables := by
      unfold Team.profiles
      rw [List.filterMap_congr members]
    have kept := run₂.since (fun t => .of_eq rfl) Tables.KeepsPlans.trans
      (fun _ _ _ _ step => step.keepsPlans) made
    rw [left] at kept
    exact run₂.generatePlans_later known₂ zone sets kept profiles ordered'

namespace Sample

/-- The day before the window `nine`, which is on a Monday. -/
def sunday : Day := .ofCivil 2026 3 1

/-- The day after it. -/
def tuesday : Day := .ofCivil 2026 3 3

end Sample

/-- Of a team that works on Mondays, one is off and one unit is booked; to plan Monday again changes
nothing. -/
theorem generatePlans_agrees_oneOff : ∃ past e plans e', Run past e ∧
    Engine.generatePlans (idText "team" 0) Sample.sunday Sample.tuesday e = .ok plans e' ∧
    plans.map (fun p => (p.capacity, p.booked)) = [(0, 0), (1, 1), (0, 0)] ∧
    ∃ plans' e'', Engine.generatePlans (idText "team" 0) (Sample.sunday.addDays 1)
      (Sample.sunday.addDays 1) e' = .ok plans' e'' ∧ e''.store.tables = e'.store.tables := by
  obtain ⟨e, left⟩ : ∃ e, e = Operation.afterAll Sample.oneOff Sample.engine := ⟨_, rfl⟩
  have run : Run (Operation.trace Sample.oneOff Sample.engine) e := left ▸
    Run.of_operations rfl rfl (fun _ _ _ => rfl) (by simp [Sample.oneOff, Operation.IsAdmissible])
  obtain ⟨team, known, figures⟩ : ∃ team ∈ e.store.tables.team? (idText "team" 0),
      (team.zone.toOption.map fun z => (Day.range Sample.sunday Sample.tuesday).map fun d =>
        (team.dailyCapacity (team.profiles e.store.tables) d z,
          e.store.tables.bookedOnDay (idText "team" 0) d))
        = some [(0, 0), (1, 1), (0, 0)] := by
    rw [left]
    decide +kernel
  obtain ⟨z, plans, e', zone, done, sets, -, -, -, -, again, -⟩ :=
    generatePlans_agrees run known (by decide : Sample.sunday ≤ Sample.tuesday)
  obtain ⟨plans', e'', done', -, same⟩ := again (Sample.sunday.addDays 1) (Sample.sunday.addDays 1)
    (by decide)
  rw [zone] at figures
  refine ⟨_, e, plans, e', run, done, ?_, plans', e'', done', same (by decide) (by decide)⟩
  rw [← Option.some.inj figures, ← sets.eachDay]
  show _ = List.map _ (List.map _ plans)
  rw [List.map_map]
  refine List.map_congr_left fun p hp => ?_
  rw [Function.comp_apply, sets.sized p hp, sets.booked p hp]

end Staffing
