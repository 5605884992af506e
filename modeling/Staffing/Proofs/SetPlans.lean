import Staffing.Proofs.OneEach

/-!
# Plans that are set

Setting the capacity of a day changes the plan that there is, or makes one without bookings. After
several days were set, a team has for each of them one plan with that capacity. No booking has
changed and no other plan, and to set the same days again changes nothing.

* `Tables.SetsPlans` — what setting the plans of some days does
* `Tables.SetsPlans.cons` — one day, and then the others
* `Tables.SetsPlans.bookedOnDay`, `Tables.SetsPlans.mem`, `Tables.SetsPlans.eq_self` — what it
  leaves alone
* `Store.upsertPlan_sets`, `Ledger.collectPlans_sets` — the units of work
-/

namespace Staffing

variable {t t' t₁ : Tables} {teamId : String} {capacity : Day → Nat} {d : Day} {days : List Day}
  {plan : Plan} {plans : List Plan}

/-! ## Rows that are updated -/

section Rows

variable {α : Type} {p q : α → Bool} {f : α → α} {rows : List α}

theorem updateWhere_append (p : α → Bool) (f : α → α) (first second : List α) :
    updateWhere p f (first ++ second) = updateWhere p f first ++ updateWhere p f second :=
  List.map_append

theorem updateWhere_congr {g : α → α} (h : ∀ r ∈ rows, p r = q r)
    (hf : ∀ r ∈ rows, p r = true → f r = g r) : updateWhere p f rows = updateWhere q g rows := by
  refine List.map_congr_left fun r hr => ?_
  rw [← h r hr]
  by_cases hit : p r = true
  · rw [if_pos hit, if_pos hit, hf r hr hit]
  · rw [if_neg hit, if_neg hit]

/-- An update that changes nothing of the rows that it goes to. -/
theorem updateWhere_eq_self_of_eq (h : ∀ r ∈ rows, p r = true → f r = r) :
    updateWhere p f rows = rows := by
  have same : updateWhere p f rows = updateWhere p id rows :=
    updateWhere_congr (fun _ _ => rfl) h
  rw [same]
  unfold updateWhere
  simp

/-- A search for what no update changes. -/
theorem find?_updateWhere_of_eq (h : ∀ r, q (f r) = q r) (rows : List α) :
    (updateWhere p f rows).find? q = (rows.find? q).map fun r => if p r then f r else r := by
  unfold updateWhere
  rw [List.find?_map]
  congr 2
  funext r
  rw [Function.comp_apply]
  split
  · exact h r
  · rfl

end Rows

/-! ## What setting plans does -/

namespace Tables

/-- Is it the team's plan of one of the days? -/
def isPlanAmong (teamId : String) (days : List Day) (p : Plan) : Bool :=
  p.teamId == teamId && days.contains p.day

theorem isPlanAmong_iff {p : Plan} :
    isPlanAmong teamId days p = true ↔ p.teamId = teamId ∧ p.day ∈ days := by
  simp [isPlanAmong]

theorem isPlanAmong_singleton (teamId : String) (d : Day) :
    isPlanAmong teamId [d] = isPlanOf teamId d := by
  funext p
  simp [isPlanAmong, isPlanOf]

/-- The plans of a team's `days` are set to capacities and are `plans`. Those that were there keep
their bookings; the others have come, with new ids. Nothing else has changed. -/
structure SetsPlans (t : Tables) (teamId : String) (capacity : Day → Nat) (days : List Day)
    (plans : List Plan) (t' : Tables) : Prop where
  eachDay : plans.map (·.day) = days
  ofTeam : ∀ p ∈ plans, p.teamId = teamId
  sized : ∀ p ∈ plans, p.capacity = capacity p.day
  booked : ∀ p ∈ plans, p.booked = t.bookedOnDay teamId p.day
  stored : ∀ p ∈ plans, p ∈ t'.plans
  fresh : ∀ p ∈ plans, t.planOn? teamId p.day = none → ∀ q ∈ t.plans, q.id ≠ p.id
  frame : t' = { t with
    plans := updateWhere (isPlanAmong teamId days) (fun p => { p with capacity := capacity p.day })
      t.plans ++ plans.filter fun p => (t.planOn? teamId p.day).isNone }

namespace SetsPlans

theorem day_mem (h : t.SetsPlans teamId capacity days plans t') {p : Plan} (hp : p ∈ plans) :
    p.day ∈ days := h.eachDay ▸ List.mem_map_of_mem hp

theorem plans_eq (h : t.SetsPlans teamId capacity days plans t') :
    t'.plans = updateWhere (isPlanAmong teamId days)
      (fun p => { p with capacity := capacity p.day }) t.plans
        ++ plans.filter fun p => (t.planOn? teamId p.day).isNone := congrArg Tables.plans h.frame

/-- The plan that is found on a day is one that was there, or one that has come. -/
theorem planOn?_eq (h : t.SetsPlans teamId capacity days plans t') (id : String) (d : Day) :
    t'.planOn? id d = ((t.planOn? id d).map fun p =>
        if isPlanAmong teamId days p then { p with capacity := capacity p.day } else p).or
      ((plans.filter fun p => (t.planOn? teamId p.day).isNone).find? (isPlanOf id d)) := by
  unfold planOn?
  rw [h.plans_eq, List.find?_append, find?_updateWhere_of_eq]
  · rfl
  · exact fun _ => rfl

/-- No booking changes, since a new plan has none. -/
theorem bookedOnDay (h : t.SetsPlans teamId capacity days plans t') (id : String) (d : Day) :
    t'.bookedOnDay id d = t.bookedOnDay id d := by
  have now := h.planOn?_eq id d
  unfold Tables.bookedOnDay
  rw [now]
  cases was : t.planOn? id d with
  | some p =>
    rw [Option.map_some, Option.some_or, Option.map_some, Option.map_some, Option.getD_some,
      Option.getD_some]
    split <;> rfl
  | none =>
    rw [Option.map_none, Option.none_or]
    cases new : (plans.filter _).find? (isPlanOf id d) with
    | none => rfl
    | some p =>
      obtain ⟨hp, -⟩ := List.mem_filter.mp (List.mem_of_find?_eq_some new)
      obtain ⟨rfl, rfl⟩ := isPlanOf_iff.mp (List.find?_some new)
      rw [Option.map_some, Option.getD_some, h.booked p hp, ← h.ofTeam p hp]
      unfold Tables.bookedOnDay
      rw [was]

/-- A plan stays as it is unless it is set to another capacity. -/
theorem mem (h : t.SetsPlans teamId capacity days plans t') {p : Plan} (hp : p ∈ t.plans)
    (keeps : isPlanAmong teamId days p = true → p.capacity = capacity p.day) : p ∈ t'.plans := by
  rw [h.plans_eq]
  refine List.mem_append_left _ (mem_updateWhere.mpr ⟨p, hp, ?_⟩)
  split
  · next among => rw [← keeps among]
  · rfl

/-- Setting plans to the capacities that they have changes nothing. -/
theorem eq_self (h : t.SetsPlans teamId capacity days plans t')
    (known : ∀ d ∈ days, (t.planOn? teamId d).isSome)
    (keeps : ∀ p ∈ t.plans, isPlanAmong teamId days p = true → p.capacity = capacity p.day) :
    t' = t := by
  have none : (plans.filter fun p => (t.planOn? teamId p.day).isNone) = [] := by
    refine List.filter_eq_nil_iff.mpr fun p hp new => ?_
    have known := known _ (h.day_mem hp)
    rw [Option.isNone_iff_eq_none.mp new] at known
    cases known
  rw [h.frame, none, List.append_nil, updateWhere_eq_self_of_eq]
  intro p hp among
  rw [← keeps p hp among]

/-- When one day is set, its plan is changed or comes. -/
theorem plans_eq_of_one (h : t.SetsPlans teamId capacity [d] [plan] t') :
    t'.plans = updateWhere (isPlanOf teamId d)
        (fun p => { p with capacity := plan.capacity }) t.plans
      ++ if (t.planOn? teamId d).isNone then [plan] else [] := by
  obtain rfl : plan.day = d := List.singleton_inj.mp h.eachDay
  rw [h.plans_eq, isPlanAmong_singleton, List.filter_singleton]
  congr 1
  · refine updateWhere_congr (fun _ _ => rfl) fun p _ own => ?_
    simp only [h.sized plan (List.mem_singleton_self plan), (isPlanOf_iff.mp own).2]
  · rw [Bool.cond_eq_ite]

/-- No days are set. -/
theorem nil (t : Tables) (teamId : String) (capacity : Day → Nat) :
    t.SetsPlans teamId capacity [] [] t where
  eachDay := rfl
  ofTeam := fun _ never => absurd never List.not_mem_nil
  sized := fun _ never => absurd never List.not_mem_nil
  booked := fun _ never => absurd never List.not_mem_nil
  stored := fun _ never => absurd never List.not_mem_nil
  fresh := fun _ never => absurd never List.not_mem_nil
  frame := by
    rw [updateWhere_eq_self fun p _ => ?_]
    · simp
    · simp [isPlanAmong]

/-- **One day is set, and then others.** -/
theorem cons (first : t.SetsPlans teamId capacity [d] [plan] t₁)
    (others : t₁.SetsPlans teamId capacity days plans t') (new : d ∉ days) :
    t.SetsPlans teamId capacity (d :: days) (plan :: plans) t' := by
  obtain rfl : plan.day = d := List.singleton_inj.mp first.eachDay
  have ofTeam := first.ofTeam plan (List.mem_singleton_self plan)
  have sized := first.sized plan (List.mem_singleton_self plan)
  have apart : isPlanAmong teamId days plan = false := by
    simp [isPlanAmong, ofTeam, new]
  -- On the other days there is a plan if there was one before the first day was set.
  have known : ∀ p ∈ plans, (t₁.planOn? teamId p.day).isNone = (t.planOn? teamId p.day).isNone := by
    intro p hp
    have differs : p.day ≠ plan.day := fun same => new (same ▸ others.day_mem hp)
    have elsewhere : ([plan].filter fun p => (t.planOn? teamId p.day).isNone).find?
        (isPlanOf teamId p.day) = none := by
      refine List.find?_eq_none.mpr fun q hq => ?_
      obtain rfl := List.mem_singleton.mp (List.mem_filter.mp hq).1
      simp [isPlanOf, differs.symm]
    rw [first.planOn?_eq, elsewhere, Option.or_none, Option.isNone_map]
  constructor
  case eachDay => rw [List.map_cons, others.eachDay]
  case ofTeam => exact List.forall_mem_cons.mpr ⟨ofTeam, others.ofTeam⟩
  case sized => exact List.forall_mem_cons.mpr ⟨sized, others.sized⟩
  case booked =>
    refine List.forall_mem_cons.mpr ⟨first.booked plan (List.mem_singleton_self plan), ?_⟩
    exact fun p hp => (others.booked p hp).trans (first.bookedOnDay teamId p.day)
  case stored =>
    refine List.forall_mem_cons.mpr ⟨?_, others.stored⟩
    exact others.mem (first.stored plan (List.mem_singleton_self plan)) fun _ => sized
  case fresh =>
    refine List.forall_mem_cons.mpr ⟨first.fresh plan (List.mem_singleton_self plan), ?_⟩
    intro p hp none q hq
    have none₁ : t₁.planOn? teamId p.day = Option.none := by
      rw [← Option.isNone_iff_eq_none, known p hp, none]
      rfl
    obtain ⟨r, hr, same⟩ : ∃ r ∈ t₁.plans, r.id = q.id := by
      rw [first.plans_eq]
      refine ⟨_, List.mem_append_left _ (mem_updateWhere.mpr ⟨q, hq, rfl⟩), ?_⟩
      split <;> rfl
    exact same ▸ others.fresh p hp none₁ r hr
  case frame =>
    have twice : updateWhere (isPlanAmong teamId days)
          (fun p => { p with capacity := capacity p.day })
          (updateWhere (isPlanAmong teamId [plan.day])
            (fun p => { p with capacity := capacity p.day }) t.plans)
        = updateWhere (isPlanAmong teamId (plan.day :: days))
          (fun p => { p with capacity := capacity p.day }) t.plans := by
      unfold updateWhere
      rw [List.map_map]
      refine List.map_congr_left fun p _ => ?_
      by_cases own : p.teamId = teamId <;> by_cases here : p.day = plan.day <;>
        by_cases later : p.day ∈ days <;> simp [isPlanAmong, own, here, later]
    have alone : updateWhere (isPlanAmong teamId days)
        (fun p => { p with capacity := capacity p.day })
          ([plan].filter fun p => (t.planOn? teamId p.day).isNone)
        = [plan].filter fun p => (t.planOn? teamId p.day).isNone := by
      refine updateWhere_eq_self fun p hp => ?_
      rw [List.mem_singleton.mp (List.mem_filter.mp hp).1, apart]
    have split : (plan :: plans).filter (fun p => (t.planOn? teamId p.day).isNone)
        = ([plan].filter fun p => (t.planOn? teamId p.day).isNone)
          ++ plans.filter fun p => (t₁.planOn? teamId p.day).isNone := by
      rw [List.filter_congr known, ← List.filter_append, List.singleton_append]
    rw [others.frame, first.plans_eq, updateWhere_append, twice, alone, split, List.append_assoc]
    rw [first.frame]

end SetsPlans

end Tables

/-! ## The units of work -/

variable {s s' : Store} {team : Team} {z : Zone}

/-- One day is set. -/
theorem Store.upsertPlan_sets (h : upsertPlan teamId d (capacity d) s = .ok plan s') :
    s.tables.SetsPlans teamId capacity [d] [plan] s'.tables := by
  obtain ⟨found, sized, booked, -⟩ := upsertPlan_figures h
  obtain ⟨ofTeam, rfl⟩ := Tables.isPlanOf_iff.mp (List.find?_some found)
  unfold upsertPlan at h
  simp only [bind_eq_ok, Work.found_eq_ok, Work.run_eq_ok] at h
  obtain ⟨id, s₁, drawn, _, _, ⟨t, done, rfl⟩, row, _, read, rfl, rfl⟩ := h
  obtain ⟨-, -, rfl⟩ := Work.readRow_eq_ok.mp read
  obtain ⟨tables₁, -⟩ := Work.draw_eq_ok drawn
  rw [tables₁] at done
  -- Either there is a plan already, or the one that is found is the new one.
  obtain ⟨fresh, frame⟩ : (s.tables.planOn? teamId plan.day = none →
      ∀ q ∈ s.tables.plans, q.id ≠ plan.id) ∧ t = { s.tables with
        plans := updateWhere (Tables.isPlanOf teamId plan.day)
          (fun p => { p with capacity := capacity p.day }) s.tables.plans
            ++ [plan].filter fun p => (s.tables.planOn? teamId p.day).isNone } := by
    obtain ⟨-, ⟨known, rfl⟩ | ⟨other, unused, rfl⟩⟩ := Tables.upsertPlan_ok_cases done
    · obtain ⟨p, was⟩ : ∃ p, s.tables.planOn? teamId plan.day = some p :=
        Option.isSome_iff_exists.mp (List.find?_isSome.mpr known)
      refine ⟨fun none => by simp [was] at none, ?_⟩
      rw [List.filter_singleton, was, Option.isNone_some, cond_false, List.append_nil]
      congr 1
      refine updateWhere_congr (fun _ _ => rfl) fun q _ own => ?_
      simp only [(Tables.isPlanOf_iff.mp own).2]
    · have was : s.tables.planOn? teamId plan.day = none :=
        List.find?_eq_none.mpr fun p hp => Bool.eq_false_iff.mp (other p hp)
      have new : plan = ⟨id, teamId, plan.day, capacity plan.day, 0⟩ := by
        refine Option.some.inj (found.symm.trans ?_)
        show List.find? _ (s.tables.plans ++ _) = _
        rw [List.find?_append, show List.find? _ s.tables.plans = none from was]
        simp [Tables.isPlanOf]
      refine ⟨fun _ => new ▸ unused, ?_⟩
      rw [List.filter_singleton, was, Option.isNone_none, cond_true, updateWhere_eq_self other,
        ← new]
  constructor
  case eachDay => rfl
  case ofTeam => simpa using ofTeam
  case sized => simpa using sized
  case booked => simpa using booked
  case stored => simpa using List.mem_of_find?_eq_some found
  case fresh => simpa using fresh
  case frame => rw [Tables.isPlanAmong_singleton]; exact frame

namespace Ledger

/-- **Different days are set, one after the other.** -/
theorem collectPlans_sets (nodup : days.Nodup)
    (h : Work.collect (fun d => Store.upsertPlan teamId d (capacity d)) days s = .ok plans s') :
    s.tables.SetsPlans teamId capacity days plans s'.tables := by
  induction days generalizing s plans with
  | nil =>
    obtain ⟨rfl, rfl⟩ := pure_eq_ok.mp h
    exact .nil _ _ _
  | cons d rest ih =>
    obtain ⟨new, nodupRest⟩ := List.nodup_cons.mp nodup
    obtain ⟨plan, s₁, upserted, h⟩ := bind_eq_ok.mp h
    obtain ⟨plans, s₂, others, h⟩ := bind_eq_ok.mp h
    obtain ⟨rfl, rfl⟩ := pure_eq_ok.mp h
    exact (Store.upsertPlan_sets upserted).cons (ih nodupRest others) new

/-- Plans of days can be set for a team that is known. -/
theorem collectPlans_succeeds (fits : s.tables.Fits) (known : s.tables.team? teamId = some team)
    (zone : team.zone = .ok z) (days : List Day) :
    ∃ plans s', Work.collect (fun d => Store.upsertPlan teamId d
      (team.dailyCapacity (team.profiles s.tables) d z)) days s = .ok plans s' := by
  let Stays (t : Tables) : Prop :=
    t.Fits ∧ t.team? teamId = some team ∧ team.profiles t = team.profiles s.tables
  have each : ∀ d ∈ days, ∀ s₁ : Store, Stays s₁.tables → ∃ plan s₂, Store.upsertPlan teamId d
      (team.dailyCapacity (team.profiles s.tables) d z) s₁ = .ok plan s₂ ∧ Stays s₂.tables := by
    rintro d - s₁ ⟨fits₁, known₁, profiles₁⟩
    obtain ⟨plan, s₂, upserted⟩ := Store.upsertPlan_succeeds (d := d) fits₁ known₁ zone
    obtain ⟨calm, -, moves, -⟩ := Store.upsertPlan_ok_cases 0 known₁ zone upserted
    exact ⟨plan, s₂, profiles₁ ▸ upserted, calm.fits fits₁, (moves.team? teamId).trans known₁,
      (moves.profiles team).trans profiles₁⟩
  obtain ⟨plans, s', done, -⟩ := Work.collect_succeeds each ⟨fits, known, rfl⟩
  exact ⟨plans, s', done⟩

end Ledger

end Staffing
