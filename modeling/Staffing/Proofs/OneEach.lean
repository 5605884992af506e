import Staffing.Proofs.Capacity

/-!
# One plan for a day, one slot for a window

Plans and slots are made only where there is none yet, so a team has one plan for a day and one slot
for a window. Bringing a window up to date answers these two. It sets their capacities and leaves
their bookings as they were.

* `Tables.OneEach`, `Run.oneEach` — one plan for a day, one slot for a window, after every run
* `Tables.bookedOnDay`, `Tables.bookedAt` — the units booked on a day, in a window
* `Ledger.ensureSlotJoined_figures` — what the slot and the plan of a window are, once up to date
-/

namespace Staffing

variable {now : Instant} {t t' : Tables} {teamId : String} {d : Day} {w : Window}

namespace Tables

/-- No team has two plans for one day or two slots for one window. -/
structure OneEach (t : Tables) : Prop where
  plans : ∀ p ∈ t.plans, ∀ q ∈ t.plans, p.teamId = q.teamId → p.day = q.day → p.id = q.id
  slots : ∀ r ∈ t.slots, ∀ s ∈ t.slots, r.teamId = s.teamId → r.window = s.window → r.id = s.id

theorem OneEach.empty : OneEach {} where
  plans := fun _ h => absurd h List.not_mem_nil
  slots := fun _ h => absurd h List.not_mem_nil

/-- Figures may change, as long as ids, teams, days and windows do not. -/
theorem OneEach.of_moves (h : t.OneEach)
    (plans : ∀ p ∈ t'.plans, ∃ q ∈ t.plans, p.id = q.id ∧ p.teamId = q.teamId ∧ p.day = q.day)
    (slots : ∀ r ∈ t'.slots, ∃ s ∈ t.slots, r.id = s.id ∧ r.teamId = s.teamId ∧
      r.window = s.window) : t'.OneEach where
  plans := by
    intro p hp q hq sameTeam sameDay
    obtain ⟨p₀, hp₀, pId, pTeam, pDay⟩ := plans p hp
    obtain ⟨q₀, hq₀, qId, qTeam, qDay⟩ := plans q hq
    rw [pId, qId]
    exact h.plans p₀ hp₀ q₀ hq₀ (by rw [← pTeam, ← qTeam, sameTeam])
      (by rw [← pDay, ← qDay, sameDay])
  slots := by
    intro r hr s hs sameTeam sameWindow
    obtain ⟨r₀, hr₀, rId, rTeam, rWindow⟩ := slots r hr
    obtain ⟨s₀, hs₀, sId, sTeam, sWindow⟩ := slots s hs
    rw [rId, sId]
    exact h.slots r₀ hr₀ s₀ hs₀ (by rw [← rTeam, ← sTeam, sameTeam])
      (by rw [← rWindow, ← sWindow, sameWindow])

/-- An update of figures leaves every plan where it is. -/
theorem plan_of_updateWhere {p : Plan → Bool} {f : Plan → Plan}
    (h : t'.plans = updateWhere p f t.plans)
    (keeps : ∀ q, (f q).id = q.id ∧ (f q).teamId = q.teamId ∧ (f q).day = q.day)
    (r : Plan) (hr : r ∈ t'.plans) :
    ∃ q ∈ t.plans, r.id = q.id ∧ r.teamId = q.teamId ∧ r.day = q.day := by
  obtain ⟨q, hq, rfl⟩ := mem_updateWhere.mp (h ▸ hr)
  refine ⟨q, hq, ?_⟩
  split
  · exact keeps q
  · exact ⟨rfl, rfl, rfl⟩

/-- An update of figures leaves every slot where it is. -/
theorem slot_of_updateWhere {p : Slot → Bool} {f : Slot → Slot}
    (h : t'.slots = updateWhere p f t.slots)
    (keeps : ∀ s, (f s).id = s.id ∧ (f s).teamId = s.teamId ∧ (f s).window = s.window)
    (r : Slot) (hr : r ∈ t'.slots) :
    ∃ s ∈ t.slots, r.id = s.id ∧ r.teamId = s.teamId ∧ r.window = s.window := by
  obtain ⟨s, hs, rfl⟩ := mem_updateWhere.mp (h ▸ hr)
  refine ⟨s, hs, ?_⟩
  split
  · exact keeps s
  · exact ⟨rfl, rfl, rfl⟩

theorem OneEach.adjustBooking (h : t.OneEach) (slot : Slot) (delta : Int) :
    (t.adjustBooking slot delta).OneEach :=
  h.of_moves (plan_of_updateWhere rfl fun _ => ⟨rfl, rfl, rfl⟩)
    (slot_of_updateWhere rfl fun _ => ⟨rfl, rfl, rfl⟩)

theorem OneEach.giveBack (h : t.OneEach) (l : Lock) : (t.giveBack l).OneEach := by
  unfold Tables.giveBack
  split
  · exact h.adjustBooking _ _
  · exact h

end Tables

/-! ## Steps -/

theorem Calm.oneEach (h : Calm now t t') (one : t.OneEach) : t'.OneEach := by
  cases h with
  | roster grows => exact ⟨grows.plans ▸ one.plans, grows.slots ▸ one.slots⟩
  | @cancel jobId _ =>
    obtain ⟨f, -, frame⟩ := Tables.cancelled_frame jobId now t
    rw [frame]
    exact ⟨one.plans, one.slots⟩
  | @newPlan id teamId team z d _ other _ _ =>
    -- No plan before was of this team and day.
    have apart : ∀ p ∈ t.plans, p.teamId = teamId → p.day = d → False := by
      intro p hp sameTeam sameDay
      simpa [Tables.isPlanOf, sameTeam, sameDay] using other p hp
    refine ⟨fun p hp q hq sameTeam sameDay => ?_, one.slots⟩
    rcases List.mem_append.mp hp with oldP | newP <;> rcases List.mem_append.mp hq with oldQ | newQ
    · exact one.plans p oldP q oldQ sameTeam sameDay
    · obtain rfl := List.mem_singleton.mp newQ
      exact (apart p oldP sameTeam sameDay).elim
    · obtain rfl := List.mem_singleton.mp newP
      exact (apart q oldQ sameTeam.symm sameDay.symm).elim
    · rw [List.mem_singleton.mp newP, List.mem_singleton.mp newQ]
  | resizePlan =>
    exact one.of_moves (Tables.plan_of_updateWhere rfl fun _ => ⟨rfl, rfl, rfl⟩)
      fun s hs => ⟨s, hs, rfl, rfl, rfl⟩
  | @newSlot slot plan team z _ other _ _ _ _ _ _ =>
    have apart : ∀ s ∈ t.slots, s.teamId = slot.teamId → s.window = slot.window.wholeSeconds →
        False := by
      intro s hs sameTeam sameWindow
      simpa [Tables.isSlotAt, sameTeam, sameWindow] using other s hs
    refine ⟨one.plans, fun r hr s hs sameTeam sameWindow => ?_⟩
    rcases List.mem_append.mp hr with oldR | newR <;> rcases List.mem_append.mp hs with oldS | newS
    · exact one.slots r oldR s oldS sameTeam sameWindow
    · obtain rfl := List.mem_singleton.mp newS
      exact (apart r oldR sameTeam sameWindow).elim
    · obtain rfl := List.mem_singleton.mp newR
      exact (apart s oldS sameTeam.symm sameWindow.symm).elim
    · rw [List.mem_singleton.mp newR, List.mem_singleton.mp newS]
  | resizeSlot =>
    exact one.of_moves (fun p hp => ⟨p, hp, rfl, rfl, rfl⟩)
      (Tables.slot_of_updateWhere rfl fun _ => ⟨rfl, rfl, rfl⟩)
  | @release l reason _ _ =>
    rw [Tables.released_frame]
    exact ⟨(one.giveBack l).plans, (one.giveBack l).slots⟩
  | _ => exact ⟨one.plans, one.slots⟩

/-- Every step leaves a team one plan for a day and one slot for a window. -/
theorem Step.oneEach {p q : Tables × List String} (h : Step now p q) (one : p.1.OneEach) :
    q.1.OneEach := by
  cases h with
  | ebb h =>
    cases h with
    | calm h => exact h.oneEach one
    | settle => exact ⟨one.plans, one.slots⟩
  | @holdTeam t _ l _ slot _ =>
    have same : { t with locks := t.locks ++ [l.stored] }.OneEach := ⟨one.plans, one.slots⟩
    exact same.adjustBooking slot l.count

theorem Calms.oneEach (h : Calms now t t') (one : t.OneEach) : t'.OneEach := by
  induction h with
  | refl => exact one
  | tail _ step ih => exact step.oneEach ih

/-- **A team has one plan for a day and one slot for a window,** after every run. -/
theorem Run.oneEach {past : List (Engine × Operation)} {e : Engine} (run : Run past e) :
    e.store.tables.OneEach :=
  (run.holds (I := fun p => p.1.OneEach) .empty fun _ _ _ _ h step => step.oneEach h).2

/-! ## Bookings by day and by window -/

namespace Tables

/-- The units booked on a team's day; none before there is a plan. -/
def bookedOnDay (t : Tables) (teamId : String) (d : Day) : Nat :=
  ((t.planOn? teamId d).map (·.booked)).getD 0

/-- The units booked in a team's window; none before there is a slot. -/
def bookedAt (t : Tables) (teamId : String) (w : Window) : Nat :=
  ((t.slotAt? teamId w).map (·.booked)).getD 0

theorem isPlanOf_iff {p : Plan} : isPlanOf teamId d p = true ↔ p.teamId = teamId ∧ p.day = d := by
  simp [isPlanOf]

theorem isSlotAt_iff {s : Slot} :
    isSlotAt teamId w s = true ↔ s.teamId = teamId ∧ s.window = w.wholeSeconds := by
  simp [isSlotAt]

/-- The plan that is found for a day is the only one of that day. -/
theorem planOn?_eq_some (keyed : t.LedgerKeyed) (one : t.OneEach) {p : Plan} :
    t.planOn? teamId d = some p ↔ p ∈ t.plans ∧ p.teamId = teamId ∧ p.day = d := by
  constructor
  · intro found
    exact ⟨List.mem_of_find?_eq_some found, isPlanOf_iff.mp (List.find?_some found)⟩
  · rintro ⟨hp, rfl, rfl⟩
    obtain ⟨q, found⟩ : ∃ q, t.planOn? p.teamId p.day = some q :=
      Option.isSome_iff_exists.mp (List.find?_isSome.mpr ⟨p, hp, isPlanOf_iff.mpr ⟨rfl, rfl⟩⟩)
    obtain ⟨sameTeam, sameDay⟩ := isPlanOf_iff.mp (List.find?_some found)
    have hq := List.mem_of_find?_eq_some found
    rw [found, List.inj_on_of_nodup_map keyed.plans hq hp (one.plans q hq p hp sameTeam sameDay)]

/-- The slot that is found for a window is the only one of that window. -/
theorem slotAt?_eq_some (keyed : t.LedgerKeyed) (one : t.OneEach) {s : Slot} :
    t.slotAt? teamId w = some s ↔
      s ∈ t.slots ∧ s.teamId = teamId ∧ s.window = w.wholeSeconds := by
  constructor
  · intro found
    exact ⟨List.mem_of_find?_eq_some found, isSlotAt_iff.mp (List.find?_some found)⟩
  · rintro ⟨hs, rfl, window⟩
    obtain ⟨r, found⟩ : ∃ r, t.slotAt? s.teamId w = some r :=
      Option.isSome_iff_exists.mp (List.find?_isSome.mpr ⟨s, hs, isSlotAt_iff.mpr ⟨rfl, window⟩⟩)
    obtain ⟨sameTeam, sameWindow⟩ := isSlotAt_iff.mp (List.find?_some found)
    have hr := List.mem_of_find?_eq_some found
    rw [found, List.inj_on_of_nodup_map keyed.slots hr hs
      (one.slots r hr s hs sameTeam (sameWindow.trans window.symm))]

/-- A slot stands on the plan of its team and day. -/
theorem plan?_of_slot {s : Slot} {plan : Plan} {team : Team} {z : Zone} (keyed : t.LedgerKeyed)
    (one : t.OneEach) (onDay : t.SlotsOnDay) (hs : s ∈ t.slots)
    (known : t.team? s.teamId = some team) (zone : team.zone = .ok z)
    (found : t.planOn? s.teamId (z.dayAt s.start) = some plan) :
    t.plan? s.planId = some plan := by
  obtain ⟨p, onPlan, planTeam, team', z', known', zone', day⟩ := onDay s hs
  obtain rfl : team' = team := Option.some.inj (known'.symm.trans known)
  obtain rfl : z' = z := Option.some.inj (zone'.symm.trans (Team.zone_eq_ok.mp zone))
  have ofDay : t.planOn? s.teamId (z'.dayAt s.start) = some p :=
    (planOn?_eq_some keyed one).mpr ⟨List.mem_of_find?_eq_some onPlan, planTeam, day⟩
  rw [onPlan, Option.some.inj (ofDay.symm.trans found)]

end Tables

/-! ## A window brought up to date -/

variable {s s' : Store}

/-- Setting the capacity of a day leaves its bookings as they were; a new plan has none. -/
theorem Store.upsertPlan_figures {capacity : Nat} {plan : Plan}
    (h : upsertPlan teamId d capacity s = .ok plan s') :
    s'.tables.planOn? teamId d = some plan ∧ plan.capacity = capacity ∧
      plan.booked = s.tables.bookedOnDay teamId d ∧ s'.tables.slots = s.tables.slots := by
  unfold upsertPlan at h
  simp only [bind_eq_ok, Work.found_eq_ok, Work.run_eq_ok] at h
  obtain ⟨id, s₁, drawn, _, _, ⟨t, done, rfl⟩, row, _, read, rfl, rfl⟩ := h
  obtain ⟨found, -, rfl⟩ := Work.readRow_eq_ok.mp read
  obtain ⟨tables₁, -⟩ := Work.draw_eq_ok drawn
  rw [tables₁] at done
  refine ⟨found.symm, ?_⟩
  unfold Tables.bookedOnDay
  obtain ⟨-, ⟨-, rfl⟩ | ⟨other, -, rfl⟩⟩ := Tables.upsertPlan_ok_cases done
  · -- The plan that is found is the updated one of those before.
    have updated : some plan = (s.tables.planOn? teamId d).map fun p => { p with capacity } := by
      refine found.trans ?_
      show List.find? _ (updateWhere _ _ _) = _
      unfold updateWhere Tables.planOn?
      rw [List.find?_map]
      have same : (Tables.isPlanOf teamId d ∘ fun p : Plan =>
          if Tables.isPlanOf teamId d p = true then { p with capacity } else p)
            = Tables.isPlanOf teamId d := by
        funext p
        rw [Function.comp_apply]
        split <;> rfl
      rw [same]
      refine Option.map_congr fun p hp => ?_
      rw [if_pos (List.find?_some hp)]
    obtain ⟨p, was, rfl⟩ := Option.map_eq_some_iff.mp updated.symm
    rw [was]
    exact ⟨rfl, rfl, rfl⟩
  · have was : s.tables.planOn? teamId d = none :=
      List.find?_eq_none.mpr fun p hp => Bool.eq_false_iff.mp (other p hp)
    have new : some plan = some ⟨id, teamId, d, capacity, 0⟩ := by
      refine found.trans ?_
      show List.find? _ (s.tables.plans ++ _) = _
      rw [List.find?_append, List.find?_eq_none.mpr fun p hp => Bool.eq_false_iff.mp (other p hp)]
      simp [Tables.isPlanOf]
    rw [was, Option.some.inj new]
    exact ⟨rfl, rfl, rfl⟩

/-- **A window brought up to date:** its slot and the plan of its day have the capacities that the
members' hours give, and the bookings that they had. -/
theorem Ledger.ensureSlotJoined_figures {slot : Slot} (keyed : s.tables.Keyed)
    (onDay : s.tables.SlotsOnDay) (one : s.tables.OneEach) (whole : w.wholeSeconds = w)
    (h : ensureSlotJoined teamId w.start w.stop s = .ok slot s') :
    ∃ team z plan, s.tables.team? teamId = some team ∧ team.zone = .ok z ∧
      s'.tables.slotAt? teamId w = some slot ∧
      s'.tables.planOn? teamId (z.dayAt w.start) = some plan ∧
      s'.tables.plan? slot.planId = some plan ∧
      slot.capacity = team.windowCapacity (team.profiles s.tables) w z ∧
      slot.booked = s.tables.bookedAt teamId w ∧
      plan.capacity = team.dailyCapacity (team.profiles s.tables) (z.dayAt w.start) z ∧
      plan.booked = s.tables.bookedOnDay teamId (z.dayAt w.start) := by
  obtain ⟨calms, -, moves, ofTeam, -⟩ := ensureSlotJoined_ok_cases 0 h
  have hs := (ensureSlotJoined_onPlan keyed onDay whole h).1
  have keyed' := (calms.keyed keyed).toLedgerKeyed
  have one' := calms.oneEach one
  unfold ensureSlotJoined at h
  simp only [bind_eq_ok, Work.ofExcept_eq_ok, Work.demand_eq_ok, Work.ask_eq_ok] at h
  obtain ⟨w', _, ⟨checked, rfl⟩, team, _, ⟨known, rfl⟩, z, _, ⟨zone, rfl⟩, _, s, ⟨rfl, rfl⟩, plan,
    s₁, upserted, found, s₂, read, h⟩ := h
  obtain rfl : w' = w := (Window.checked_eq_ok.mp checked).2
  obtain ⟨planFound, planCapacity, planBooked, sameSlots⟩ := Store.upsertPlan_figures upserted
  obtain ⟨was, -, rfl⟩ := Work.readRow_eq_ok.mp read
  -- What comes after leaves the plans alone.
  obtain ⟨window, capacity, booked, samePlans⟩ : slot.window = w' ∧
      slot.capacity = team.windowCapacity (team.profiles s.tables) w' z ∧
      slot.booked = s.tables.bookedAt teamId w' ∧ s'.tables.plans = s₂.tables.plans := by
    have was' : s.tables.slotAt? teamId w' = found := by
      unfold Tables.slotAt? at was ⊢
      rw [was, sameSlots]
    unfold Tables.bookedAt
    rw [was']
    cases found with
    | some r =>
      simp only [bind_eq_ok, Work.write_eq_ok, pure_eq_ok] at h
      obtain ⟨_, _, rfl, rfl, rfl⟩ := h
      obtain ⟨-, window⟩ := Tables.isSlotAt_iff.mp (List.find?_some was.symm)
      exact ⟨window.trans whole, rfl, rfl, rfl⟩
    | none =>
      simp only [bind_eq_ok, Work.run_eq_ok, pure_eq_ok] at h
      obtain ⟨id, s₂, drawn, _, _, ⟨t, done, rfl⟩, rfl, rfl⟩ := h
      obtain ⟨tables₂, -⟩ := Work.draw_eq_ok drawn
      rw [tables₂] at done
      obtain ⟨-, -, -, -, rfl⟩ := Tables.insertSlot_eq_ok.mp done
      exact ⟨rfl, rfl, rfl, rfl⟩
  have planFound' : s'.tables.planOn? teamId (z.dayAt w'.start) = some plan := by
    unfold Tables.planOn? at planFound ⊢
    rw [samePlans, planFound]
  refine ⟨team, z, plan, known, zone, ?_, planFound', ?_, capacity, booked, planCapacity,
    planBooked⟩
  · exact (Tables.slotAt?_eq_some keyed' one').mpr ⟨hs, ofTeam, window.trans whole.symm⟩
  · have starts : slot.start = w'.start := congrArg Window.start window
    have onDay' : s'.tables.SlotsOnDay := calms.slotsOnDay keyed onDay
    exact Tables.plan?_of_slot keyed' one' onDay' hs
      ((moves.team? _).trans (ofTeam ▸ known)) zone (by rw [ofTeam, starts, planFound'])

end Staffing
