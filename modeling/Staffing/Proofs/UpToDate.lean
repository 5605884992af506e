import Staffing.Proofs.SetPlans
import Staffing.Proofs.TeamPromotion

/-!
# Windows brought up to date

To bring a team's window up to date is to set the plan of the day on which it starts, and then its
slot on that plan. Either is changed if it is there and comes otherwise, so there is one of each
afterwards, and to do it again changes nothing.

* `Tables.SetsSlot` — what setting the slot of a window does
* `Ledger.ensureSlotJoined_sets` — the unit of work sets the plan and the slot
* `ensureSlot_recomputes` — a window is brought up to date, and nothing else is touched
-/

namespace Staffing

variable {t t' : Tables} {teamId : String} {team : Team} {z : Zone} {w : Window} {slot : Slot}
  {d : Day} {s s' : Store} {past : List (Engine × Operation)} {e : Engine}

/-- A slot in whole seconds is kept as it is. -/
theorem Slot.stored_of_whole (whole : slot.window.wholeSeconds = slot.window) :
    slot.stored = slot := by
  have starts : Instant.wholeSecond slot.start = slot.start := congrArg Window.start whole
  have stops : Instant.wholeSecond slot.stop = slot.stop := congrArg Window.stop whole
  unfold stored
  rw [starts, stops]

namespace Tables

/-! ## The slot that is set -/

/-- The slot of a team's window is set to a capacity and is `slot`. One that was there keeps its
bookings; otherwise it has come, with a new id. Nothing else has changed. -/
structure SetsSlot (t : Tables) (teamId : String) (w : Window) (slot : Slot) (t' : Tables) :
    Prop where
  booked : slot.booked = t.bookedAt teamId w
  fresh : t.slotAt? teamId w = none → ∀ r ∈ t.slots, r.id ≠ slot.id
  frame : t' = { t with
    slots := updateWhere (isSlotAt teamId w) (fun s => { s with capacity := slot.capacity }) t.slots
      ++ if (t.slotAt? teamId w).isNone then [slot] else [] }

/-- Setting a slot to the capacity that it has changes nothing. -/
theorem SetsSlot.eq_self (h : t.SetsSlot teamId w slot t') (known : (t.slotAt? teamId w).isSome)
    (keeps : ∀ s ∈ t.slots, isSlotAt teamId w s = true → s.capacity = slot.capacity) : t' = t := by
  rw [h.frame, Option.isNone_eq_false_iff.mpr known, if_neg Bool.false_ne_true, List.append_nil,
    updateWhere_eq_self_of_eq]
  intro s hs own
  rw [← keeps s hs own]

/-! ## The one plan and the one slot -/

theorem filter_isPlanOf {plan : Plan} (keyed : t.LedgerKeyed) (one : t.OneEach)
    (found : t.planOn? teamId d = some plan) : t.plans.filter (isPlanOf teamId d) = [plan] := by
  obtain ⟨hp, ofTeam, day⟩ := (planOn?_eq_some keyed one).mp found
  refine filter_eq_singleton keyed.plans hp (isPlanOf_iff.mpr ⟨ofTeam, day⟩) fun p hp' own => ?_
  obtain ⟨ofTeam', day'⟩ := isPlanOf_iff.mp own
  exact one.plans p hp' plan hp (ofTeam'.trans ofTeam.symm) (day'.trans day.symm)

theorem filter_isSlotAt (keyed : t.LedgerKeyed) (one : t.OneEach)
    (found : t.slotAt? teamId w = some slot) : t.slots.filter (isSlotAt teamId w) = [slot] := by
  obtain ⟨hs, ofTeam, window⟩ := (slotAt?_eq_some keyed one).mp found
  refine filter_eq_singleton keyed.slots hs (isSlotAt_iff.mpr ⟨ofTeam, window⟩) fun s hs' own => ?_
  obtain ⟨ofTeam', window'⟩ := isSlotAt_iff.mp own
  exact one.slots s hs' slot hs (ofTeam'.trans ofTeam.symm) (window'.trans window.symm)

end Tables

/-- Bringing a window up to date sets the plan of its day, and then its slot. -/
theorem Ledger.ensureSlotJoined_sets (keyed : s.tables.Keyed) (one : s.tables.OneEach)
    (whole : w.wholeSeconds = w) (known : s.tables.team? teamId = some team)
    (zone : team.zone = .ok z) (h : ensureSlotJoined teamId w.start w.stop s = .ok slot s') :
    ∃ plan, s.tables.SetsPlans teamId
        (fun d => team.dailyCapacity (team.profiles s.tables) d z) [z.dayAt w.start] [plan]
        { s.tables with plans := s'.tables.plans } ∧
      { s.tables with plans := s'.tables.plans }.SetsSlot teamId w slot s'.tables := by
  unfold ensureSlotJoined at h
  simp only [bind_eq_ok, Work.ofExcept_eq_ok, Work.demand_eq_ok, Work.ask_eq_ok] at h
  obtain ⟨w', _, ⟨checked, rfl⟩, team', _, ⟨known', rfl⟩, z', _, ⟨zone', rfl⟩, _, s, ⟨rfl, rfl⟩,
    plan, s₁, upserted, row, s₂, read, h⟩ := h
  obtain rfl : w' = w := (Window.checked_eq_ok.mp checked).2
  obtain rfl : team' = team := Option.some.inj (known'.symm.trans known)
  obtain rfl : z' = z := Except.ok.inj (zone'.symm.trans zone)
  obtain ⟨was, -, rfl⟩ := Work.readRow_eq_ok.mp read
  have sets : s.tables.SetsPlans teamId
      (fun d => team'.dailyCapacity (team'.profiles s.tables) d z') [z'.dayAt w'.start] [plan]
      s₂.tables := Store.upsertPlan_sets upserted
  have planned : s₂.tables = { s.tables with plans := s₂.tables.plans } := by
    rw [sets.plans_eq]
    exact sets.frame
  obtain ⟨calm, -⟩ := Store.upsertPlan_ok_cases 0 known zone upserted
  have one₂ := calm.oneEach one
  have keyed₂ := (calm.keyed keyed).toLedgerKeyed
  refine ⟨plan, ?_⟩
  cases row with
  | some r =>
    simp only [bind_eq_ok, Work.write_eq_ok, pure_eq_ok] at h
    obtain ⟨_, _, rfl, rfl, rfl⟩ := h
    -- The slot is written by its id, and it is the only one of its window.
    obtain ⟨hr, ofTeam, window⟩ := (Tables.slotAt?_eq_some keyed₂ one₂).mp was.symm
    show Tables.SetsPlans _ _ _ _ _ { s.tables with plans := s₂.tables.plans } ∧
      Tables.SetsSlot { s.tables with plans := s₂.tables.plans } _ _ _ _
    rw [← planned]
    refine ⟨sets, ?_, ?_, ?_⟩
    · unfold Tables.bookedAt
      rw [← was]
      rfl
    · exact fun none => absurd (was.trans none) (Option.some_ne_none r)
    · rw [← was, Option.isNone_some, if_neg Bool.false_ne_true, List.append_nil]
      refine congrArg (fun slots => { s₂.tables with slots })
        (updateWhere_congr (fun q hq => ?_) fun _ _ _ => rfl)
      rw [Bool.eq_iff_iff, beq_iff_eq, Tables.isSlotAt_iff]
      constructor
      · intro same
        obtain rfl := List.inj_on_of_nodup_map keyed₂.slots hq hr same
        exact ⟨ofTeam, window⟩
      · rintro ⟨ofTeam', window'⟩
        exact one₂.slots q hq r hr (ofTeam'.trans ofTeam.symm) (window'.trans window.symm)
  | none =>
    simp only [bind_eq_ok, Work.run_eq_ok, pure_eq_ok] at h
    obtain ⟨id, s₃, drawn, _, _, ⟨t, done, rfl⟩, rfl, rfl⟩ := h
    obtain ⟨tables₃, -⟩ := Work.draw_eq_ok drawn
    rw [tables₃] at done
    obtain ⟨fresh, other, -, -, rfl⟩ := Tables.insertSlot_eq_ok.mp done
    show Tables.SetsPlans _ _ _ _ _ { s.tables with plans := s₂.tables.plans } ∧
      Tables.SetsSlot { s.tables with plans := s₂.tables.plans } _ _ _ _
    rw [← planned]
    refine ⟨sets, ?_, fun _ => fresh, ?_⟩
    · unfold Tables.bookedAt
      rw [← was]
      rfl
    · let slot : Slot := ⟨id, teamId, plan.id, w'.start, w'.stop,
        team'.windowCapacity (team'.profiles s.tables) w' z', 0⟩
      have same : slot.stored = slot := Slot.stored_of_whole whole
      have alone : updateWhere (Tables.isSlotAt teamId w')
          (fun r => { r with capacity := slot.capacity }) s₂.tables.slots = s₂.tables.slots :=
        updateWhere_eq_self other
      rw [← was, Option.isNone_none, if_pos rfl]
      show ({ s₂.tables with slots := s₂.tables.slots ++ [slot.stored] } : Tables) = _
      rw [same, alone]

/-! ## The call -/

/-- In a state that a run reaches, a window of a known team is brought up to date. Its slot stands
on the plan of its day, and both have the capacities that the members' hours give. -/
theorem Run.ensureSlot_sets (run : Run past e) (known : e.store.tables.team? teamId = some team)
    (zone : team.zone = .ok z) (lasts : w.start < w.stop) (whole : w.wholeSeconds = w) :
    ∃ slot plan e', Engine.ensureSlot teamId w.start w.stop e = .ok slot e' ∧
      Run (past ++ [(e, .ensureSlot teamId w.start w.stop)]) e' ∧
      e' = { e with store := { e.store with
        tables := e'.store.tables, serial := e'.store.serial } } ∧
      e.store.tables.LedgerMoves e'.store.tables ∧
      e.store.tables.SetsPlans teamId
        (fun d => team.dailyCapacity (team.profiles e.store.tables) d z) [z.dayAt w.start] [plan]
        { e.store.tables with plans := e'.store.tables.plans } ∧
      { e.store.tables with plans := e'.store.tables.plans }.SetsSlot teamId w slot
        e'.store.tables ∧
      e'.store.tables.slotAt? teamId w = some slot ∧
      e'.store.tables.planOn? teamId (z.dayAt w.start) = some plan ∧ slot.planId = plan.id ∧
      slot.capacity = team.windowCapacity (team.profiles e.store.tables) w z := by
  obtain ⟨slot, s, ensured⟩ :=
    Ledger.ensureSlotJoined_succeeds (s := e.store.begin) run.sound.fits lasts known zone
  obtain ⟨calms, -, moves, -⟩ := Ledger.ensureSlotJoined_ok_cases e.now ensured
  obtain ⟨plan, sets, setsSlot⟩ :=
    Ledger.ensureSlotJoined_sets (s := e.store.begin) run.ready.keyed run.oneEach whole known zone
      ensured
  obtain ⟨team', z', plan', known', zone', atWindow, onDay, onPlan, capacity, -⟩ :=
    Ledger.ensureSlotJoined_figures (s := e.store.begin) run.ready.keyed run.sound.onDay
      run.oneEach whole ensured
  obtain rfl : team' = team := Option.some.inj (known'.symm.trans known)
  obtain rfl : z' = z := Except.ok.inj (zone'.symm.trans zone)
  -- The plan that was set is the one that is found.
  have found : s.tables.planOn? teamId (z'.dayAt w.start) = some plan :=
    (Tables.planOn?_eq_some (calms.keyed run.ready.keyed).toLedgerKeyed
      (calms.oneEach run.oneEach)).mpr
      ⟨sets.stored plan (List.mem_singleton_self plan),
        sets.ofTeam plan (List.mem_singleton_self plan), List.singleton_inj.mp sets.eachDay⟩
  obtain rfl : plan' = plan := Option.some.inj (onDay.symm.trans found)
  have done : Engine.ensureSlot teamId w.start w.stop e = .ok slot { e with store := s.commit } :=
    Engine.onStore_of_ok ((Work.atomic_eq_ok run.ready.idle).mpr ⟨s, ensured, rfl⟩)
  refine ⟨slot, plan', _, done, ?_, ?_, moves, sets, setsSlot, atWindow, onDay,
    (mem_of_find?_key onPlan).2.symm, capacity⟩
  · have left : (Operation.ensureSlot teamId w.start w.stop).after e = _ := after_of_ok done
    exact left ▸ run.operation (.ensureSlot teamId w.start w.stop) trivial
  · show { e with store := s.commit } = { e with store := ⟨s.tables, s.serial, e.store.saved⟩ }
    rw [run.ready.idle]
    rfl

/-- A window that is up to date is answered and left as it is. -/
theorem Run.ensureSlot_again {plan : Plan} (run : Run past e)
    (known : e.store.tables.team? teamId = some team) (zone : team.zone = .ok z)
    (lasts : w.start < w.stop) (whole : w.wholeSeconds = w)
    (atWindow : e.store.tables.slotAt? teamId w = some slot)
    (onDay : e.store.tables.planOn? teamId (z.dayAt w.start) = some plan)
    (sized : plan.capacity
      = team.dailyCapacity (team.profiles e.store.tables) (z.dayAt w.start) z)
    (capacity : slot.capacity = team.windowCapacity (team.profiles e.store.tables) w z) :
    ∃ e', Engine.ensureSlot teamId w.start w.stop e = .ok slot e' ∧
      e'.store.tables = e.store.tables := by
  obtain ⟨slot', plan', e', done, -, -, -, sets, setsSlot, atWindow', -, -, capacity'⟩ :=
    run.ensureSlot_sets known zone lasts whole
  have keyed := run.ready.keyed.toLedgerKeyed
  have alonePlan := Tables.filter_isPlanOf keyed run.oneEach onDay
  have samePlans := sets.eq_self ?planned ?plan
  case planned => simp [onDay]
  case plan =>
    intro p hp among
    rw [Tables.isPlanAmong_singleton] at among
    have only : p ∈ [plan] := alonePlan ▸ List.mem_filter.mpr ⟨hp, among⟩
    obtain ⟨-, day⟩ := Tables.isPlanOf_iff.mp (List.find?_some onDay)
    rw [List.mem_singleton.mp only, sized, day]
  rw [samePlans] at setsSlot
  have same := setsSlot.eq_self ?here ?slot
  case here => simp [atWindow]
  case slot =>
    intro s hs own
    have only : s ∈ [slot] :=
      Tables.filter_isSlotAt keyed run.oneEach atWindow ▸ List.mem_filter.mpr ⟨hs, own⟩
    rw [List.mem_singleton.mp only, capacity, capacity']
  rw [same] at atWindow'
  obtain rfl : slot' = slot := Option.some.inj (atWindow'.symm.trans atWindow)
  exact ⟨e', done, same⟩

/-- **To bring a window up to date computes two capacities anew and touches nothing else.** In every
state that a run reaches, and for every window of a stored team in whole seconds, there is one slot
of the window afterwards, which is answered, and one plan of the day on which the window starts, and
the slot stands on the plan. The plan has the capacity of the day. The slot has as many units as
active members cover the window, counted in 32 bits, but no more than the plan. Both have the
bookings that they had, and none if they are new. No other slot has changed, no other plan and no
other table, and to do it again answers the same slot and leaves the tables as they are. -/
theorem ensureSlot_recomputes (run : Run past e) (known : e.store.tables.team? teamId = some team)
    (lasts : w.start < w.stop) (whole : w.wholeSeconds = w) :
    ∃ z slot plan e', team.zone = .ok z ∧
      Engine.ensureSlot teamId w.start w.stop e = .ok slot e' ∧
      let t := e.store.tables
      let t' := e'.store.tables
      let d := z.dayAt w.start
      t'.slots.filter (Tables.isSlotAt teamId w) = [slot] ∧
      t'.plans.filter (Tables.isPlanOf teamId d) = [plan] ∧ slot.planId = plan.id ∧
      plan.capacity = team.dailyCapacity (team.profiles t) d z ∧
      slot.capacity = min ((team.counted t w).length % UInt32.size) plan.capacity ∧
      (team.members.length < UInt32.size →
        slot.capacity = min (team.counted t w).length plan.capacity) ∧
      slot.capacity ≤ plan.capacity ∧
      slot.booked = t.bookedAt teamId w ∧ plan.booked = t.bookedOnDay teamId d ∧
      t' = { t with
        plans := updateWhere (Tables.isPlanOf teamId d)
            (fun p => { p with capacity := plan.capacity }) t.plans
          ++ if (t.planOn? teamId d).isNone then [plan] else []
        slots := updateWhere (Tables.isSlotAt teamId w)
            (fun s => { s with capacity := slot.capacity }) t.slots
          ++ if (t.slotAt? teamId w).isNone then [slot] else [] } ∧
      e' = { e with store := { e.store with tables := t', serial := e'.store.serial } } ∧
      ∃ e'', Engine.ensureSlot teamId w.start w.stop e' = .ok slot e'' ∧ e''.store.tables = t' := by
  obtain ⟨z, named⟩ := Option.isSome_iff_exists.mp
    (run.orderly.teams team (List.mem_of_find?_eq_some known))
  have zone := Team.zone_eq_ok.mpr named
  obtain ⟨slot, plan, e', done, run', frame, moves, sets, setsSlot, atWindow, onDay, onPlan,
    capacity⟩ := run.ensureSlot_sets known zone lasts whole
  have day : plan.day = z.dayAt w.start := List.singleton_inj.mp sets.eachDay
  have sized : plan.capacity
      = team.dailyCapacity (team.profiles e.store.tables) (z.dayAt w.start) z :=
    day ▸ sets.sized plan (List.mem_singleton_self plan)
  have keyed' := run'.ready.keyed.toLedgerKeyed
  have alone := Tables.filter_isSlotAt keyed' run'.oneEach atWindow
  have alonePlan := Tables.filter_isPlanOf keyed' run'.oneEach onDay
  refine ⟨z, slot, plan, e', zone, done, alone, alonePlan, onPlan, sized, ?_, ?_, ?_,
    setsSlot.booked, ?_, ?_, frame, ?_⟩
  · rw [capacity, sized, Team.windowCapacity_eq]
  · intro few
    have counted : (team.counted e.store.tables w).length ≤ team.members.length := by
      simpa using (team.counted_sublist e.store.tables w).length_le
    rw [capacity, sized, Team.windowCapacity_eq, Nat.mod_eq_of_lt (Nat.lt_of_le_of_lt counted few)]
  · rw [capacity, sized]
    exact team.windowCapacity_le_dailyCapacity _ _ _
  · exact day ▸ sets.booked plan (List.mem_singleton_self plan)
  · have plans : e'.store.tables.plans = _ := sets.plans_eq_of_one
    rw [setsSlot.frame, plans]
    rfl
  · -- The members' hours are as before, so both have the capacities that they give.
    refine run'.ensureSlot_again ((moves.team? teamId).trans known) zone lasts whole atWindow onDay
      ?_ ?_
    · rw [moves.profiles]
      exact sized
    · rw [moves.profiles]
      exact capacity

namespace Sample

/-- A team of two is locked for a job, and then one of them is off. -/
def oneOff : List Operation := [
  .insertProvider (provider "ada"), .insertProvider (provider "bob"),
  .createTeam admin (Sample.team ["ada", "bob"]), .createJob (job 9),
  .createLocks admin (idText "job" 1) ⟨.team (idText "team" 0) none, none⟩,
  .addTimeOff "ada" nine]

end Sample

/-- The slot of the locked window then has one unit instead of two, and that is still booked. -/
theorem ensureSlot_recomputes_oneOff : ∃ past e slot e', Run past e ∧
    e.store.tables.slots.map (fun s => (s.capacity, s.booked)) = [(2, 1)] ∧
    Engine.ensureSlot (idText "team" 0) Sample.nine.start Sample.nine.stop e = .ok slot e' ∧
    slot.capacity = 1 ∧ slot.booked = 1 ∧
    e'.store.tables.slots.filter (Tables.isSlotAt (idText "team" 0) Sample.nine) = [slot] := by
  obtain ⟨e, left⟩ : ∃ e, e = Operation.afterAll Sample.oneOff Sample.engine := ⟨_, rfl⟩
  have run : Run (Operation.trace Sample.oneOff Sample.engine) e := left ▸
    Run.of_operations rfl rfl (fun _ _ _ => rfl) (by simp [Sample.oneOff, Operation.IsAdmissible])
  obtain ⟨before, ⟨team, known, counted, figure⟩, booked⟩ :
      e.store.tables.slots.map (fun s => (s.capacity, s.booked)) = [(2, 1)] ∧
      (∃ team ∈ e.store.tables.team? (idText "team" 0),
        team.counted e.store.tables Sample.nine = ["bob"] ∧
        (team.zone.toOption.map fun z => team.dailyCapacity (team.profiles e.store.tables)
          (z.dayAt Sample.nine.start) z) = some 1) ∧
      e.store.tables.bookedAt (idText "team" 0) Sample.nine = 1 := by
    rw [left]
    decide +kernel
  obtain ⟨z, slot, plan, e', zone, done, alone, -, -, sized, capacity, -, -, same, -⟩ :=
    ensureSlot_recomputes run known (by decide : Sample.nine.start < Sample.nine.stop) (by decide)
  rw [zone] at figure
  have daily : team.dailyCapacity _ _ _ = 1 := Option.some.inj figure
  refine ⟨_, e, slot, e', run, before, done, ?_, same.trans booked, alone⟩
  rw [capacity, counted, sized, daily]
  decide

end Staffing
