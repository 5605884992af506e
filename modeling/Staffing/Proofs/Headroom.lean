import Staffing.Proofs.Bookings
import Staffing.Proofs.Capacity

/-!
# Team locks never overbook

A lock on a team brings the slot of the job's window up to date and then books what is asked for, or
what slot and day have left, or is refused. The ceiling of the day is read as the greater of the
plan's capacity and the slot's. That is the plan's: a slot has at most the capacity of its day.

* `Locks.createOnTeam_refuses`, `Locks.createOnTeam_books` — the transaction either way
* `team_locks_never_overbook` — what making locks on a team does in every state that a run reaches
-/

namespace Staffing

/-- Only the lock has come, and only its slot and plan have changed: they have booked its units and
stay within their capacities, and so do the live units of the slot. -/
structure Tables.Books (t t' : Tables) (slot : Slot) (plan : Plan) (l : Lock) : Prop where
  locks : t'.locks = t.locks ++ [l.stored]
  slotRises : t'.slot? slot.id = some { slot with booked := slot.booked + l.count }
  planRises : t'.plan? plan.id = some { plan with booked := plan.booked + l.count }
  slotFits : slot.booked + l.count ≤ slot.capacity
  planFits : plan.booked + l.count ≤ plan.capacity
  liveFits : t'.liveUnits slot.id ≤ slot.capacity

/-! ## The transaction -/

namespace Locks

variable {now : Instant} {s s' s₁ : Store} {j : Job} {teamId : String} {units : Option Nat}
  {expiresAt : Instant} {slot : Slot} {plan : Plan}

/-- What is left of a slot with at most the capacity of its day. -/
theorem headroom_eq (h : slot.capacity ≤ plan.capacity) : headroom slot plan =
    min ((slot.capacity : Int) - slot.booked) ((plan.capacity : Int) - plan.booked) := by
  unfold headroom Slot.headroom
  rw [Nat.max_eq_left h]

/-- When nothing is left the lock is refused. -/
theorem createOnTeam_refuses
    (range : 1 ≤ units.getD j.requiredMembers ∧ units.getD j.requiredMembers ≤ 20)
    (ensured : Ledger.ensureSlotJoined teamId j.start j.stop s = .ok slot s₁)
    (read : Store.plan? slot.planId s₁ = .ok (some plan) s₁) (full : headroom slot plan ≤ 0) :
    createOnTeam j teamId units expiresAt now s
      = .error (.conflict (.capacityExceeded slot.id (headroom slot plan))) s₁ := by
  unfold createOnTeam checkHeadcount
  rw [if_pos range]
  show (Ledger.ensureSlotJoined teamId j.start j.stop >>= _) s = _
  rw [bind_of_ok ensured, bind_of_ok read]
  show (if headroom slot plan ≤ 0 then _ else _ : Work (List Lock)) s₁ = _
  rw [if_pos full]
  rfl

/-- When something is left the lock is made and books it, or what is asked for. -/
theorem createOnTeam_books (expiresAt now : Instant)
    (range : 1 ≤ units.getD j.requiredMembers ∧ units.getD j.requiredMembers ≤ 20)
    (ensured : Ledger.ensureSlotJoined teamId j.start j.stop s = .ok slot s₁)
    (read : Store.plan? slot.planId s₁ = .ok (some plan) s₁) (left : 0 < headroom slot plan)
    (known : s₁.tables.hasJob j.id = true) (hs : slot ∈ s₁.tables.slots) :
    ∃ (l : Lock) (s' : Store), createOnTeam j teamId units expiresAt now s = .ok [l] s' ∧
      l.jobId = j.id ∧ l.target = .team teamId slot.id ∧ l.status = .held ∧
      (l.count : Int) = min (units.getD j.requiredMembers : Int) (headroom slot plan) ∧
      s'.tables = { s₁.tables with locks := s₁.tables.locks ++ [l.stored] }.adjustBooking slot
        l.count := by
  obtain ⟨id, s₂, drawn, tables, -, fresh⟩ := Work.draw_apply .lock s₁
  let count := min (units.getD j.requiredMembers) (headroom slot plan).toNat
  let l := Locks.fresh id j.id (.team teamId slot.id) count expiresAt now
  have inserted : s₂.tables.insertLock l
      = .ok { s₁.tables with locks := s₁.tables.locks ++ [l.stored] } := by
    rw [tables]
    refine Tables.insertLock_eq_ok.mpr ⟨?_, known, ?_, ?_, rfl⟩
    · exact fun k hk same => fresh (List.mem_map.mpr ⟨k, hk, same⟩)
    · show min _ _ ≠ 0
      omega
    · intro slotId same
      exact ⟨slot, hs, Option.some.inj same⟩
  refine ⟨l, { s₂ with
    tables := { s₁.tables with locks := s₁.tables.locks ++ [l.stored] }.adjustBooking slot count },
    ?_, rfl, rfl, rfl, ?_, rfl⟩
  · unfold createOnTeam
    simp only [bind_eq_ok, Work.ofExcept_eq_ok, Work.found_eq_ok, Work.guard_eq_ok, Work.run_eq_ok,
      Work.write_eq_ok, pure_eq_ok]
    exact ⟨(), s, ⟨Engine.checkHeadcount_eq_ok.mpr range, rfl⟩, slot, s₁, ensured, some plan, s₁,
      read, plan, s₁, ⟨rfl, rfl⟩, by omega, id, s₂, drawn, (), _, ⟨_, inserted, rfl⟩, (), _, rfl,
      rfl, rfl⟩
  · show ((min _ _ : Nat) : Int) = _
    omega

/-- An operational actor's request comes to one transaction, which `w` is when it begins. -/
theorem create_eq {config : LockConfig} {actor : Actor} {jobId : String} {ttl : Option Int}
    {target : LockRequestTarget} {w : Work (List Lock)} (operational : actor.isOperational = true)
    (joined : ∀ s₁ : Store, s₁.tables = s.tables →
      createJoined jobId target (now + config.ttl ttl * Instant.minute) now s₁ = w s₁) :
    create config actor jobId ⟨target, ttl⟩ now s = Work.atomic w s := by
  have allowed : actor.requireOperational "create locks" = .ok () :=
    Engine.requireOperational_eq_ok.mpr operational
  unfold create
  rw [allowed]
  show Work.atomic (createJoined _ _ _ _) s = _
  unfold Work.atomic
  rw [joined s rfl, joined s.begin rfl]

/-- A request for a lock on a team comes to the transaction above. -/
theorem create_team {config : LockConfig} {actor : Actor} {jobId : String} {ttl : Option Int}
    (operational : actor.isOperational = true) (known : s.tables.job? jobId = some j)
    (waits : j.isClosed = false) :
    create config actor jobId ⟨.team teamId units, ttl⟩ now s
      = Work.atomic
        (createOnTeam j teamId units (now + config.ttl ttl * Instant.minute) now) s := by
  refine create_eq operational fun s₁ same => ?_
  have found : Work.demand .job jobId (Tables.job? · jobId) s₁ = .ok j s₁ :=
    Work.demand_eq_ok.mpr ⟨same ▸ known, rfl⟩
  unfold createJoined
  rw [bind_of_ok found, waits]
  rfl

end Locks

/-! ## The call -/

namespace Engine

variable {e : Engine} {actor : Actor} {jobId : String} {request : LockRequest}

theorem createLocks_of_error {fault : Fault} {s : Store}
    (h : Locks.create e.config.locks actor jobId request e.now e.store = .error fault s) :
    createLocks actor jobId request e = .error fault { e with store := s } := by
  unfold createLocks
  rw [bind_of_ok (get_apply e), bind_of_error (onStore_of_error h)]

/-- What comes after the transaction changes the log alone. -/
theorem createLocks_of_ok {locks : List Lock} {s : Store} {t : Tables} (same : s.tables = t)
    (h : Locks.create e.config.locks actor jobId request e.now e.store = .ok locks s) :
    ∃ e', createLocks actor jobId request e = .ok locks e' ∧
      ∃ log, e'.store.tables = { t with log } := by
  let events : List Event := [.locksCreated jobId (locks.map (·.id)) (Lock.units locks)]
  refine ⟨after (dispatch e.now events) { e with store := s }, ?_, dispatch_frame e.now events same⟩
  unfold createLocks
  rw [bind_of_ok (get_apply e), bind_of_ok (onStore_of_ok h),
    bind_of_ok (dispatch_apply e.now events _)]
  rfl

end Engine

/-! ## What is booked -/

namespace Tables

variable {t : Tables} {slot : Slot} {plan : Plan} {count : Nat}

/-- A booking of what is left shows in the slot and in its plan. -/
theorem found_adjustBooking (keyed : t.LedgerKeyed) (fits : t.Fits) (hs : slot ∈ t.slots)
    (found : t.plan? slot.planId = some plan) (slotFits : slot.booked + count ≤ slot.capacity)
    (planFits : plan.booked + count ≤ plan.capacity) :
    (t.adjustBooking slot count).slot? slot.id
        = some { slot with booked := slot.booked + count } ∧
      (t.adjustBooking slot count).plan? plan.id
        = some { plan with booked := plan.booked + count } := by
  obtain ⟨hp, onPlan⟩ := (plan?_eq_some keyed).mp found
  have slotMoved : moved slot.booked count = slot.booked + count :=
    moved_add (Nat.lt_of_le_of_lt slotFits (fits.slots slot hs).1)
  have planMoved : moved plan.booked count = plan.booked + count :=
    moved_add (Nat.lt_of_le_of_lt planFits (fits.plans plan hp).1)
  constructor
  · have : t.slots.find? (·.id == slot.id) = some slot := (slot?_eq_some keyed).mpr ⟨hs, rfl⟩
    refine (find?_updateWhere ?_ _).trans ?_
    · exact fun _ => rfl
    · rw [this, Option.map_some, if_pos (beq_self_eq_true _), slotMoved]
  · have : t.plans.find? (·.id == plan.id) = some plan := (plan?_eq_some keyed).mpr ⟨hp, rfl⟩
    refine (find?_updateWhere ?_ _).trans ?_
    · exact fun _ => rfl
    · rw [this, Option.map_some, if_pos (by simp [onPlan]), planMoved]

end Tables

/-! ## Runs -/

theorem Run.orderly {past : List (Engine × Operation)} {e : Engine} (run : Run past e) :
    e.store.tables.Orderly :=
  (run.holds (I := fun p => p.1.Orderly) .empty fun _ _ _ _ h step => step.orderly h).2

/-- In a state that a run reaches, the slot of a stored job's window can be brought up to date for a
stored team, and stands on the plan of its day with at most the plan's capacity. -/
theorem Run.ensureSlot_succeeds {past : List (Engine × Operation)} {e : Engine} (run : Run past e)
    {j : Job} {teamId : String} (known : e.store.tables.job? j.id = some j)
    (stored : e.store.tables.hasTeam teamId = true) :
    ∃ slot plan s, Ledger.ensureSlotJoined teamId j.start j.stop e.store.begin = .ok slot s ∧
      slot ∈ s.tables.slots ∧ Store.plan? slot.planId s = .ok (some plan) s ∧
      slot.capacity ≤ plan.capacity ∧ s.tables.LedgerKeyed ∧ s.tables.Fits ∧
      e.store.tables.LedgerMoves s.tables := by
  obtain ⟨lasts, whole⟩ := run.orderly.jobs j (mem_of_find?_key known).1
  obtain ⟨team, hteam⟩ : ∃ team, e.store.tables.team? teamId = some team :=
    Option.isSome_iff_exists.mp (find?_key_isSome.mpr (any_key.mp stored))
  obtain ⟨z, zone⟩ := Option.isSome_iff_exists.mp
    (run.orderly.teams team (List.mem_of_find?_eq_some hteam))
  obtain ⟨slot, s, ensured⟩ := Ledger.ensureSlotJoined_succeeds (s := e.store.begin) run.sound.fits
    lasts hteam (Team.zone_eq_ok.mpr zone)
  obtain ⟨calms, -, moves, -⟩ := Ledger.ensureSlotJoined_ok_cases e.now ensured
  obtain ⟨hs, plan, onPlan, atMost⟩ := Ledger.ensureSlotJoined_onPlan (s := e.store.begin)
    run.ready.keyed run.sound.onDay whole ensured
  have fits := (calms.sinks run.sound.fits).2
  refine ⟨slot, plan, s, ensured, hs, ?_, atMost, (calms.keyed run.ready.keyed).toLedgerKeyed, fits,
    moves⟩
  exact Work.readRow_eq_ok.mpr ⟨onPlan.symm, fun r hr =>
    fits.plan_isReadable (List.mem_of_find?_eq_some hr), rfl⟩

/-- A request for a lock on a team whose slot and plan are up to date is refused, and nothing is
stored, or it books in one lock what is asked for and left. -/
theorem Run.createLocks_team {past : List (Engine × Operation)} {e : Engine} (run : Run past e)
    {actor : Actor} {j : Job} {teamId : String} {units : Option Nat} (ttl : Option Int)
    {slot : Slot} {plan : Plan} {s : Store} (operational : actor.isOperational = true)
    (known : e.store.tables.job? j.id = some j) (waits : j.isClosed = false)
    (range : 1 ≤ units.getD j.requiredMembers ∧ units.getD j.requiredMembers ≤ 20)
    (ensured : Ledger.ensureSlotJoined teamId j.start j.stop e.store.begin = .ok slot s)
    (hs : slot ∈ s.tables.slots) (read : Store.plan? slot.planId s = .ok (some plan) s)
    (moves : e.store.tables.LedgerMoves s.tables) :
    (Locks.headroom slot plan ≤ 0 →
      ∃ e', Engine.createLocks actor j.id ⟨.team teamId units, ttl⟩ e
          = .error (.conflict (.capacityExceeded slot.id (Locks.headroom slot plan))) e' ∧
        e'.store.tables = e.store.tables) ∧
      (0 < Locks.headroom slot plan → ∃ l e' log,
        Engine.createLocks actor j.id ⟨.team teamId units, ttl⟩ e = .ok [l] e' ∧
        l.jobId = j.id ∧ l.target = .team teamId slot.id ∧ l.status = .held ∧
        (l.count : Int) = min (units.getD j.requiredMembers : Int) (Locks.headroom slot plan) ∧
        e'.store.tables = {
          { s.tables with locks := s.tables.locks ++ [l.stored] }.adjustBooking slot l.count with
          log }) := by
  obtain ⟨hj, -⟩ := mem_of_find?_key known
  refine ⟨fun full => ?_, fun left => ?_⟩
  · have made : Locks.create e.config.locks actor j.id ⟨.team teamId units, ttl⟩ e.now e.store
        = .error (.conflict (.capacityExceeded slot.id (Locks.headroom slot plan)))
          (s.rollbackTo e.store.tables) := by
      rw [Locks.create_team operational known waits]
      exact (Work.atomic_eq_error run.ready.idle).mpr
        ⟨s, Locks.createOnTeam_refuses range ensured read full, rfl⟩
    exact ⟨_, Engine.createLocks_of_error made, rfl⟩
  · have stands : s.tables.hasJob j.id = true := any_key.mpr ⟨j, moves.jobs ▸ hj, rfl⟩
    obtain ⟨l, s₂, books, ofJob, target, held, count, tables⟩ := Locks.createOnTeam_books
      (e.now + e.config.locks.ttl ttl * Instant.minute) e.now range ensured read left stands hs
    -- The transaction ran on the store as it begins one, which has the same tables.
    have made : Locks.create e.config.locks actor j.id ⟨.team teamId units, ttl⟩ e.now e.store
        = .ok [l] s₂.commit := by
      rw [Locks.create_team operational known waits]
      exact (Work.atomic_eq_ok run.ready.idle).mpr ⟨s₂, books, rfl⟩
    obtain ⟨e', done, log, frame⟩ := Engine.createLocks_of_ok (s := s₂.commit) tables made
    exact ⟨l, e', log, done, ofJob, target, held, count, frame⟩

/-- **Team locks never overbook.** For a job that is not over, a stored team and 1 to 20 units, the
slot of the job's window can be brought up to date. Let `h` be what it and its plan then have left,
the lesser of both. An operational actor who asks for a lock is refused when `h` is not positive,
and nothing is stored. Otherwise one lock comes, held, for what is asked for and left; the slot and
its plan book it and stay within their capacities.

No other operation and no sweep raises a booking, so a slot comes to be booked above its capacity
only by an operation that lowers the capacity. -/
theorem team_locks_never_overbook {past : List (Engine × Operation)} {e : Engine}
    (run : Run past e) :
    (∀ (actor : Actor) (jobId : String) (j : Job) (teamId : String) (units : Option Nat)
        (ttl : Option Int), actor.isOperational = true → e.store.tables.job? jobId = some j →
      j.isClosed = false → e.store.tables.hasTeam teamId = true →
      1 ≤ units.getD j.requiredMembers → units.getD j.requiredMembers ≤ 20 →
      ∃ slot plan s, ∃ h : Int, Ledger.ensureSlot teamId j.start j.stop e.store = .ok slot s ∧
        s.tables.slot? slot.id = some slot ∧ s.tables.plan? slot.planId = some plan ∧
        h = min ((slot.capacity : Int) - slot.booked) ((plan.capacity : Int) - plan.booked) ∧
        (h ≤ 0 → ∃ e', Engine.createLocks actor jobId ⟨.team teamId units, ttl⟩ e
            = .error (.conflict (.capacityExceeded slot.id h)) e' ∧
          e'.store.tables = e.store.tables) ∧
        (0 < h → ∃ l e', Engine.createLocks actor jobId ⟨.team teamId units, ttl⟩ e
            = .ok [l] e' ∧
          l.jobId = jobId ∧ l.target = .team teamId slot.id ∧ l.status = .held ∧
          (l.count : Int) = min (units.getD j.requiredMembers : Int) h ∧
          e.store.tables.Books e'.store.tables slot plan l)) ∧
      (∀ op : Operation, op.IsAdmissible → ¬ op.BooksTeam →
        e.store.tables.Sinks (op.after e).store.tables) ∧
      (∀ (kind : Sweep.Kind) (config : SweepConfig) (now : Instant),
        e.store.tables.Sinks (after ((kind.sweep config).run now) e).store.tables) ∧
      ∀ op : Operation, op.IsAdmissible → ∀ r ∈ (op.after e).store.tables.slots,
        r.capacity < r.booked → ∃ s ∈ e.store.tables.slots, s.id = r.id ∧
          (s.capacity < s.booked ∨ r.capacity < s.capacity) := by
  refine ⟨?_, fun op admissible still => op.sinks run admissible still,
    fun kind config now => kind.sinks run config now,
    fun op admissible r hr above => op.over_cases run admissible hr above⟩
  intro actor jobId j teamId units ttl operational known waits stored least most
  obtain ⟨hj, rfl⟩ := mem_of_find?_key known
  obtain ⟨slot, plan, s, ensured, hs, read, atMost, keyed, fits, moves⟩ :=
    run.ensureSlot_succeeds known stored
  have onPlan : s.tables.plan? slot.planId = some plan := (Work.readRow_eq_ok.mp read).1.symm
  obtain ⟨refused, granted⟩ :=
    run.createLocks_team ttl operational known waits ⟨least, most⟩ ensured hs read moves
  refine ⟨slot, plan, s.commit, Locks.headroom slot plan, ?_,
    (Tables.slot?_eq_some keyed).mpr ⟨hs, rfl⟩, onPlan, Locks.headroom_eq atMost, refused,
    fun left => ?_⟩
  · exact (Work.atomic_eq_ok run.ready.idle).mpr ⟨s, ensured, rfl⟩
  · obtain ⟨l, e', log, done, ofJob, target, held, count, frame⟩ := granted left
    refine ⟨l, e', done, ofJob, target, held, count, ?_⟩
    obtain ⟨slotFits, planFits⟩ :
        slot.booked + l.count ≤ slot.capacity ∧ plan.booked + l.count ≤ plan.capacity := by
      rw [Locks.headroom_eq atMost] at count left
      omega
    obtain ⟨slotRises, planRises⟩ :=
      Tables.found_adjustBooking keyed fits hs onPlan slotFits planFits
    have risen : e'.store.tables.slot? slot.id
        = some { slot with booked := slot.booked + l.count } := by
      rw [frame]
      exact slotRises
    refine ⟨?_, risen, ?_, slotFits, planFits, ?_⟩
    · rw [frame]
      show s.tables.locks ++ [l.stored] = _
      rw [moves.locks]
    · rw [frame]
      exact planRises
    · -- The ledger is conserved after the call, too.
      let op := Operation.createLocks actor j.id ⟨.team teamId units, ttl⟩
      have after_op : op.after e = e' := after_of_ok done
      have sound' := (run.operation op trivial).sound
      rw [after_op] at sound'
      have := (sound'.balanced.conserves sound'.onDay).slots _ (List.mem_of_find?_eq_some risen)
      dsimp only at this
      omega

/-- One provider, a team of this one alone, and a job. -/
def Sample.oneJob : List Operation := [
  .insertProvider (provider "ada"), .createTeam admin (team ["ada"]), .createJob (job 9)]

/-- The capacity and the booking of its slot, brought up to date, and of the slot's plan. -/
def Sample.oneJobFigures (e : Engine) : Option (Nat × Nat × Option (Nat × Nat)) :=
  match Ledger.ensureSlot (idText "team" 0) (Instant.utc 2026 3 2 9 0) (Instant.utc 2026 3 2 11 0)
    e.store with
  | .ok slot s => some (slot.capacity, slot.booked,
      (s.tables.plan? slot.planId).map fun plan => (plan.capacity, plan.booked))
  | .error _ _ => none

/-- The team has one unit, so that is what a lock of three units comes to. -/
theorem team_locks_never_overbook_oneJob : ∃ past e l e', Run past e ∧
    Engine.createLocks Sample.admin (idText "job" 1) ⟨.team (idText "team" 0) (some 3), none⟩ e
      = .ok [l] e' ∧ l.count = 1 ∧
      ∃ slot plan, slot.capacity = 1 ∧ plan.capacity = 1 ∧
        e.store.tables.Books e'.store.tables slot plan l := by
  obtain ⟨e, left⟩ : ∃ e, e = Operation.afterAll Sample.oneJob Sample.engine := ⟨_, rfl⟩
  have run : Run (Operation.trace Sample.oneJob Sample.engine) e := left ▸
    Run.of_operations rfl rfl (fun _ _ _ => rfl) (by simp [Sample.oneJob, Operation.IsAdmissible])
  have asked : (e.store.tables.job? (idText "job" 1)).map (fun j => (j.isClosed, j.start, j.stop))
      = some (false, Instant.utc 2026 3 2 9 0, Instant.utc 2026 3 2 11 0) := by
    rw [left]
    decide +kernel
  have stored : e.store.tables.hasTeam (idText "team" 0) = true := by
    rw [left]
    decide +kernel
  have figures : Sample.oneJobFigures e = some (1, 0, some (1, 0)) := by
    rw [left]
    decide +kernel
  obtain ⟨j, known, same⟩ := Option.map_eq_some_iff.mp asked
  obtain ⟨waits, starts, stops⟩ : j.isClosed = false ∧ j.start = _ ∧ j.stop = _ := by
    simpa only [Prod.mk.injEq] using same
  obtain ⟨slot, plan, s, h, ensured, -, onPlan, left, -, books⟩ := (team_locks_never_overbook run).1
    Sample.admin (idText "job" 1) j (idText "team" 0) (some 3) none rfl known waits stored
    (show 1 ≤ 3 by decide) (show 3 ≤ 20 by decide)
  rw [starts, stops] at ensured
  unfold Sample.oneJobFigures at figures
  rw [ensured] at figures
  simp only [onPlan, Option.map_some, Option.some.injEq, Prod.mk.injEq] at figures
  obtain ⟨capacity, booked, planCapacity, planBooked⟩ := figures
  rw [capacity, booked, planCapacity, planBooked] at left
  obtain rfl : h = 1 := left
  obtain ⟨l, e', done, -, -, -, count, books⟩ := books (by decide)
  have one : (l.count : Int) = 1 := count
  exact ⟨_, e, l, e', run, done, by omega, slot, plan, capacity, planCapacity, books⟩

end Staffing
