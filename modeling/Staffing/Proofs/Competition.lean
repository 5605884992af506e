import Staffing.Proofs.Headroom
import Staffing.Proofs.OneEach

/-!
# Requests that compete for a team

Several requests for locks on one team, for jobs with one window, made one after the other with
nothing else between. Each brings the window up to date and takes what it asks for or what is left.
So a request takes as much off what is left as it is granted. What a list of requests is granted
together depends on what was left before the first and on what they ask for, and not on their order.

* `TeamRequest`, `TeamRequest.answer`, `TeamRequest.granted` — a request and what comes of it
* `Run.createLocks_gains`, `Run.request` — what one request does to what is left
* `Run.requests`, `Run.request_after` — what several requests do, and one that comes after them
* `requests_share_headroom` — competing requests share what is left without loss or duplication
-/

namespace Staffing

/-! ## Requests -/

/-- A request for a lock on a team: when and by whom it is made, for which job, of how many units
and for how many minutes. -/
structure TeamRequest where
  now : Instant
  actor : Actor
  jobId : String
  units : Option Nat := none
  ttlMinutes : Option Int := none

namespace TeamRequest

/-- The call that a request is. -/
def call (teamId : String) (r : TeamRequest) : EngineWork (List Lock) :=
  Engine.createLocks r.actor r.jobId ⟨.team teamId r.units, r.ttlMinutes⟩

/-- What comes of a request. -/
def answer (teamId : String) (r : TeamRequest) (e : Engine) :
    EStateM.Result Fault Engine (List Lock) :=
  r.call teamId { e with now := r.now }

/-- The units that a request is granted. -/
def granted (teamId : String) (r : TeamRequest) (e : Engine) : Nat :=
  match r.answer teamId e with
  | .ok locks _ => Lock.units locks
  | .error _ _ => 0

/-- The engine that a request leaves. -/
def after (teamId : String) (r : TeamRequest) (e : Engine) : Engine :=
  Staffing.after (r.call teamId) { e with now := r.now }

/-- The engine that several requests leave, one after the other. -/
def afterAll (teamId : String) : List TeamRequest → Engine → Engine
  | [], e => e
  | r :: rest, e => afterAll teamId rest (r.after teamId e)

/-- The units that several requests are granted together. -/
def grantedAll (teamId : String) : List TeamRequest → Engine → Nat
  | [], _ => 0
  | r :: rest, e => r.granted teamId e + grantedAll teamId rest (r.after teamId e)

/-- The units that a request asks for; by default as many as its job needs. -/
def asked (t : Tables) (r : TeamRequest) : Nat :=
  match t.job? r.jobId with
  | some j => r.units.getD j.requiredMembers
  | none => 0

/-- The request is an operational actor's, for a stored job that is not over and has the window, and
it asks for 1 to 20 units. -/
structure Suits (t : Tables) (w : Window) (r : TeamRequest) : Prop where
  operational : r.actor.isOperational = true
  job : ∃ j, t.job? r.jobId = some j ∧ j.isClosed = false ∧ j.window = w
  range : 1 ≤ r.asked t ∧ r.asked t ≤ 20

instance (t : Tables) (w : Window) (r : TeamRequest) : Decidable (r.Suits t w) :=
  decidable_of_iff (r.actor.isOperational = true ∧
      (∃ j ∈ t.job? r.jobId, j.isClosed = false ∧ j.window = w) ∧
      1 ≤ r.asked t ∧ r.asked t ≤ 20)
    ⟨fun ⟨operational, job, range⟩ => ⟨operational, job, range⟩,
      fun h => ⟨h.operational, h.job, h.range⟩⟩

end TeamRequest

/-! ## What is left -/

namespace Tables

variable {t t' t'' : Tables} {teamId : String} {team : Team} {z : Zone} {w : Window} {d : Day}
  {n n' : Nat}

/-- What a team has left in a window and on its day, by its members' hours and the bookings. -/
def unitsLeft (t : Tables) (teamId : String) (team : Team) (z : Zone) (w : Window) : Nat :=
  (min ((team.windowCapacity (team.profiles t) w z : Int) - t.bookedAt teamId w)
    ((team.dailyCapacity (team.profiles t) (z.dayAt w.start) z : Int)
      - t.bookedOnDay teamId (z.dayAt w.start))).toNat

/-- Providers, teams and jobs have stayed, and so many units more are booked in the window and on
the day. -/
structure Gains (t t' : Tables) (teamId : String) (w : Window) (d : Day) (n : Nat) : Prop where
  providers : t'.providers = t.providers
  teams : t'.teams = t.teams
  jobs : t'.jobs = t.jobs
  window : t'.bookedAt teamId w = t.bookedAt teamId w + n
  day : t'.bookedOnDay teamId d = t.bookedOnDay teamId d + n

namespace Gains

theorem of_eq (same : t' = t) : t.Gains t' teamId w d 0 := by
  subst same
  exact ⟨rfl, rfl, rfl, rfl, rfl⟩

theorem trans (h : t.Gains t' teamId w d n) (h' : t'.Gains t'' teamId w d n') :
    t.Gains t'' teamId w d (n + n') where
  providers := h'.providers.trans h.providers
  teams := h'.teams.trans h.teams
  jobs := h'.jobs.trans h.jobs
  window := by rw [h'.window, h.window, Nat.add_assoc]
  day := by rw [h'.day, h.day, Nat.add_assoc]

theorem team? (h : t.Gains t' teamId w d n) (id : String) : t'.team? id = t.team? id := by
  unfold Tables.team?
  rw [h.teams]

theorem asked (h : t.Gains t' teamId w d n) (r : TeamRequest) : r.asked t' = r.asked t := by
  unfold TeamRequest.asked Tables.job?
  rw [h.jobs]

theorem suits (h : t.Gains t' teamId w d n) {r : TeamRequest} (suits : r.Suits t w) :
    r.Suits t' w where
  operational := suits.operational
  job := by
    unfold Tables.job?
    rw [h.jobs]
    exact suits.job
  range := (h.asked r).symm ▸ suits.range

/-- What more is booked is left no more. -/
theorem unitsLeft (h : t.Gains t' teamId w (z.dayAt w.start) n) :
    t'.unitsLeft teamId team z w = t.unitsLeft teamId team z w - n := by
  have profiles : team.profiles t' = team.profiles t := by
    unfold Team.profiles Tables.provider?
    rw [h.providers]
  unfold Tables.unitsLeft
  rw [profiles, h.window, h.day]
  omega

end Gains

/-- A booking of what is left shows in its window and on its day. -/
theorem booked_adjustBooking {slot : Slot} {plan : Plan} (keyed : t.LedgerKeyed) (one : t.OneEach)
    (fits : t.Fits) (atWindow : t.slotAt? teamId w = some slot)
    (onDay : t.planOn? teamId d = some plan) (onPlan : t.plan? slot.planId = some plan)
    (slotFits : slot.booked + n ≤ slot.capacity) (planFits : plan.booked + n ≤ plan.capacity) :
    (t.adjustBooking slot n).bookedAt teamId w = slot.booked + n ∧
      (t.adjustBooking slot n).planOn? teamId d = some { plan with booked := plan.booked + n } := by
  obtain ⟨hs, ofTeam, window⟩ := (slotAt?_eq_some keyed one).mp atWindow
  obtain ⟨-, planTeam, day⟩ := (planOn?_eq_some keyed one).mp onDay
  obtain ⟨slotRises, planRises⟩ := found_adjustBooking keyed fits hs onPlan slotFits planFits
  have keyed' : (t.adjustBooking slot n).LedgerKeyed :=
    { plans := (planIds_adjustBooking slot n t).symm ▸ keyed.plans
      slots := (slotIds_adjustBooking slot n t).symm ▸ keyed.slots
      locks := keyed.locks }
  have one' := one.adjustBooking slot n
  have atWindow' : (t.adjustBooking slot n).slotAt? teamId w
      = some { slot with booked := slot.booked + n } :=
    (slotAt?_eq_some keyed' one').mpr ⟨List.mem_of_find?_eq_some slotRises, ofTeam, window⟩
  refine ⟨?_, (planOn?_eq_some keyed' one').mpr
    ⟨List.mem_of_find?_eq_some planRises, planTeam, day⟩⟩
  unfold bookedAt
  rw [atWindow']
  rfl

end Tables

/-! ## One request -/

section Request

variable {past : List (Engine × Operation)} {e : Engine} {teamId : String} {team : Team} {z : Zone}
  {w : Window}

open TeamRequest

/-- What a run brings up to date for a window: the slot, the plan of its day, and what both have
left. -/
theorem Run.ensureSlot_left (run : Run past e) (lasts : w.start < w.stop)
    (whole : w.wholeSeconds = w) (known : e.store.tables.team? teamId = some team)
    (zone : team.zone = .ok z) :
    ∃ slot plan s, Ledger.ensureSlotJoined teamId w.start w.stop e.store.begin = .ok slot s ∧
      s.tables.slotAt? teamId w = some slot ∧
      s.tables.planOn? teamId (z.dayAt w.start) = some plan ∧
      s.tables.plan? slot.planId = some plan ∧ slot.capacity ≤ plan.capacity ∧
      slot.booked = e.store.tables.bookedAt teamId w ∧
      plan.booked = e.store.tables.bookedOnDay teamId (z.dayAt w.start) ∧
      (Locks.headroom slot plan).toNat = e.store.tables.unitsLeft teamId team z w ∧
      plan.capacity = team.dailyCapacity (team.profiles e.store.tables) (z.dayAt w.start) z ∧
      s.tables.LedgerKeyed ∧ s.tables.OneEach ∧ s.tables.Fits ∧
      e.store.tables.LedgerMoves s.tables := by
  obtain ⟨slot, s, ensured⟩ :=
    Ledger.ensureSlotJoined_succeeds (s := e.store.begin) run.sound.fits lasts known zone
  obtain ⟨calms, -, moves, -⟩ := Ledger.ensureSlotJoined_ok_cases e.now ensured
  obtain ⟨team', z', plan, known', zone', atWindow, onDay, onPlan, capacity, booked, planCapacity,
    planBooked⟩ := Ledger.ensureSlotJoined_figures (s := e.store.begin) run.ready.keyed
      run.sound.onDay run.oneEach whole ensured
  obtain rfl : team' = team := Option.some.inj (known'.symm.trans known)
  obtain rfl : z' = z := Except.ok.inj (zone'.symm.trans zone)
  have atMost : slot.capacity ≤ plan.capacity := by
    rw [capacity, planCapacity]
    exact team'.windowCapacity_le_dailyCapacity _ _ _
  refine ⟨slot, plan, s, ensured, atWindow, onDay, onPlan, atMost, booked, planBooked, ?_,
    planCapacity, (calms.keyed run.ready.keyed).toLedgerKeyed, calms.oneEach run.oneEach,
    (calms.sinks run.sound.fits).2, moves⟩
  rw [Locks.headroom_eq atMost, capacity, booked, planCapacity, planBooked]
  rfl

/-- A lock on a team is refused when the window or its day has nothing left, and nothing is stored.
Otherwise it books what is asked for, or what is left, and the day's plan keeps to the members'
hours. -/
theorem Run.createLocks_gains (run : Run past e) {actor : Actor} {j : Job} {units : Option Nat}
    (ttl : Option Int) (operational : actor.isOperational = true)
    (found : e.store.tables.job? j.id = some j) (waits : j.isClosed = false)
    (range : 1 ≤ units.getD j.requiredMembers ∧ units.getD j.requiredMembers ≤ 20)
    (known : e.store.tables.team? teamId = some team) (zone : team.zone = .ok z) :
    (e.store.tables.unitsLeft teamId team z j.window = 0 → ∃ slotId left e',
      Engine.createLocks actor j.id ⟨.team teamId units, ttl⟩ e
          = .error (.conflict (.capacityExceeded slotId left)) e' ∧
        e'.store.tables = e.store.tables) ∧
      (0 < e.store.tables.unitsLeft teamId team z j.window → ∃ l e' plan,
        Engine.createLocks actor j.id ⟨.team teamId units, ttl⟩ e = .ok [l] e' ∧ l.jobId = j.id ∧
        l.count = min (e.store.tables.unitsLeft teamId team z j.window)
          (units.getD j.requiredMembers) ∧
        e.store.tables.Gains e'.store.tables teamId j.window (z.dayAt j.start) l.count ∧
        e'.store.tables.planOn? teamId (z.dayAt j.start) = some plan ∧
        plan.booked ≤ team.dailyCapacity (team.profiles e.store.tables) (z.dayAt j.start) z) := by
  obtain ⟨lasts, whole⟩ := run.orderly.jobs j (mem_of_find?_key found).1
  obtain ⟨slot, plan, s, ensured, atWindow, onDay, onPlan, atMost, booked, planBooked, left, daily,
    keyed, one, fits, moves⟩ := run.ensureSlot_left lasts whole known zone
  have hs := List.mem_of_find?_eq_some atWindow
  have read : Store.plan? slot.planId s = .ok (some plan) s := Work.readRow_eq_ok.mpr
    ⟨onPlan.symm, fun p hp => fits.plan_isReadable (List.mem_of_find?_eq_some hp), rfl⟩
  obtain ⟨refuses, books⟩ :=
    run.createLocks_team ttl operational found waits range ensured hs read moves
  rw [← left]
  refine ⟨fun none => ?_, fun some => ?_⟩
  · obtain ⟨e', failed, tables⟩ := refuses (Int.toNat_eq_zero.mp none)
    exact ⟨_, _, e', failed, tables⟩
  · obtain ⟨l, e', log, done, ofJob, -, -, count, tables⟩ := books (by omega)
    clear refuses books
    obtain ⟨slotFits, planFits⟩ :
        slot.booked + l.count ≤ slot.capacity ∧ plan.booked + l.count ≤ plan.capacity := by
      rw [Locks.headroom_eq atMost] at count some
      omega
    obtain ⟨window, day⟩ := Tables.booked_adjustBooking keyed one fits atWindow onDay onPlan
      slotFits planFits
    have onDay' : e'.store.tables.planOn? teamId (z.dayAt j.start)
        = Option.some { plan with booked := plan.booked + l.count } := tables ▸ day
    refine ⟨l, e', _, done, ofJob, by omega, ?_, onDay', daily ▸ planFits⟩
    constructor
    case window => rw [← booked, tables]; exact window
    case day =>
      unfold Tables.bookedOnDay
      rw [onDay']
      exact congrArg (· + l.count) planBooked
    all_goals rw [tables]
    · exact moves.providers
    · exact moves.teams
    · exact moves.jobs

/-- **One request:** when nothing is left it is refused and nothing is stored; otherwise one lock
books what is asked for, or what is left. -/
theorem Run.request (run : Run past e) (known : e.store.tables.team? teamId = some team)
    (zone : team.zone = .ok z) {r : TeamRequest} (suits : r.Suits e.store.tables w) :
    (∃ past', Run past' (r.after teamId e)) ∧
      r.granted teamId e = min (e.store.tables.unitsLeft teamId team z w) (r.asked e.store.tables) ∧
      e.store.tables.Gains (r.after teamId e).store.tables teamId w (z.dayAt w.start)
        (r.granted teamId e) ∧
      (e.store.tables.unitsLeft teamId team z w = 0 → ∃ slotId left e',
        r.answer teamId e = .error (.conflict (.capacityExceeded slotId left)) e') ∧
      (0 < e.store.tables.unitsLeft teamId team z w → ∃ l e', r.answer teamId e = .ok [l] e' ∧
        l.jobId = r.jobId ∧ l.count = r.granted teamId e) := by
  obtain ⟨j, found, waits, rfl⟩ := suits.job
  obtain ⟨-, own⟩ := mem_of_find?_key found
  have asked : r.asked e.store.tables = r.units.getD j.requiredMembers := by
    unfold TeamRequest.asked
    rw [found]
  -- The request is made at an instant of its own.
  let served : Engine := { e with now := r.now }
  have run' : Run _ served := run.operation (.serve served) run.ready.quiet
  obtain ⟨refuses, books⟩ := run'.createLocks_gains r.ttlMinutes suits.operational
    (own.symm ▸ found) waits (asked ▸ suits.range) known zone
  rw [own] at refuses books
  refine ⟨⟨_, run'.operation (.createLocks ..) trivial⟩, ?_⟩
  rw [asked]
  rcases Nat.eq_zero_or_pos (e.store.tables.unitsLeft teamId team z j.window) with none | some
  · obtain ⟨slotId, left, e', failed, tables⟩ := refuses none
    have answered : r.answer teamId e = .error _ e' := failed
    have nothing : r.granted teamId e = 0 := by
      unfold granted
      rw [answered]
    have after : r.after teamId e = e' := after_of_error answered
    rw [after, nothing, none]
    exact ⟨(Nat.zero_min _).symm, .of_eq tables, fun _ => ⟨_, _, e', answered⟩,
      fun some => absurd some (Nat.lt_irrefl 0)⟩
  · obtain ⟨l, e', plan, done, ofJob, count, gains, -⟩ := books some
    have answered : r.answer teamId e = .ok [l] e' := done
    have granted : r.granted teamId e = l.count := by
      unfold TeamRequest.granted
      rw [answered]
      rfl
    have after : r.after teamId e = e' := after_of_ok answered
    rw [after, granted]
    exact ⟨count, gains, fun none => absurd none some.ne', fun _ => ⟨l, e', answered, ofJob, rfl⟩⟩

/-- **Several requests:** together they are granted what they ask for, or what was left before the
first, and so much more is booked in the window and on the day. -/
theorem Run.requests (run : Run past e) (known : e.store.tables.team? teamId = some team)
    (zone : team.zone = .ok z) {requests : List TeamRequest}
    (suits : ∀ r ∈ requests, r.Suits e.store.tables w) :
    (∃ past', Run past' (afterAll teamId requests e)) ∧
      grantedAll teamId requests e = min (e.store.tables.unitsLeft teamId team z w)
        (requests.map (asked e.store.tables)).sum ∧
      e.store.tables.Gains (afterAll teamId requests e).store.tables teamId w (z.dayAt w.start)
        (grantedAll teamId requests e) := by
  induction requests generalizing past e with
  | nil => exact ⟨⟨past, run⟩, (Nat.min_zero _).symm, .of_eq rfl⟩
  | cons r rest ih =>
    obtain ⟨⟨past₁, run₁⟩, granted, gains, -⟩ :=
      run.request known zone (suits r List.mem_cons_self)
    obtain ⟨next, grantedRest, gainsRest⟩ := ih run₁ ((gains.team? teamId).trans known)
      fun q hq => gains.suits (suits q (List.mem_cons_of_mem _ hq))
    refine ⟨next, ?_, gains.trans gainsRest⟩
    have askedRest : rest.map (asked (r.after teamId e).store.tables)
        = rest.map (asked e.store.tables) := List.map_congr_left fun q _ => gains.asked q
    rw [askedRest, gains.unitsLeft] at grantedRest
    show r.granted teamId e + grantedAll teamId rest _ = _
    rw [grantedRest, granted, List.map_cons, List.sum_cons]
    omega

/-- **A request after others** is refused exactly when these were granted all that was left, and
otherwise gets one lock, on what it asks for or what they have left. -/
theorem Run.request_after (run : Run past e) (known : e.store.tables.team? teamId = some team)
    (zone : team.zone = .ok z) {before : List TeamRequest} {r : TeamRequest}
    (suits : ∀ q ∈ before, q.Suits e.store.tables w) (suitsLast : r.Suits e.store.tables w) :
    let made := afterAll teamId before e
    let taken := grantedAll teamId before e
    ((∃ slotId n e', r.answer teamId made = .error (.conflict (.capacityExceeded slotId n)) e') ↔
        taken = e.store.tables.unitsLeft teamId team z w) ∧
      (taken ≠ e.store.tables.unitsLeft teamId team z w → ∃ l e',
        r.answer teamId made = .ok [l] e' ∧ l.jobId = r.jobId ∧
          l.count = min (r.asked e.store.tables)
            (e.store.tables.unitsLeft teamId team z w - taken)) := by
  intro made taken
  obtain ⟨⟨past', run'⟩, total, gains⟩ := run.requests known zone suits
  obtain ⟨-, granted, -, refused, answered⟩ :=
    run'.request ((gains.team? teamId).trans known) zone (gains.suits suitsLast)
  rw [gains.unitsLeft] at refused answered granted
  rw [gains.asked] at granted
  have atMost : taken ≤ e.store.tables.unitsLeft teamId team z w := by
    rw [show taken = _ from total]
    exact Nat.min_le_left _ _
  have getsOne : taken ≠ e.store.tables.unitsLeft teamId team z w → ∃ l e',
      r.answer teamId made = .ok [l] e' ∧ l.jobId = r.jobId ∧
        l.count = min (r.asked e.store.tables)
          (e.store.tables.unitsLeft teamId team z w - taken) := by
    intro some
    obtain ⟨l, e', done, ofJob, count⟩ := answered (by omega)
    exact ⟨l, e', done, ofJob, by rw [count, granted, Nat.min_comm]⟩
  refine ⟨⟨?_, fun all => refused (by omega)⟩, getsOne⟩
  rintro ⟨slotId, n, e', failed⟩
  by_contra some
  obtain ⟨l, e'', done, -⟩ := getsOne some
  rw [done] at failed
  cases failed

end Request

/-- **Requests that compete for a team share what is left, without loss or duplication.** Let `h` be
what a stored team has left in a window and on its day once both are up to date. Requests for jobs
with this window, made one after the other with nothing else between, are granted together the
lesser of `h` and of what they ask for; the window's slot and the day's plan have so many units more
booked. A request is refused for want of capacity exactly when those before it were granted all of
`h`, and gets one lock otherwise. The bookings in the end are the same in every order of the
requests. -/
theorem requests_share_headroom {past : List (Engine × Operation)} {e : Engine} (run : Run past e)
    {teamId : String} {w : Window} (stored : e.store.tables.hasTeam teamId = true)
    (lasts : w.start < w.stop) (whole : w.wholeSeconds = w) :
    ∃ slot plan s, ∃ h : Nat, Ledger.ensureSlot teamId w.start w.stop e.store = .ok slot s ∧
      s.tables.plan? slot.planId = some plan ∧ plan.teamId = teamId ∧
      h = (min ((slot.capacity : Int) - slot.booked) ((plan.capacity : Int) - plan.booked)).toNat ∧
      ∀ requests : List TeamRequest, (∀ r ∈ requests, r.Suits e.store.tables w) →
        let left := (TeamRequest.afterAll teamId requests e).store.tables
        let granted := TeamRequest.grantedAll teamId requests e
        granted = min h (requests.map (TeamRequest.asked e.store.tables)).sum ∧
        left.bookedAt teamId w = e.store.tables.bookedAt teamId w + granted ∧
        left.bookedOnDay teamId plan.day = e.store.tables.bookedOnDay teamId plan.day + granted ∧
        (∀ before r later, requests = before ++ r :: later →
          let made := TeamRequest.afterAll teamId before e
          let taken := TeamRequest.grantedAll teamId before e
          ((∃ slotId n e', r.answer teamId made
              = .error (.conflict (.capacityExceeded slotId n)) e') ↔ taken = h) ∧
            (taken ≠ h → ∃ l e', r.answer teamId made = .ok [l] e' ∧ l.jobId = r.jobId ∧
              l.count = min (r.asked e.store.tables) (h - taken))) ∧
        ∀ others : List TeamRequest, others.Perm requests →
          (TeamRequest.afterAll teamId others e).store.tables.bookedAt teamId w
              = left.bookedAt teamId w ∧
            (TeamRequest.afterAll teamId others e).store.tables.bookedOnDay teamId plan.day
              = left.bookedOnDay teamId plan.day := by
  obtain ⟨team, known⟩ : ∃ team, e.store.tables.team? teamId = some team :=
    Option.isSome_iff_exists.mp (find?_key_isSome.mpr (any_key.mp stored))
  obtain ⟨z, named⟩ := Option.isSome_iff_exists.mp
    (run.orderly.teams team (List.mem_of_find?_eq_some known))
  have zone := Team.zone_eq_ok.mpr named
  obtain ⟨slot, plan, s, ensured, -, onDay, onPlan, atMost, -, -, unitsLeft, -, keyed, one, -⟩ :=
    run.ensureSlot_left lasts whole known zone
  obtain ⟨-, planTeam, day⟩ := (Tables.planOn?_eq_some keyed one).mp onDay
  refine ⟨slot, plan, s.commit, e.store.tables.unitsLeft teamId team z w,
    (Work.atomic_eq_ok run.ready.idle).mpr ⟨s, ensured, rfl⟩, onPlan, planTeam, ?_, ?_⟩
  · rw [← unitsLeft, Locks.headroom_eq atMost]
  intro requests suits left granted
  obtain ⟨-, total, gains⟩ := run.requests known zone suits
  rw [day]
  refine ⟨total, gains.window, gains.day, ?_, ?_⟩
  · rintro before r later rfl
    exact run.request_after known zone (fun q hq => suits q (List.mem_append_left _ hq))
      (suits r (List.mem_append_right _ List.mem_cons_self))
  · intro others perm
    obtain ⟨-, total', gains'⟩ :=
      run.requests known zone fun q hq => suits q (perm.mem_iff.mp hq)
    have same : TeamRequest.grantedAll teamId others e
        = TeamRequest.grantedAll teamId requests e := by
      rw [total, total', (perm.map _).sum_eq]
    exact ⟨by rw [gains'.window, gains.window, same], by rw [gains'.day, gains.day, same]⟩

namespace Sample

/-- A team of two, and three jobs at one time. -/
def threeRivals : List Operation := [
  .insertProvider (provider "ada"), .insertProvider (provider "bob"),
  .createTeam admin (team ["ada", "bob"]),
  .createJob (job 9), .createJob (job 9), .createJob (job 9)]

/-- When the jobs are. -/
def nine : Window := ⟨Instant.utc 2026 3 2 9 0, Instant.utc 2026 3 2 11 0⟩

/-- A request for each of the jobs, and the second wants three units. -/
def threeRequests : List TeamRequest := [
  { now := 0, actor := admin, jobId := idText "job" 1 },
  { now := 0, actor := admin, jobId := idText "job" 2, units := some 3 },
  { now := 0, actor := admin, jobId := idText "job" 3 }]

end Sample

/-- Of the team's two units the first two requests get one each, and the third is refused. -/
theorem requests_share_headroom_threeRivals : ∃ past e, Run past e ∧
    (∀ r ∈ Sample.threeRequests, r.Suits e.store.tables Sample.nine) ∧
    TeamRequest.grantedAll (idText "team" 0) Sample.threeRequests e = 2 ∧
    (TeamRequest.afterAll (idText "team" 0) Sample.threeRequests e).store.tables.bookedAt
      (idText "team" 0) Sample.nine = 2 ∧
    ∃ slotId n e', Sample.threeRequests[2].answer (idText "team" 0)
        (TeamRequest.afterAll (idText "team" 0) (Sample.threeRequests.take 2) e)
      = .error (.conflict (.capacityExceeded slotId n)) e' := by
  obtain ⟨e, made⟩ : ∃ e, e = Operation.afterAll Sample.threeRivals Sample.engine := ⟨_, rfl⟩
  have run : Run (Operation.trace Sample.threeRivals Sample.engine) e := made ▸
    Run.of_operations rfl rfl (fun _ _ _ => rfl)
      (by simp [Sample.threeRivals, Operation.IsAdmissible])
  have stored : e.store.tables.hasTeam (idText "team" 0) = true := by
    rw [made]
    decide +kernel
  have figures : Sample.oneJobFigures e = some (2, 0, some (2, 0)) := by
    rw [made]
    decide +kernel
  have suits : ∀ r ∈ Sample.threeRequests, r.Suits e.store.tables Sample.nine := by
    rw [made]
    decide +kernel
  have asked : Sample.threeRequests.map (TeamRequest.asked e.store.tables) = [1, 3, 1] := by
    rw [made]
    decide +kernel
  have before : e.store.tables.bookedAt (idText "team" 0) Sample.nine = 0 := by
    rw [made]
    decide +kernel
  obtain ⟨slot, plan, s, h, ensured, onPlan, -, left, shared⟩ :=
    requests_share_headroom run stored (w := Sample.nine) (by decide) (by decide)
  unfold Sample.nine at ensured
  unfold Sample.oneJobFigures at figures
  rw [ensured] at figures
  simp only [onPlan, Option.map_some, Option.some.injEq, Prod.mk.injEq] at figures
  obtain ⟨capacity, booked, planCapacity, planBooked⟩ := figures
  rw [capacity, booked, planCapacity, planBooked] at left
  obtain rfl : h = 2 := left
  obtain ⟨total, window, -, each, -⟩ := shared Sample.threeRequests suits
  obtain ⟨firstTwo, -⟩ := shared (Sample.threeRequests.take 2)
    fun r hr => suits r (List.mem_of_mem_take hr)
  have all : TeamRequest.grantedAll (idText "team" 0) Sample.threeRequests e = 2 := by
    rw [total, asked]
    rfl
  have taken : TeamRequest.grantedAll (idText "team" 0) (Sample.threeRequests.take 2) e = 2 := by
    rw [firstTwo, List.map_take, asked]
    rfl
  refine ⟨_, e, run, suits, all, by rw [window, before, all], ?_⟩
  exact (each (Sample.threeRequests.take 2) Sample.threeRequests[2] [] rfl).1.mpr taken

end Staffing
