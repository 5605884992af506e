import Staffing.Proofs.Cancellation
import Staffing.Proofs.Fixpoint

/-!
# Locks that are released

A release ends the locks that it is about and no others. Each of them gives its units back to its
slot and to the plan of that slot, also when several are on one slot, and that is all that changes
but for what is told of it.

* `Tables.Releases`, `Engine.Releases` — all that a release of some locks has changed
* `Locks.collect_releases` — releasing locks one by one
* `Run.releaseLocks_releases` — what a release by hand does in every state that a run reaches
* `release_exact` — the same with the locks that it is about, and what a second release does
-/

namespace Staffing

variable {now : Instant} {t t' t'' : Tables} {s : Store} {e e' e'' : Engine} {j : Job} {l : Lock}
  {jobId : String} {actor : Actor} {reason : ReleaseReason} {freed freed' : List Lock}
  {events events' : List Event} {past : List (Engine × Operation)}

/-! ## In the tables -/

namespace Tables

/-- The locks `freed` have been released, and nothing else has changed but the log. -/
structure Releases (reason : ReleaseReason) (now : Instant) (freed : List Lock) (t t' : Tables) :
    Prop where
  locks : t'.locks = t.locks.map fun l =>
    if l ∈ freed then l.ended reason now.wholeSecond else l
  takesOff : TakesOff freed t t'
  others : { t' with plans := t.plans, slots := t.slots, locks := t.locks, log := t.log } = t

namespace Releases

theorem nil (reason : ReleaseReason) (now : Instant) (t : Tables) : t.Releases reason now [] t where
  locks := by simp
  takesOff := .of_eq rfl rfl
  others := rfl

/-- One live lock is released. -/
theorem single (sound : t.IsSound) (whole : t.ExpiriesWhole) (hl : t.HasLive l)
    (reason : ReleaseReason) (now : Instant) :
    t.Releases reason now [l] (t.released reason now l) := by
  obtain ⟨decided, sound⟩ := sound
  have gives := TakesOff.giveBack sound.keyed (sound.returnsAll hl)
  refine ⟨?_, ⟨gives.slots, gives.plans⟩, ?_⟩
  · rw [released_frame]
    refine (Locks.setLockState_ended sound.keyed.locks hl.1 (whole l hl.1) reason now).trans ?_
    refine List.map_congr_left fun k hk => ?_
    have own : k.id = l.id ↔ k ∈ [l] := by
      rw [List.mem_singleton]
      exact ⟨List.inj_on_of_nodup_map sound.keyed.locks hk hl.1, congrArg _⟩
    simp only [own]
  · rw [released_frame]

/-- First some locks are released, and then others that are still live. -/
theorem trans (h : t.Releases reason now freed t') (h' : t'.Releases reason now freed' t'')
    (live : ∀ l ∈ freed', l.isLive = true) : t.Releases reason now (freed ++ freed') t'' where
  locks := by
    rw [h'.locks, h.locks, List.map_map]
    refine List.map_congr_left fun l _ => ?_
    rw [Function.comp_apply]
    by_cases gone : l ∈ freed
    · have ended : l.ended reason now.wholeSecond ∉ freed' :=
        fun again => absurd (live _ again) Bool.false_ne_true
      rw [if_pos gone, if_neg ended, if_pos (List.mem_append_left _ gone)]
    · simp [gone]
  takesOff := h.takesOff.trans h'.takesOff
  others := by
    rw [← h'.others] at h
    exact h.others

/-- A lock that is not released stays live. -/
theorem hasLive (h : t.Releases reason now freed t') (hl : t.HasLive l) (other : l ∉ freed) :
    t'.HasLive l := by
  refine ⟨?_, hl.2⟩
  rw [h.locks]
  exact List.mem_map.mpr ⟨l, hl.1, if_neg other⟩

/-- Of the live locks of some kind those are left that were not released. -/
theorem filter_locks {p : Lock → Bool} (h : t.Releases reason now freed t')
    (live : ∀ l, p l = true → l.isLive = true) :
    t'.locks.filter p = (t.locks.filter p).filter (· ∉ freed) := by
  have kept (l : Lock) : p (if l ∈ freed then l.ended reason now.wholeSecond else l)
      = (decide (l ∉ freed) && p l) := by
    by_cases gone : l ∈ freed
    · have ended : p (l.ended reason now.wholeSecond) = false :=
        Bool.eq_false_iff.mpr fun again => absurd (live _ again) Bool.false_ne_true
      rw [if_pos gone, ended, decide_eq_false (not_not.mpr gone), Bool.false_and]
    · rw [if_neg gone, decide_eq_true gone, Bool.true_and]
  rw [h.locks, List.filter_map, List.filter_filter]
  refine (congrArg (List.map _) (List.filter_congr fun l _ => kept l)).trans ?_
  refine (List.map_congr_left fun l hl => ?_).trans (List.map_id _)
  obtain ⟨other, -⟩ := Bool.and_eq_true_iff.mp (List.mem_filter.mp hl).2
  exact if_neg (of_decide_eq_true other)

theorem expiriesWhole (h : t.Releases reason now freed t') (whole : t.ExpiriesWhole) :
    t'.ExpiriesWhole := by
  intro l' hl'
  rw [h.locks] at hl'
  obtain ⟨l, hl, rfl⟩ := List.mem_map.mp hl'
  split
  · exact whole l hl
  · exact whole l hl

theorem jobs (h : t.Releases reason now freed t') : t'.jobs = t.jobs :=
  (congrArg Tables.jobs h.others :)

end Releases

end Tables

/-! ## In a transaction -/

/-- A transaction that changes nothing but the tables. -/
theorem Work.atomic_of_begin {α : Type} {w : Work α} {a : α} (idle : s.saved = none)
    (done : w s.begin = .ok a { s.begin with tables := t' }) :
    Work.atomic w s = .ok a { s with tables := t' } := by
  refine (Work.atomic_eq_ok idle).mpr ⟨_, done, ?_⟩
  obtain ⟨tables, serial, saved⟩ := s
  subst idle
  rfl

namespace Locks

/-- **Live locks are released one by one,** each of them on the figures that those before it have
left. -/
theorem collect_releases (sound : s.tables.IsSound) (whole : s.tables.ExpiriesWhole)
    (distinct : freed.Nodup) (live : ∀ l ∈ freed, s.tables.HasLive l) (reason : ReleaseReason)
    (now : Instant) : ∃ t', Work.collect (releaseOne reason now) freed s
        = .ok (freed.map (·.ended reason now)) { s with tables := t' } ∧
      s.tables.Releases reason now freed t' := by
  induction freed generalizing s with
  | nil => exact ⟨s.tables, rfl, .nil _ _ _⟩
  | cons l rest ih =>
    obtain ⟨new, distinctRest⟩ := List.nodup_cons.mp distinct
    have hl := live l List.mem_cons_self
    have first := Tables.Releases.single sound whole hl reason now
    have done := releaseOne_apply sound.choose_spec.fits reason now l
    have sound₁ : (s.tables.released reason now l).IsSound :=
      sound.imp fun _ sound => sound.released hl reason
    -- The locks still to come are other rows, so they are live as before.
    obtain ⟨t', others, releases⟩ := ih (s := { s with tables := s.tables.released reason now l })
      sound₁ (first.expiriesWhole whole) distinctRest fun k hk => first.hasLive
        (live k (List.mem_cons_of_mem _ hk)) fun same => new (List.mem_singleton.mp same ▸ hk)
    refine ⟨t', ?_, first.trans releases fun k hk => (live k (List.mem_cons_of_mem _ hk)).2⟩
    exact bind_eq_ok.mpr ⟨_, _, done, bind_eq_ok.mpr ⟨_, _, others, rfl⟩⟩

/-- A release by hand releases the live locks of the job, those in `ids` if it is given. -/
theorem release_releases (idle : s.saved = none) (sound : s.tables.IsSound)
    (whole : s.tables.ExpiriesWhole) (may : actor.isOperational = true)
    (found : s.tables.job? jobId = some j) (ids : Option (List String)) (now : Instant) :
    let freed := s.tables.locksFor jobId ids false
    ∃ t', release actor jobId ids now s
        = .ok (freed.map (·.ended .manual now)) { s with tables := t' } ∧
      s.tables.Releases .manual now freed t' := by
  intro freed
  have distinct : freed.Nodup :=
    (locksFor_nodup sound.choose_spec.keyed.locks jobId ids false).of_map
  obtain ⟨t', done, releases⟩ :=
    collect_releases (s := s.begin) sound whole distinct (fun _ => mem_locksFor) .manual now
  refine ⟨t', ?_, releases⟩
  unfold release
  rw [bind_of_ok (Work.ofExcept_eq_ok.mpr
    ⟨Engine.requireOperational_eq_ok (u := ()).mpr may, rfl⟩)]
  refine Work.atomic_of_begin idle ?_
  rw [bind_of_ok (Work.demand_eq_ok.mpr ⟨found, rfl⟩), bind_of_ok (Work.ask_eq_ok.mpr ⟨rfl, rfl⟩)]
  exact done

end Locks

/-! ## In the engine -/

namespace Engine

/-- The locks `freed` have been released and these events have been told, and nothing else has
changed. -/
structure Releases (reason : ReleaseReason) (now : Instant) (freed : List Lock)
    (events : List Event) (e e' : Engine) : Prop where
  tables : e.store.tables.Releases reason now freed e'.store.tables
  /-- The events are in the log, behind all that was there. -/
  log : ∃ entries, e'.store.tables.log = e.store.tables.log ++ entries ∧
    entries.map (·.event?) = events.map some
  notices : e'.notices = e.notices ++ events
  others : e' = { e with
    store := { e.store with tables := e'.store.tables }
    notices := e'.notices }

namespace Releases

theorem nil (reason : ReleaseReason) (now : Instant) (e : Engine) :
    e.Releases reason now [] [] e where
  tables := .nil reason now _
  log := ⟨[], (List.append_nil _).symm, rfl⟩
  notices := (List.append_nil _).symm
  others := rfl

theorem trans (h : e.Releases reason now freed events e')
    (h' : e'.Releases reason now freed' events' e'') (live : ∀ l ∈ freed', l.isLive = true) :
    e.Releases reason now (freed ++ freed') (events ++ events') e'' where
  tables := h.tables.trans h'.tables live
  log := by
    obtain ⟨entries, log, told⟩ := h.log
    obtain ⟨entries', log', told'⟩ := h'.log
    refine ⟨entries ++ entries', ?_, ?_⟩
    · rw [log', log, List.append_assoc]
    · rw [List.map_append, List.map_append, told, told']
  notices := by
    rw [h'.notices, h.notices, List.append_assoc]
  others := by
    have same := h'.others
    rw [h.others] at same
    exact same

/-- Where nothing is released and nothing told, nothing changes. -/
theorem eq_of_nil (h : e.Releases reason now [] [] e') : e' = e := by
  obtain ⟨entries, log, told⟩ := h.log
  rw [List.map_eq_nil_iff.mp told, List.append_nil] at log
  have slots : e'.store.tables.slots = e.store.tables.slots :=
    (List.map_id _).symm.trans h.tables.takesOff.slots.symm
  have plans : e'.store.tables.plans = e.store.tables.plans :=
    (List.map_id _).symm.trans h.tables.takesOff.plans.symm
  have locks : e'.store.tables.locks = e.store.tables.locks := by
    rw [h.tables.locks]
    simp
  have notices : e'.notices = e.notices := by
    rw [h.notices, List.append_nil]
  have tables := h.tables.others
  rw [← slots, ← plans, ← locks, ← log] at tables
  have others := h.others
  rw [notices, show e'.store.tables = e.store.tables from tables] at others
  exact others

/-- A transaction that releases locks, and what is told of it afterwards. -/
theorem of_told (h : e.store.tables.Releases reason now freed t')
    (log : t'.log = e.store.tables.log) (events : List Event) :
    e.Releases reason now freed events
      (after (dispatch now events) { e with store := { e.store with tables := t' } }) := by
  obtain ⟨entries, told, left⟩ :=
    dispatch_tells now events { e with store := { e.store with tables := t' } }
  rw [left]
  exact ⟨⟨h.locks, ⟨h.takesOff.slots, h.takesOff.plans⟩, h.others⟩,
    ⟨entries, congrArg (· ++ entries) log, told⟩, rfl, rfl⟩

end Releases

end Engine

/-- **A release by hand.** In every state that a run reaches, the live locks of a stored job are
released, those in `ids` if it is given, and one event tells of it unless there are none. -/
theorem Run.releaseLocks_releases (run : Run past e) (may : actor.isOperational = true)
    (found : e.store.tables.job? jobId = some j) (ids : Option (List String)) :
    let freed := e.store.tables.locksFor jobId ids false
    ∃ e', Engine.releaseLocks actor jobId ids e = .ok (freed.map (·.ended .manual e.now)) e' ∧
      e.Releases .manual e.now freed
        (if freed = [] then [] else [.locksReleased jobId (freed.map (·.id)) "manual"]) e' := by
  intro freed
  obtain ⟨t', done, releases⟩ : ∃ t', Locks.release actor jobId ids e.now e.store
        = .ok (freed.map (·.ended .manual e.now)) { e.store with tables := t' } ∧
      e.store.tables.Releases .manual e.now freed t' :=
    Locks.release_releases run.ready.idle ⟨_, run.sound⟩ run.expiriesWhole may found ids e.now
  have log := (Locks.release_onlyLocks _ _ _ _ _ _ _ done).1.log
  refine ⟨_, ?_, .of_told releases log _⟩
  unfold Engine.releaseLocks
  rw [bind_of_ok (Engine.clock_apply e), bind_of_ok (Engine.onStore_of_ok done)]
  by_cases none : freed = []
  · rw [if_pos none, none]
    rfl
  · have some : (!(freed.map (·.ended .manual e.now)).isEmpty) = true := by simpa using none
    have ids : (freed.map (·.ended .manual e.now)).map (·.id) = freed.map (·.id) := List.map_map
    rw [if_neg none, if_pos some, ids]
    exact bind_of_ok (Engine.dispatch_apply e.now _ _)

/-- Where there is nothing to release, nothing changes. -/
theorem Run.releaseLocks_rests (run : Run past e) (may : actor.isOperational = true)
    (found : e.store.tables.job? jobId = some j) {ids : Option (List String)}
    (none : e.store.tables.locksFor jobId ids false = []) :
    Engine.releaseLocks actor jobId ids e = .ok [] e := by
  obtain ⟨e', done, same⟩ := run.releaseLocks_releases may found ids
  rw [none] at done same
  rw [same.eq_of_nil] at done
  exact done

/-- **A release is exact.** In every state that a run reaches, let someone who may do so release the
locks of a stored job, whichever ids are given. Those of its live locks that are named, or all of
them if no ids are given, are released by hand, and they are answered in the order in which they
came. The slots lose the units of those that are on them, their plans lose the same, and nothing
else changes but for the one event that tells of it. When the same is done again, at whatever time,
there is nothing to release, and nothing changes. -/
theorem release_exact (run : Run past e) (may : actor.isOperational = true)
    (found : e.store.tables.job? jobId = some j) (ids : Option (List String)) :
    ∃ freed e', freed.Sublist e.store.tables.locks ∧
      (∀ l ∈ e.store.tables.locks, l ∈ freed ↔
        l.jobId = jobId ∧ (l.status = .held ∨ l.status = .confirmed) ∧
          ∀ named ∈ ids, l.id ∈ named) ∧
      Engine.releaseLocks actor jobId ids e = .ok (freed.map (·.ended .manual e.now)) e' ∧
      e.Releases .manual e.now freed
        (if freed = [] then [] else [.locksReleased jobId (freed.map (·.id)) "manual"]) e' ∧
      ∀ later, Engine.releaseLocks actor jobId ids { e' with now := later }
        = .ok [] { e' with now := later } := by
  obtain ⟨e', done, releases⟩ := run.releaseLocks_releases may found ids
  refine ⟨_, e', List.filter_sublist, fun l hl => ?_, done, releases, fun later => ?_⟩
  · rw [List.mem_filter, Bool.false_or, Bool.and_eq_true, Bool.and_eq_true, beq_iff_eq,
      and_iff_right hl, and_assoc, l.isLive_iff]
    cases ids <;> simp
  · -- The job is still there, and none of its locks that are named is live any more.
    have run' := run.operation (.releaseLocks actor jobId ids) trivial
    have left : (Operation.releaseLocks actor jobId ids).after e = e' := after_of_ok done
    rw [left] at run'
    have run'' := run'.operation (.serve { e' with now := later }) run'.ready.quiet
    have found'' : e'.store.tables.job? jobId = some j := by
      unfold Tables.job?
      rw [releases.tables.jobs]
      exact found
    have noneLive : e'.store.tables.locksFor jobId ids false = [] := by
      refine (releases.tables.filter_locks fun l hl => ?_).trans
        (List.filter_eq_nil_iff.mpr fun l hl other => of_decide_eq_true other hl)
      simp only [Bool.false_or, Bool.and_eq_true] at hl
      exact hl.1.2
    exact run''.releaseLocks_rests may found'' noneLive

namespace Sample

/-- Two locks of one job and one of another share a slot. -/
def sharedSlot : List Operation := [
  .insertProvider (provider "ada"), .insertProvider (provider "bob"),
  .insertProvider (provider "cem"), .createTeam admin (team ["ada", "bob", "cem"]),
  .createJob (job 9), .createJob (job 9),
  .createLocks admin (idText "job" 1) ⟨.team (idText "team" 0) none, none⟩,
  .createLocks admin (idText "job" 1) ⟨.team (idText "team" 0) none, none⟩,
  .createLocks admin (idText "job" 2) ⟨.team (idText "team" 0) none, none⟩]

/-- All three, the second one twice, and one that does not exist. -/
def namedTwice : List String :=
  [idText "lock" 7, idText "lock" 9, idText "lock" 5, "lock", idText "lock" 7]

end Sample

/-- The two are released, in the order in which they came, and their slot keeps the third unit. -/
theorem release_exact_sharedSlot : ∃ past e freed e', Run past e ∧
    e.store.tables.slots.map (·.booked) = [3] ∧
    freed.map (·.id) = [idText "lock" 5, idText "lock" 7] ∧
    Engine.releaseLocks Sample.admin (idText "job" 1) (some Sample.namedTwice) e
      = .ok (freed.map (·.ended .manual e.now)) e' ∧
    e.store.tables.TakesOff freed e'.store.tables ∧
    e'.store.tables.slots.map (·.booked) = [1] := by
  obtain ⟨e, left⟩ : ∃ e, e = Operation.afterAll Sample.sharedSlot Sample.engine := ⟨_, rfl⟩
  have run : Run (Operation.trace Sample.sharedSlot Sample.engine) e := left ▸
    Run.of_operations rfl rfl (fun _ _ _ => rfl)
      (by simp [Sample.sharedSlot, Operation.IsAdmissible])
  obtain ⟨known, booked, answered, booked'⟩ :
      (e.store.tables.job? (idText "job" 1)).isSome = true ∧
      e.store.tables.slots.map (·.booked) = [3] ∧
      (answer? (Engine.releaseLocks Sample.admin (idText "job" 1) (some Sample.namedTwice)) e).map
        (·.map (·.id)) = some [idText "lock" 5, idText "lock" 7] ∧
      (after (Engine.releaseLocks Sample.admin (idText "job" 1) (some Sample.namedTwice)) e
        ).store.tables.slots.map (·.booked) = [1] := by
    rw [left]
    decide +kernel
  obtain ⟨j, found⟩ := Option.isSome_iff_exists.mp known
  obtain ⟨freed, e', -, -, done, releases, -⟩ :=
    release_exact run (by decide : Sample.admin.isOperational = true) found
      (some Sample.namedTwice)
  unfold answer? at answered
  rw [done] at answered
  rw [after_of_ok done] at booked'
  have named : (freed.map (·.ended .manual e.now)).map (·.id)
      = [idText "lock" 5, idText "lock" 7] := Option.some.inj answered
  rw [List.map_map] at named
  exact ⟨_, e, freed, e', run, booked, named, done, releases.tables.takesOff, booked'⟩

end Staffing
