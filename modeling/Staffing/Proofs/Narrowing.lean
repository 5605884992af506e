import Staffing.Proofs.Promotable

/-!
# Sweeps only take work away

None of the calls that the sweeps make lets a job wait or a lock live that did not before.
Promotions, commits and expiries also leave teams alone and cancel no assignment, so a job that can
be staffed by its locks afterwards could be staffed by them before: whoever is free now was free
then, and every usable lock was one.

* `Tables.Dwindles`, `Tables.Narrows` — the two orders
* `Tables.Narrows.promotable` — no job becomes promotable
* `Engine.autoAssign_narrows`, `Engine.promote_narrows`, `Engine.expireLock_narrows`,
  `Engine.recordFailure_dwindles` — the calls, and what each of them is done with
-/

namespace Staffing

variable {now staleBefore : Instant} {t t' t'' : Tables} {s s' : Store} {e e' : Engine} {j : Job}
  {jobId lockId : String} {maxRetries : Nat}

namespace Tables

/-- Jobs that wait did so before, and live locks were there as they are. -/
structure Dwindles (t t' : Tables) : Prop where
  pending : ∀ j' ∈ t'.jobs, j'.isPending = true → ∃ j ∈ t.jobs, j.isPending = true ∧ j.id = j'.id
  locks : ∀ l' ∈ t'.locks, l'.isLive = true → l' ∈ t.locks

/-- Teams are as they were; jobs that wait and live locks were there as they are, and assignments
still are. -/
structure Narrows (t t' : Tables) : Prop where
  teams : t'.teams = t.teams
  jobs : ∀ j' ∈ t'.jobs, j'.isPending = true → j' ∈ t.jobs
  assignments : ∀ a ∈ t.assignments, a ∈ t'.assignments
  locks : ∀ l' ∈ t'.locks, l'.isLive = true → l' ∈ t.locks

theorem Dwindles.refl (t : Tables) : t.Dwindles t :=
  ⟨fun j hj waits => ⟨j, hj, waits, rfl⟩, fun _ hl _ => hl⟩

theorem Dwindles.trans (h : t.Dwindles t') (h' : t'.Dwindles t'') : t.Dwindles t'' where
  pending j'' hj'' waits := by
    obtain ⟨j', hj', waits', own'⟩ := h'.pending j'' hj'' waits
    obtain ⟨j, hj, waited, own⟩ := h.pending j' hj' waits'
    exact ⟨j, hj, waited, own.trans own'⟩
  locks l hl live := h.locks l (h'.locks l hl live) live

namespace Narrows

theorem refl (t : Tables) : t.Narrows t := ⟨rfl, fun _ hj _ => hj, fun _ ha => ha, fun _ hl _ => hl⟩

theorem trans (h : t.Narrows t') (h' : t'.Narrows t'') : t.Narrows t'' where
  teams := h'.teams.trans h.teams
  jobs j hj waits := h.jobs j (h'.jobs j hj waits) waits
  assignments a ha := h'.assignments a (h.assignments a ha)
  locks l hl live := h.locks l (h'.locks l hl live) live

theorem dwindles (h : t.Narrows t') : t.Dwindles t' where
  pending j hj waits := ⟨j, h.jobs j hj waits, waits, rfl⟩
  locks := h.locks

/-- The log may change. -/
theorem congr_log {log : List LogEntry} (h : t.Narrows t') (same : t'' = { t' with log }) :
    t.Narrows t'' := by
  rw [same]
  exact ⟨h.teams, h.jobs, h.assignments, h.locks⟩

/-- A lock is released. -/
theorem released (teams : t'.teams = t.teams) (jobs : t'.jobs = t.jobs)
    (assignments : t'.assignments = t.assignments) {id : String} {reason : Option ReleaseReason}
    {expiresAt : Instant}
    (locks : t'.locks = (t.setLockState id .released reason expiresAt now).locks) :
    t.Narrows t' where
  teams := teams
  jobs j hj _ := jobs ▸ hj
  assignments a ha := assignments ▸ ha
  locks l hl live := by
    rw [locks] at hl
    refine mem_of_mem_updateWhere (fun _ => ?_) hl live
    rfl

/-- A lock is released, and its units given back. -/
theorem givenBack (t : Tables) (reason : ReleaseReason) (now : Instant) (l : Lock) :
    t.Narrows (t.released reason now l) := by
  rw [released_frame]
  exact .released rfl rfl rfl rfl

/-- A job is staffed. -/
theorem staffed (t : Tables) (jobId : String) (rows : List Assignment) (now : Instant) :
    t.Narrows (t.staffed jobId rows now) where
  teams := rfl
  jobs j hj waits := by
    refine mem_of_mem_updateWhere (fun _ => ?_) hj waits
    rfl
  assignments a ha := List.mem_append_left _ ha
  locks _ hl _ := hl

end Narrows

/-- A job that has been staffed does not wait. -/
theorem isPending_of_staffed {rows : List Assignment} (hj : j ∈ (t.staffed jobId rows now).jobs)
    (own : j.id = jobId) : j.isPending = false := by
  obtain ⟨k, hk, rfl⟩ := mem_updateWhere.mp hj
  by_cases hit : (k.id == jobId) = true
  · rw [if_pos hit]
    rfl
  · rw [if_neg hit] at own
    exact absurd (beq_iff_eq.mpr own) hit

end Tables

/-! ## Who can go -/

namespace Promotion

/-- The providers whom locks offer are those who are free and hold one. -/
theorem mem_freeProviderLocks {seen : List String} {usable : List Lock} {id : String} :
    id ∈ (freeProviderLocks t j seen usable).map (·.1) ↔
      id ∉ seen ∧ isFree t j id = true ∧ ∃ l ∈ usable, l.target.providerId? = some id := by
  constructor
  · intro picked
    obtain ⟨pick, hpick, rfl⟩ := List.mem_map.mp picked
    obtain ⟨unseen, free, l, hl, -, target⟩ :=
      (freeProviderLocks_cases t j seen usable).2.2 pick hpick
    exact ⟨unseen, isFree_iff.mpr free, l, hl, target⟩
  · rintro ⟨unseen, free, l, hl, target⟩
    induction usable generalizing seen with
    | nil => exact absurd hl List.not_mem_nil
    | cons k rest ih =>
      -- Either the first lock is one on the provider, or a later one is.
      have later (seen' : List String) (unseen' : id ∉ seen')
          (other : k.target.providerId? ≠ some id) :
          id ∈ (freeProviderLocks t j seen' rest).map (·.1) :=
        ih unseen' ((List.mem_cons.mp hl).resolve_left fun same => other (same ▸ target))
      rw [freeProviderLocks]
      cases first : k.target.providerId? with
      | none => exact later seen unseen (by rw [first]; exact (Option.some_ne_none id).symm)
      | some id' =>
        dsimp only
        by_cases same : id' = id
        · subst same
          rw [if_neg (by simpa using unseen), if_pos free]
          exact List.mem_cons_self
        · have other : k.target.providerId? ≠ some id := fun h => same (Option.some.inj (first ▸ h))
          have unseen' : id ∉ id' :: seen := fun h =>
            (List.mem_cons.mp h).elim (fun h => same h.symm) unseen
          split
          · exact later seen unseen other
          · split
            · exact List.mem_cons_of_mem _ (later _ unseen' other)
            · exact later _ unseen' other

section Fewer

/-! Fewer providers are free, and fewer locks usable. -/

variable {usable usable' : List Lock} (busier : ∀ id, isFree t' j id = true → isFree t j id = true)
include busier

theorem byTeamLock?_eq_none (teams : t'.teams = t.teams) {l : Lock}
    (none : byTeamLock? t j l = none) : byTeamLock? t' j l = Option.none := by
  unfold byTeamLock? Tables.team? at none ⊢
  rw [teams]
  cases target : l.target.teamId? with
  | none => rfl
  | some teamId =>
    rw [target] at none
    cases found : t.teams.find? (·.id == teamId) with
    | none => exact congrArg (Option.bind · _) found
    | some team =>
      simp only [Option.bind_eq_bind, Option.bind_some, found] at none ⊢
      have fewer : (freeMembers t' j team).length ≤ (freeMembers t j team).length :=
        (List.monotone_filter_right _ busier).length_le
      split at none
      · cases none
      · next short =>
        rw [if_neg]
        omega

theorem byProviderLocks?_eq_none (fewer : ∀ l ∈ usable', l ∈ usable)
    (none : byProviderLocks? t j usable = none) : byProviderLocks? t' j usable' = Option.none := by
  have atMost : ((freeProviderLocks t' j [] usable').map (·.1)).length
      ≤ ((freeProviderLocks t j [] usable).map (·.1)).length := by
    refine (freeProviderLocks_cases t' j [] usable').1.length_le_of_subset fun id picked => ?_
    obtain ⟨unseen, free, l, hl, target⟩ := mem_freeProviderLocks.mp picked
    exact mem_freeProviderLocks.mpr ⟨unseen, busier id free, l, fewer l hl, target⟩
  rw [List.length_map, List.length_map] at atMost
  unfold byProviderLocks? at none ⊢
  dsimp only at none ⊢
  split at none
  · cases none
  · rw [if_neg]
    omega

/-- If nobody could go by more locks, nobody can go by these. -/
theorem choice?_eq_none (teams : t'.teams = t.teams) (fewer : ∀ l ∈ usable', l ∈ usable)
    (none : choice? t j usable = none) : choice? t' j usable' = Option.none := by
  unfold choice? at none ⊢
  cases usable' with
  | nil => rfl
  | cons l rest =>
    have some : usable.isEmpty = false := by
      cases usable with
      | nil => exact absurd (fewer l List.mem_cons_self) List.not_mem_nil
      | cons => rfl
    rw [some, if_neg Bool.false_ne_true, Option.orElse_eq_none, List.findSome?_eq_none_iff] at none
    rw [List.isEmpty_cons, if_neg Bool.false_ne_true, Option.orElse_eq_none,
      List.findSome?_eq_none_iff]
    exact ⟨fun k hk => byTeamLock?_eq_none busier teams (none.1 k (fewer k hk)),
      byProviderLocks?_eq_none busier fewer none.2⟩

end Fewer

end Promotion

/-- **No job becomes promotable.** -/
theorem Tables.Narrows.promotable (h : t.Narrows t') (promotable : t'.Promotable now j) :
    t.Promotable now j where
  pending := promotable.pending
  vacant := by
    rw [assignmentsFor_eq_nil]
    exact fun a ha => assignmentsFor_eq_nil.mp promotable.vacant a (h.assignments a ha)
  decided := by
    intro none
    refine promotable.decided (Promotion.choice?_eq_none (fun id free => ?_) h.teams ?_ none)
    · rw [Promotion.isFree_iff] at free ⊢
      unfold hasConflict at free ⊢
      rw [List.any_eq_false] at free ⊢
      exact fun a ha => free a (h.assignments a ha)
    · intro l hl
      obtain ⟨there, own, usable⟩ := mem_usableLocks.mp hl
      have live : l.isLive = true := Lock.isLive_of_isUsable usable
      exact mem_usableLocks.mpr ⟨h.locks l there live, own, usable⟩

/-! ## The calls -/

/-- A lock that is stored, live and lapsed is released; of any other id nothing is done. -/
theorem Locks.expire_cases (idle : s.saved = none) (nodup : (s.tables.locks.map (·.id)).Nodup)
    (fits : s.tables.Fits) (lockId : String) (now : Instant) :
    (∃ l r s', expire lockId now s = .ok (some r) s' ∧ l.id = lockId ∧
        s'.tables = s.tables.released .expired now l) ∨
      (after (expire lockId now) s).tables = s.tables ∧
        (∀ r s', expire lockId now s ≠ .ok (some r) s') ∧
        ∀ l ∈ s.tables.locks, l.id = lockId → ¬ (l.isLive && l.lapsed now) = true := by
  cases found : s.tables.lock? lockId with
  | none =>
    have unknown : expire lockId now s
        = .error (.notFound .lock lockId) (s.begin.rollbackTo s.tables) := by
      refine (Work.atomic_eq_error idle).mpr ⟨s.begin, bind_of_error ?_, rfl⟩
      show Work.found _ _ (s.tables.lock? lockId) s.begin = _
      rw [found]
      rfl
    rw [after_of_error unknown, unknown]
    refine .inr ⟨rfl, fun _ _ never => (by cases never), fun l hl own => ?_⟩
    exact absurd (beq_iff_eq.mpr own) (List.find?_eq_none.mp found l hl)
  | some l =>
    obtain ⟨hl, own⟩ := mem_of_find?_key found
    have read : Work.demand .lock lockId (Tables.lock? · lockId) s.begin = .ok l s.begin :=
      Work.demand_eq_ok.mpr ⟨found, rfl⟩
    by_cases lapsed : (l.isLive && l.lapsed now) = true
    · obtain ⟨s₁, released⟩ := releaseOne_succeeds (s := s.begin) fits .expired now l
      have expired : expire lockId now s = .ok
          (some { l with status := .released, reason := some .expired, updatedAt := now })
          s₁.commit := by
        refine (Work.atomic_eq_ok idle).mpr ⟨s₁, ?_, rfl⟩
        rw [bind_of_ok read, if_pos lapsed, bind_of_ok released]
        rfl
      exact .inl ⟨l, _, _, expired, own, (releaseOne_eq_ok released).1⟩
    · have spared : expire lockId now s = .ok none s.begin.commit := by
        refine (Work.atomic_eq_ok idle).mpr ⟨s.begin, ?_, rfl⟩
        rw [bind_of_ok read, if_neg lapsed]
        rfl
      rw [after_of_ok spared, spared]
      refine .inr ⟨rfl, fun _ _ never => (by cases never), fun k hk same => ?_⟩
      rw [eq_of_find?_key nodup found hk same]
      exact lapsed

namespace Engine

/-- An automatic assignment staffs the job, or changes no table and answers no choice. -/
theorem autoAssign_left (ready : e.Ready) (jobId : String) (now : Instant) :
    ((after (autoAssign jobId now) e).store.tables = e.store.tables ∧
        ∀ selection e', autoAssign jobId now e ≠ .ok (some selection) e') ∨
      ∃ rows log, (after (autoAssign jobId now) e).store.tables
        = { e.store.tables.staffed jobId rows now with log } := by
  obtain nothing | ⟨j, selection, e₁, rows, s', -, -, found, -, same, told⟩ :=
    autoAssign_cases ready jobId now
  · exact .inl nothing
  · obtain rfl := (mem_of_find?_key found).2
    obtain ⟨log, frame⟩ := dispatch_frame (e := { e₁ with store := s' }) now
      [.jobMatched j.id selection.providerIds selection.teamId?] same
    exact .inr ⟨rows, log, after_of_ok told ▸ frame⟩

theorem autoAssign_narrows (ready : e.Ready) (jobId : String) (now : Instant) :
    e.store.tables.Narrows (after (autoAssign jobId now) e).store.tables := by
  obtain ⟨same, -⟩ | ⟨rows, log, staffed⟩ := autoAssign_left ready jobId now
  · exact same ▸ .refl _
  · exact Tables.Narrows.congr_log (.staffed _ jobId rows now) staffed

/-- A job for which a choice has been answered does not wait. -/
theorem autoAssign_settles (ready : e.Ready) {selection : Selection}
    (h : autoAssign jobId now e = .ok (some selection) e') (hj : j ∈ e'.store.tables.jobs)
    (own : j.id = jobId) : j.isPending = false := by
  obtain ⟨-, never⟩ | ⟨rows, log, staffed⟩ := autoAssign_left ready jobId now
  · exact absurd h (never selection e')
  · rw [after_of_ok h] at staffed
    rw [staffed] at hj
    exact Tables.isPending_of_staffed hj own

/-- A promotion staffs a job that is promotable and then releases locks, or changes no table and
answers no promotion. -/
theorem promote_left (ready : e.Ready) (jobId : String) (now : Instant) :
    ((after (promote jobId now) e).store.tables = e.store.tables ∧
        ∀ p e', promote jobId now e ≠ .ok (some p) e') ∨
      ∃ j ∈ e.store.tables.jobs, j.id = jobId ∧ e.store.tables.Promotable now j ∧
        ∃ rows, (e.store.tables.staffed jobId rows now).Narrows
            (after (promote jobId now) e).store.tables ∧
          (after (promote jobId now) e).store.tables.jobs
            = (e.store.tables.staffed jobId rows now).jobs := by
  unfold promote
  cases done : Promotion.promote jobId now e.store with
  | error fault s' =>
    rw [after_bind_of_error (onStore_of_error done), bind_of_error (onStore_of_error done)]
    exact .inl ⟨(Work.failsClean_atomic _ _ _ _ ready.idle done).1,
      fun _ _ never => by cases never⟩
  | ok answer s' =>
    rw [after_bind_of_ok (onStore_of_ok done), bind_of_ok (onStore_of_ok done)]
    obtain ⟨-, ⟨rfl, same⟩ | ⟨p, j, choice, rows, s₁, s₂, rfl, -, rfl, decides, staffed,
      settled, tables⟩⟩ := Promotion.promote_ok_cases ready.idle ready.keyed done
    · exact .inl ⟨same, fun _ _ never => by cases (pure_eq_ok.mp never).1⟩
    · have releases : s₁.tables.Narrows s₂.tables := by
        refine (Work.does_each Tables.Narrows.refl (fun _ _ _ h h' => h.trans h') (fun l => ?_) _ _
          _ _ settled).1
        unfold Promotion.settle
        refine Work.does_ite (Work.does_write fun t => .released rfl rfl rfl rfl) ?_
        refine Work.does_bind (fun _ _ _ h h' => h.trans h') (fun s r s' h => ?_) fun _ =>
          Work.does_pure Tables.Narrows.refl _
        obtain ⟨released, saved⟩ := Locks.releaseOne_eq_ok h
        exact ⟨released ▸ .givenBack _ _ now l, saved⟩
      have jobs : s₂.tables.jobs = s₁.tables.jobs :=
        (Promotion.eachSettle_onlyLocks choice.lockIds now _ _ _ _ settled).1.sameDemand.jobs
      obtain ⟨log, frame⟩ := dispatch_frame (e := { e with store := s' }) now [
        .locksPromoted p.jobId p.promotedLockIds p.providerIds p.teamId,
        .jobMatched p.jobId p.providerIds p.teamId] tables
      have promotable : e.store.tables.Promotable now j :=
        ⟨decides.pending, decides.vacant, fun none => by cases decides.chosen.symm.trans none⟩
      refine .inr ⟨j, List.mem_of_find?_eq_some decides.found, rfl, promotable, rows, ?_⟩
      show Tables.Narrows _ (after (dispatch now _ >>= fun _ => pure (some p)) _).store.tables ∧
        (after (dispatch now _ >>= fun _ => pure (some p)) _).store.tables.jobs = _
      rw [after_bind_pure, frame, ← staffed]
      exact ⟨releases.congr_log rfl, jobs⟩

theorem promote_narrows (ready : e.Ready) (jobId : String) (now : Instant) :
    e.store.tables.Narrows (after (promote jobId now) e).store.tables := by
  obtain ⟨same, -⟩ | ⟨_, -, -, -, rows, narrows, -⟩ := promote_left ready jobId now
  · exact same ▸ .refl _
  · exact Tables.Narrows.trans (.staffed _ jobId rows now) narrows

/-- If no job is promotable, a promotion changes no table. -/
theorem promote_idle (ready : e.Ready) (jobId : String)
    (none : ∀ j ∈ e.store.tables.jobs, ¬ e.store.tables.Promotable now j) :
    (after (promote jobId now) e).store.tables = e.store.tables := by
  obtain ⟨same, -⟩ | ⟨j, hj, -, promotable, -⟩ := promote_left ready jobId now
  · exact same
  · exact absurd promotable (none j hj)

/-- A job that a promotion has staffed does not wait. -/
theorem promote_settles (ready : e.Ready) {p : Promotion}
    (h : promote jobId now e = .ok (some p) e') (hj : j ∈ e'.store.tables.jobs)
    (own : j.id = jobId) : j.isPending = false := by
  obtain ⟨-, never⟩ | ⟨_, -, -, -, rows, -, jobs⟩ := promote_left ready jobId now
  · exact absurd h (never p e')
  · rw [after_of_ok h] at jobs
    exact Tables.isPending_of_staffed (jobs ▸ hj) own

/-- After an expiry the lock is not live, or has not lapsed. -/
theorem expireLock_narrows (ready : e.Ready) (fits : e.store.tables.Fits) (lockId : String)
    (now : Instant) :
    e.store.tables.Narrows (after (expireLock lockId now) e).store.tables ∧
      ∀ l ∈ (after (expireLock lockId now) e).store.tables.locks, l.id = lockId →
        ¬ (l.isLive && l.lapsed now) = true := by
  obtain ⟨l, r, s', done, own, released⟩ | ⟨same, never, spared⟩ :=
    Locks.expire_cases ready.idle ready.keyed.locks fits lockId now
  · obtain ⟨log, frame⟩ := dispatch_frame (e := { e with store := s' }) now
      [.locksReleased r.jobId [r.id] ReleaseReason.expired.text] released
    have left : (after (expireLock lockId now) e).store.tables
        = { e.store.tables.released .expired now l with log } := by
      unfold expireLock
      rw [after_bind_of_ok (onStore_of_ok done), ← frame]
      exact congrArg (fun e : Engine => e.store.tables) (after_bind_pure _ (fun _ => some r) _)
    rw [left]
    refine ⟨.congr_log (.givenBack _ .expired now l) rfl, fun k hk same => ?_⟩
    rw [Tables.released_frame] at hk
    obtain ⟨old, hold, rfl⟩ := mem_updateWhere.mp hk
    by_cases hit : (old.id == l.id) = true
    · rw [if_pos hit]
      exact Bool.false_ne_true
    · rw [if_neg hit] at same
      exact absurd (beq_iff_eq.mpr (same.trans own.symm)) hit
  · have left : (after (expireLock lockId now) e).store.tables = e.store.tables := by
      unfold expireLock
      cases done : Locks.expire lockId now e.store with
      | error fault s' =>
        rw [after_of_error done] at same
        rw [after_bind_of_error (onStore_of_error done)]
        exact same
      | ok answer s' =>
        rw [after_of_ok done] at same
        rw [after_bind_of_ok (onStore_of_ok done)]
        cases answer with
        | none => exact same
        | some r => exact absurd done (never r s')
    rw [left]
    exact ⟨.refl _, spared⟩

/-- After a failed attempt has been counted, the job has been changed since `staleBefore` unless it
does not wait. -/
theorem recordFailure_dwindles (ready : e.Ready) (later : staleBefore.wholeSecond < now.wholeSecond)
    (j : Job) (maxRetries : Nat) :
    let t' := (after (Sweep.recordFailure j maxRetries now staleBefore) e).store.tables
    e.store.tables.Dwindles t' ∧ ∀ k ∈ t'.jobs, k.isPending = true →
      k.updatedAt ≤ staleBefore.wholeSecond → k ∈ e.store.tables.jobs ∧ k.id ≠ j.id := by
  intro t'
  obtain ⟨team, e₁, events, s', -, -, left, -, counted⟩ :=
    recordFailure_notes ready.idle ready.quiet j maxRetries now staleBefore
  obtain ⟨log, frame⟩ := dispatch_frame (e := { e₁ with store := s' }) now events rfl
  have tables : t' = { s'.tables with log } := by
    rw [← frame, ← left]
  rw [tables]
  rcases counted with ⟨-, same, fresh⟩ | ⟨stored, found, pending, -, -, same⟩
  · rw [same]
    refine ⟨(Tables.Narrows.congr_log (.refl _) rfl).dwindles, fun k hk waits since => ⟨hk, ?_⟩⟩
    intro own
    have changed := fresh k ((find?_key_eq_some ready.keyed.jobs).mpr ⟨hk, own⟩) waits
    have := Instant.wholeSecond_mono since
    rw [Instant.wholeSecond_wholeSecond] at this
    exact absurd changed (not_lt.mpr this)
  · obtain ⟨hstored, own⟩ := mem_of_find?_key found
    rw [same]
    constructor
    · refine ⟨fun k hk waits => ?_, fun _ hl _ => hl⟩
      obtain ⟨old, hold, rfl⟩ := mem_updateWhere.mp hk
      refine ⟨old, hold, ?_⟩
      split at waits
      · next hit => exact ⟨waits, by rw [if_pos hit]⟩
      · next miss => exact ⟨waits, by rw [if_neg miss]⟩
    · intro k hk waits since
      obtain ⟨old, hold, rfl⟩ := mem_updateWhere.mp hk
      by_cases hit : (old.id == stored.id) = true
      · have since : now.wholeSecond ≤ staleBefore.wholeSecond := by
          have hit' : (old.id == (Sweep.afterFailure stored maxRetries team now).1.id) = true := hit
          rw [if_pos hit'] at since
          exact since
        exact absurd since (not_le.mpr later)
      · have miss : ¬ (old.id == (Sweep.afterFailure stored maxRetries team now).1.id) = true := hit
        rw [if_neg miss]
        exact ⟨hold, fun same => hit (beq_iff_eq.mpr (same.trans own.symm))⟩

end Engine

end Staffing
