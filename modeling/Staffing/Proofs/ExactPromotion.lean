import Staffing.Proofs.Leftovers
import Staffing.Proofs.Picking

/-!
# What a promotion does, exactly

A promotion of a stored job staffs it exactly if the job waits, has no assignment that stands, and
its usable locks are on a team with enough free members or name enough free providers. Otherwise it
changes nothing.

* `Promotion.eachSettle_locks` — the live locks of a promoted job are released, and no others
* `Tables.Promotes` — all that a promotion has changed
* `Tables.promotable_iff` — when it can
* `promotion_exact` — it does that, and exactly then
-/

namespace Staffing

variable {now : Instant} {t t' : Tables} {s s' : Store} {e e' : Engine} {j : Job} {jobId : String}
  {past : List (Engine × Operation)}

/-- The lock as a promotion of its job leaves it. -/
def Lock.promoted (now : Instant) (l : Lock) : Lock :=
  { l with status := .released, reason := some .promoted, updatedAt := now.wholeSecond }

/-- The state of a stored lock is set when its job is promoted. -/
theorem Locks.setLockState_promoted {l : Lock} (nodup : (t.locks.map (·.id)).Nodup)
    (hl : l ∈ t.locks) (whole : l.expiresAt.wholeSecond = l.expiresAt) :
    (t.setLockState l.id .released (some .promoted) l.expiresAt now).locks
      = t.locks.map fun k => if k.id = l.id then k.promoted now else k :=
  setLockState_ended nodup hl whole .promoted now

/-- **All live locks of a promoted job are released,** and other locks stay as they are. -/
theorem Promotion.eachSettle_locks {deciding : List String} {live : List Lock} {u : Unit}
    (nodup : (s.tables.locks.map (·.id)).Nodup) (distinct : (live.map (·.id)).Nodup)
    (stored : ∀ l ∈ live, l ∈ s.tables.locks ∧ l.expiresAt.wholeSecond = l.expiresAt)
    (h : Work.each (settle deciding now) live s = .ok u s') :
    s'.tables.locks
      = s.tables.locks.map fun k => if k.id ∈ live.map (·.id) then k.promoted now else k := by
  induction live generalizing s with
  | nil =>
    obtain ⟨-, rfl⟩ := pure_eq_ok.mp h
    simp
  | cons l rest ih =>
    obtain ⟨_, s₁, first, others⟩ := bind_eq_ok.mp h
    obtain ⟨new, distinctRest⟩ := List.nodup_cons.mp distinct
    obtain ⟨hl, whole⟩ := stored l List.mem_cons_self
    obtain ⟨-, -, -, settled⟩ := settle_ok_cases first
    have later : ∀ k ∈ rest, k ∈ s₁.tables.locks ∧ k.expiresAt.wholeSecond = k.expiresAt := by
      intro k hk
      obtain ⟨there, whole⟩ := stored k (List.mem_cons_of_mem _ hk)
      rw [settled]
      refine ⟨Locks.mem_setLockState_of_ne (fun same => new ?_) there, whole⟩
      exact List.mem_map.mpr ⟨k, hk, same⟩
    have nodup₁ : (s₁.tables.locks.map (·.id)).Nodup := by
      rw [settled, Tables.lockIds_setLockState]
      exact nodup
    rw [ih nodup₁ distinctRest later others, settled, Locks.setLockState_promoted nodup hl whole,
      List.map_map]
    refine List.map_congr_left fun k hk => ?_
    rw [Function.comp_apply, List.map_cons]
    by_cases same : k.id = l.id
    · have mine : (k.promoted now).id = l.id := same
      rw [if_pos same, mine, if_neg new, if_pos (same ▸ List.mem_cons_self)]
    · rw [if_neg same]
      simp [same]

namespace Tables

/-- All that a promotion of the job has changed, when it answers `p`. -/
structure Promotes (t t' : Tables) (j : Job) (p : Promotion) (now : Instant) : Prop where
  jobId : p.jobId = j.id
  picks : t.Picks j (t.confirmedLocks j.id now) p.teamId p.providerIds p.promotedLockIds
  /-- The assignments are scheduled, one for each of the providers. -/
  staffs : t.Staffs j p.teamId p.providerIds now p.assignments
  assignments : t'.assignments = t.assignments ++ p.assignments.map Assignment.stored
  jobs : t'.jobs = (t.markMatched j.id now).jobs
  locks : t'.locks = t.locks.map fun l =>
    if l.jobId = j.id ∧ l.isLive = true then l.promoted now else l
  /-- Of the live locks those that did not decide give their units back. -/
  takesOff :
    t.TakesOff ((t.locksFor j.id none false).filter fun l => !p.promotedLockIds.contains l.id) t'
  released : p.releasedLockIds
    = ((t.locksFor j.id none false).filter fun l => !p.promotedLockIds.contains l.id).map (·.id)
  others : t'.providers = t.providers ∧ t'.teams = t.teams ∧ t'.settings = t.settings

/-- **When a job can be promoted.** -/
theorem promotable_iff (lockExpiries : t.ExpiriesWhole) (whole : t.InSeconds j)
    (some : 1 ≤ j.requiredMembers) : t.Promotable now j ↔ j.isPending = true ∧
      (∀ a ∈ t.assignments, a.jobId = j.id → a.status = .cancelled) ∧
      ((∃ l ∈ t.confirmedLocks j.id now, t.Suffices j l) ∨
        t.NamesEnough j (t.confirmedLocks j.id now)) := by
  have vacant : t.assignmentsFor j.id = [] ↔
      ∀ a ∈ t.assignments, a.jobId = j.id → a.status = .cancelled := by
    rw [assignmentsFor_eq_nil]
    simp [Assignment.isLive]
  have decided : (Promotion.choice? t j (t.confirmedLocks j.id now)).isSome = true ↔ _ :=
    Promotion.choice?_isSome_iff whole some
  rw [Option.isSome_iff_ne_none, ← usableLocks_eq lockExpiries] at decided
  rw [← vacant, ← usableLocks_eq lockExpiries, ← decided]
  constructor
  · intro h
    exact ⟨h.pending, h.vacant, h.decided⟩
  · rintro ⟨waits, vacant, decides⟩
    exact ⟨waits, vacant, decides⟩

end Tables

/-- **A promotion changes all that, and nothing else.** -/
theorem Run.promote_promotes (run : Run past e) (found : e.store.tables.job? jobId = some j)
    {p : Promotion} (h : Engine.promote jobId now e = .ok (some p) e') :
    e.store.tables.Promotes e'.store.tables j p now := by
  have frees := Engine.promote_frees run.ready ⟨_, run.sound⟩ h
  obtain ⟨s', done, told⟩ := Engine.promote_eq_some.mp h
  obtain ⟨-, ⟨never, -⟩ | ⟨p', j', choice, rows, s₁, s₂, answered, made, own, decides, tables₁,
    settled, tables⟩⟩ := Promotion.promote_ok_cases run.ready.idle run.ready.keyed done
  · cases never
  obtain rfl : p = p' := Option.some.inj answered
  obtain rfl : j' = j := Option.some.inj ((own ▸ decides.found).symm.trans found)
  subst own
  obtain ⟨log, frame⟩ := Engine.dispatch_frame (e := { e with store := s' }) now [
    .locksPromoted p.jobId p.promotedLockIds p.providerIds p.teamId,
    .jobMatched p.jobId p.providerIds p.teamId] tables
  rw [← told] at frame
  obtain ⟨⟨plans, slots, locks, only⟩, -⟩ :=
    Promotion.eachSettle_onlyLocks _ _ _ _ _ _ settled
  have picks := Promotion.choice?_picks run.ready.keyed.toRosterKeyed
    (run.inSeconds (List.mem_of_find?_eq_some found)) decides.chosen
  have usable := Tables.usableLocks_eq run.expiriesWhole j'.id now
  unfold Tables.usableLocks at usable
  rw [usable] at picks
  -- Staffing the job has left the locks alone, so they are settled as they were read.
  have asBefore : s₁.tables.locks = e.store.tables.locks := by
    rw [tables₁]
    rfl
  have ended := Promotion.eachSettle_locks (asBefore ▸ run.ready.keyed.locks)
    (Locks.locksFor_nodup run.ready.keyed.locks j'.id none false)
    (fun l hl => ⟨asBefore ▸ (Locks.mem_locksFor hl).1,
      run.expiriesWhole l (Locks.mem_locksFor hl).1⟩) settled
  rw [made] at frees ⊢
  refine ⟨rfl, picks, decides.staffs, ?_, ?_, ?_, frees.takesOff, List.filter_map, ?_⟩
  · rw [frame, only, tables₁]
    rfl
  · rw [frame, only, tables₁]
    rfl
  · rw [frame, ended, asBefore]
    refine List.map_congr_left fun l hl => ?_
    have mine : l.id ∈ (e.store.tables.locksFor j'.id none false).map (·.id) ↔
        l.jobId = j'.id ∧ l.isLive = true := by
      rw [List.mem_map]
      constructor
      · rintro ⟨k, hk, same⟩
        obtain rfl :=
          List.inj_on_of_nodup_map run.ready.keyed.locks (Locks.mem_locksFor hk).1 hl same
        simpa [Tables.locksFor, hl] using hk
      · intro own
        exact ⟨l, by simpa [Tables.locksFor, hl] using own, rfl⟩
    simp only [mine]
  · rw [frame, only, tables₁]
    exact ⟨rfl, rfl, rfl⟩

/-- **Promotion is exact.** In every state that a run reaches, a promotion of a stored job succeeds.
It staffs the job exactly if the job waits, has no assignment that is not cancelled, and either a
usable lock is on a team with enough free members or the usable locks name enough different free
providers. Then it picks the earliest such team lock and the first free members in order, or without
one the first free providers named, each by the first lock on him. It stores these assignments,
marks the job as matched, releases all live locks of the job, and takes the units of those that did
not decide off their slots and plans. Otherwise it changes no table. -/
theorem promotion_exact (run : Run past e) (found : e.store.tables.job? jobId = some j)
    (now : Instant) :
    ∃ answer e', Engine.promote jobId now e = .ok answer e' ∧
      (answer.isSome = true ↔ j.isPending = true ∧
        (∀ a ∈ e.store.tables.assignments, a.jobId = jobId → a.status = .cancelled) ∧
        ((∃ l ∈ e.store.tables.confirmedLocks jobId now, e.store.tables.Suffices j l) ∨
          e.store.tables.NamesEnough j (e.store.tables.confirmedLocks jobId now))) ∧
      (answer = none → e'.store.tables = e.store.tables) ∧
      ∀ p, answer = some p → e.store.tables.Promotes e'.store.tables j p now := by
  obtain ⟨hj, own⟩ := mem_of_find?_key found
  have can : e.store.tables.Promotable now j ↔ _ :=
    Tables.promotable_iff run.expiriesWhole (run.inSeconds hj) (run.asksForSome j hj)
  rw [own] at can
  rcases run.promote_answers now found with ⟨promotable, p, e', done⟩ | ⟨not, e', done, same⟩
  · refine ⟨some p, e', done, ?_, fun never => (by cases never), ?_⟩
    · exact iff_of_true rfl (can.mp promotable)
    · rintro _ ⟨⟩
      exact run.promote_promotes found done
  · refine ⟨none, e', done, ?_, fun _ => same, fun p never => (by cases never)⟩
    exact iff_of_false Bool.false_ne_true fun h => not (can.mpr h)

/-- A job with confirmed locks, first on a provider and then on a team. -/
def Sample.lockedBothWays : List Operation := [
  .insertProvider (provider "ada"), .insertProvider (provider "bob"),
  .createTeam admin (team ["ada"]), .createJob (job 9),
  .createLocks admin (idText "job" 1) ⟨.providers ["bob"], none⟩,
  .createLocks admin (idText "job" 1) ⟨.team (idText "team" 0) none, none⟩,
  .confirmLocks admin (idText "job" 1) none]

/-- The lock on the team decides, although the other one came first. -/
theorem promotion_exact_lockedBothWays : ∃ past e j p e', Run past e ∧
    e.store.tables.job? (idText "job" 1) = some j ∧
    Engine.promote (idText "job" 1) 0 e = .ok (some p) e' ∧ p.providerIds = ["ada"] ∧
    e.store.tables.Promotes e'.store.tables j p 0 := by
  obtain ⟨e, left⟩ : ∃ e, e = Operation.afterAll Sample.lockedBothWays Sample.engine := ⟨_, rfl⟩
  have run : Run (Operation.trace Sample.lockedBothWays Sample.engine) e := left ▸
    Run.of_operations rfl rfl (fun _ _ _ => rfl)
      (by simp [Sample.lockedBothWays, Operation.IsAdmissible])
  obtain ⟨known, sends⟩ : (e.store.tables.job? (idText "job" 1)).isSome = true ∧
      (answer? (Engine.promote (idText "job" 1) 0) e).map (·.map (·.providerIds))
        = some (some ["ada"]) := by
    rw [left]
    decide +kernel
  obtain ⟨j, found⟩ := Option.isSome_iff_exists.mp known
  obtain ⟨answer, e', done, -, -, promotes⟩ := promotion_exact run found 0
  have answered : answer.map (·.providerIds) = some ["ada"] := by
    unfold answer? at sends
    rw [done] at sends
    exact Option.some.inj sends
  obtain ⟨p, rfl, providers⟩ := Option.map_eq_some_iff.mp answered
  exact ⟨_, e, j, p, e', run, found, done, providers, promotes p rfl⟩

end Staffing
