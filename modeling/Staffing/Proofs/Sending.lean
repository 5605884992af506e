import Staffing.Proofs.Operations

/-!
# What staffing a job leaves

Assignments are made by commits of choices and by promotions. Either adds those of its choice, or
none at all, and touches no lock of another job.

* `Tables.Sends` — a job has been staffed, and other jobs were spared
* `Engine.commitChoice_sends`, `Engine.promote_sends` — that, or no assignment was added
-/

namespace Staffing

variable {now : Instant} {t t' : Tables} {s s' : Store} {e : Engine} {j : Job} {a : Assignment}

namespace Tables

/-- Jobs have not moved, and locks of other jobs are as before. -/
structure Spares (jobId : String) (t t' : Tables) : Prop where
  stay : t.JobsStay t'
  others : ∀ l : Lock, l.jobId ≠ jobId → (l ∈ t'.locks ↔ l ∈ t.locks)

/-- The job has been staffed with these assignments; other jobs have not moved, nor have their locks
changed. -/
structure Sends (t t' : Tables) (j : Job) (teamId : Option String) (providerIds : List String)
    (now : Instant) : Prop where
  staffs : ∃ rows, t.Staffs j teamId providerIds now rows ∧
    t'.assignments = t.assignments ++ rows.map Assignment.stored
  spares : t.Spares j.id t'

/-- What a new assignment is. -/
theorem Sends.mem_new {teamId : Option String} {providerIds : List String}
    (h : t.Sends t' j teamId providerIds now) (there : a ∈ t'.assignments)
    (new : a ∉ t.assignments) : a.jobId = j.id ∧ a.teamId = teamId ∧ a.providerId ∈ providerIds ∧
      a.window = j.window.wholeSeconds := by
  obtain ⟨rows, staffs, added⟩ := h.staffs
  rw [added, List.mem_append] at there
  obtain ⟨row, hrow, rfl⟩ := List.mem_map.mp (there.resolve_left new)
  have sent : row.providerId ∈ providerIds := by
    rw [← staffs.providers]
    exact List.mem_map.mpr ⟨row, hrow, rfl⟩
  refine ⟨?_, ?_, sent, ?_⟩ <;> rw [staffs.scheduled row hrow] <;> rfl

end Tables

/-! ## Settling the locks of a promoted job -/

namespace Tables

/-- Jobs and assignments are as before, and so are the locks of other jobs. -/
structure Settles (jobId : String) (t t' : Tables) : Prop where
  jobs : t'.jobs = t.jobs
  assignments : t'.assignments = t.assignments
  others : ∀ l : Lock, l.jobId ≠ jobId → (l ∈ t'.locks ↔ l ∈ t.locks)

theorem Settles.refl (jobId : String) (t : Tables) : t.Settles jobId t :=
  ⟨rfl, rfl, fun _ _ => .rfl⟩

theorem Settles.trans {jobId : String} {u : Tables} (h : t.Settles jobId t')
    (h' : t'.Settles jobId u) : t.Settles jobId u where
  jobs := h'.jobs.trans h.jobs
  assignments := h'.assignments.trans h.assignments
  others := fun l other => (h'.others l other).trans (h.others l other)

/-- The lock is one of the job's, among locks of different ids. -/
structure HasOwn (jobId : String) (t : Tables) (l : Lock) : Prop where
  nodup : (t.locks.map (·.id)).Nodup
  mem : l ∈ t.locks
  own : l.jobId = jobId

end Tables

namespace Locks

/-- Setting the state of a lock of the job leaves the locks of other jobs as they are. -/
theorem mem_setLockState_of_other {l : Lock} (nodup : (t.locks.map (·.id)).Nodup) (hl : l ∈ t.locks)
    (status : LockStatus) (reason : Option ReleaseReason) (expiresAt : Instant) {k : Lock}
    (other : k.jobId ≠ l.jobId) :
    k ∈ (t.setLockState l.id status reason expiresAt now).locks ↔ k ∈ t.locks := by
  constructor
  · intro hk
    obtain ⟨q, hq, rfl⟩ := mem_updateWhere.mp hk
    by_cases hit : (q.id == l.id) = true
    · rw [if_pos hit] at other
      obtain rfl : q = l := List.inj_on_of_nodup_map nodup hq hl (by simpa using hit)
      exact absurd rfl other
    · rw [if_neg hit]
      exact hq
  · intro hk
    refine mem_setLockState_of_ne (fun same => ?_) hk
    obtain rfl : k = l := List.inj_on_of_nodup_map nodup hk hl same
    exact other rfl

end Locks

namespace Promotion

theorem settle_ok_cases {deciding : List String} {l : Lock} {u : Unit}
    (h : settle deciding now l s = .ok u s') : s'.saved = s.saved ∧
      s'.tables.jobs = s.tables.jobs ∧ s'.tables.assignments = s.tables.assignments ∧
      s'.tables.locks
        = (s.tables.setLockState l.id .released (some .promoted) l.expiresAt now).locks := by
  unfold settle at h
  split at h
  · rw [Work.write_eq_ok] at h
    subst h
    exact ⟨rfl, rfl, rfl, rfl⟩
  · simp only [bind_eq_ok, pure_eq_ok] at h
    obtain ⟨r, _, released, -, rfl⟩ := h
    obtain ⟨tables, saved⟩ := Locks.releaseOne_eq_ok released
    rw [tables, Tables.released_frame]
    exact ⟨saved, rfl, rfl, rfl⟩

/-- A lock of the job is settled; ids stay unique, and the other locks of the job stay its own. -/
theorem settle_settles {deciding : List String} {jobId : String} {l : Lock} {u : Unit}
    (ready : s.tables.HasOwn jobId l) (h : settle deciding now l s = .ok u s') :
    s.tables.Settles jobId s'.tables ∧ s'.saved = s.saved ∧
      ∀ k : Lock, k.id ≠ l.id → s.tables.HasOwn jobId k → s'.tables.HasOwn jobId k := by
  obtain ⟨saved, jobs, assignments, locks⟩ := settle_ok_cases h
  refine ⟨⟨jobs, assignments, fun k other => ?_⟩, saved, fun k differ hk => ⟨?_, ?_, hk.own⟩⟩
  · rw [locks]
    exact Locks.mem_setLockState_of_other ready.nodup ready.mem _ _ _ (ready.own ▸ other)
  · rw [locks, Tables.lockIds_setLockState]
    exact hk.nodup
  · rw [locks]
    exact Locks.mem_setLockState_of_ne differ hk.mem

/-- All live locks of a job are settled. -/
theorem eachSettle_settles {deciding : List String} {jobId : String} {u : Unit}
    (nodup : (s.tables.locks.map (·.id)).Nodup)
    (h : Work.each (settle deciding now) (s.tables.locksFor jobId none false) s = .ok u s') :
    s.tables.Settles jobId s'.tables := by
  have ready : ∀ l ∈ s.tables.locksFor jobId none false, s.tables.HasOwn jobId l := by
    intro l hl
    refine ⟨nodup, (Locks.mem_locksFor hl).1, ?_⟩
    simp only [Tables.locksFor, List.mem_filter, Bool.and_eq_true, beq_iff_eq] at hl
    exact hl.2.1.1
  have trans : ∀ t u v : Tables, t.Settles jobId u → u.Settles jobId v → t.Settles jobId v :=
    fun _ _ _ h h' => h.trans h'
  exact (Work.each_ok_cases (Tables.Settles.refl jobId) trans (fun _ _ _ _ => settle_settles)
    (Locks.locksFor_nodup nodup jobId none false) ready h).1

end Promotion

/-! ## Staffing a job -/

namespace Engine

/-- A commit adds no assignment, or those of its choice, to providers whom nobody else holds. -/
theorem commitChoice_sends (ready : e.Ready) {choice : Option (Job × Selection)}
    (fits : ∀ j selection, choice = some (j, selection) →
      selection.providerIds.Nodup ∧ selection.providerIds.length = j.requiredMembers) :
    (after (commitChoice now choice) e).store.tables.assignments = e.store.tables.assignments ∨
      ∃ j selection, choice = some (j, selection) ∧
        e.store.tables.Sends (after (commitChoice now choice) e).store.tables j selection.teamId?
          selection.providerIds now ∧
        ∀ id ∈ selection.providerIds,
          e.store.tables.providerLocked id j.window now (some j.id) = false := by
  obtain ⟨same, -⟩ | ⟨j, selection, rows, s', rfl, commits, same, told⟩ :=
    commitChoice_cases ready.idle now fits
  · exact .inl (congrArg Tables.assignments same)
  · obtain ⟨log, frame⟩ := dispatch_frame (e := { e with store := s' }) now
      [.jobMatched j.id selection.providerIds selection.teamId?] same
    refine .inr ⟨j, selection, rfl, ?_, commits.unlocked⟩
    rw [after_of_ok told, frame]
    exact ⟨⟨rows, commits.staffs, rfl⟩, commits.calm.jobsStay.congr rfl, fun _ _ => .rfl⟩

/-- A promotion adds no assignment, or those of its choice. -/
theorem promote_sends (ready : e.Ready) (jobId : String) (now : Instant) :
    (after (promote jobId now) e).store.tables.assignments = e.store.tables.assignments ∨
      ∃ j choice rows, j.id = jobId ∧ Promotion.Decides e.store.tables j choice now rows ∧
        e.store.tables.Sends (after (promote jobId now) e).store.tables j choice.teamId
          choice.providerIds now := by
  unfold promote
  cases done : Promotion.promote jobId now e.store with
  | error fault s' =>
    rw [after_bind_of_error (onStore_of_error done)]
    obtain ⟨tables, -⟩ := Work.failsClean_atomic _ _ _ _ ready.idle done
    exact .inl (congrArg Tables.assignments tables)
  | ok answer s' =>
    rw [after_bind_of_ok (onStore_of_ok done)]
    obtain ⟨-, ⟨rfl, same⟩ | ⟨p, j, choice, rows, s₁, s₂, rfl, -, rfl, decides, tables₁, settled,
      tables⟩⟩ := Promotion.promote_ok_cases ready.idle ready.keyed done
    · exact .inl (congrArg Tables.assignments same)
    · refine .inr ⟨j, choice, rows, rfl, decides, ?_⟩
      have staffed : Calm now e.store.tables (e.store.tables.staffed j.id rows now) :=
        .staff decides.found decides.pending decides.vacant decides.chosen decides.staffs
      -- Staffing the job leaves the locks alone, so they are settled as they were read.
      have asRead : s₁.tables.locksFor j.id none false
          = e.store.tables.locksFor j.id none false := by
        rw [tables₁]
        rfl
      have nodup : (s₁.tables.locks.map (·.id)).Nodup := by
        rw [tables₁]
        exact ready.keyed.locks
      rw [← asRead] at settled
      obtain ⟨jobs, assignments, others⟩ := Promotion.eachSettle_settles nodup settled
      rw [tables₁] at jobs assignments others
      obtain ⟨log, frame⟩ := dispatch_frame (e := { e with store := s' }) now [
          .locksPromoted p.jobId p.promotedLockIds p.providerIds p.teamId,
          .jobMatched p.jobId p.providerIds p.teamId] tables
      show e.store.tables.Sends (after (do
        dispatch now _
        pure (some p)) _).store.tables j choice.teamId choice.providerIds now
      rw [after_bind_pure, frame]
      exact ⟨⟨rows, decides.staffs, assignments⟩, staffed.jobsStay.congr jobs, others⟩

end Engine

end Staffing
