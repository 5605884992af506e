import Staffing.Proofs.Rows
import Staffing.Proofs.Step

/-!
# Writes

When the tables take a row, and what the writes leave alone.

* `insertJob_eq_ok`, `insertSlot_eq_ok`, … — the new row was free of clashes and stands at the end
* `upsertPlan_ok_cases` — a plan is updated, or new
* `giveBack_frame`, `cancelled_frame` — which tables a change of several writes touches
-/

namespace Staffing.Tables

variable {t t' : Tables}

/-- A guarded write that is done. -/
theorem guarded_eq_ok {refused : Bool} {fault : Fault} {t₁ : Tables} :
    (if refused then .error fault else .ok t₁ : Except Fault Tables) = .ok t' ↔
      refused = false ∧ t' = t₁ := by
  cases refused with
  | true => simp
  | false => simp [eq_comm]

/-! ## New rows -/

theorem insertJob_eq_ok {j : Job} : t.insertJob j = .ok t' ↔
    (∀ k ∈ t.jobs, k.id ≠ j.id) ∧ j.start.wholeSecond < j.stop.wholeSecond ∧
      t' = { t with jobs := t.jobs ++ [j.stored] } := by
  unfold insertJob
  rw [guarded_eq_ok, Bool.or_eq_false_iff, hasJob, any_key_eq_false, and_assoc,
    decide_eq_false_iff_not, Int.not_le]

theorem insertAssignment_eq_ok {a : Assignment} : t.insertAssignment a = .ok t' ↔
    (∀ b ∈ t.assignments, b.id ≠ a.id) ∧ t.hasJob a.jobId = true ∧
      t.hasProvider a.providerId = true ∧
      t' = { t with assignments := t.assignments ++ [a.stored] } := by
  unfold insertAssignment
  rw [guarded_eq_ok, Bool.or_eq_false_iff, Bool.or_eq_false_iff, any_key_eq_false, and_assoc,
    and_assoc, Bool.not_eq_false', Bool.not_eq_false']

theorem insertLock_eq_ok {l : Lock} : t.insertLock l = .ok t' ↔
    (∀ k ∈ t.locks, k.id ≠ l.id) ∧ t.hasJob l.jobId = true ∧ l.count ≠ 0 ∧
      (∀ slotId, l.target.slotId? = some slotId → ∃ s ∈ t.slots, s.id = slotId) ∧
      t' = { t with locks := t.locks ++ [l.stored] } := by
  unfold insertLock
  rw [guarded_eq_ok, Bool.or_eq_false_iff, Bool.or_eq_false_iff, Bool.or_eq_false_iff,
    any_key_eq_false, and_assoc, and_assoc, and_assoc, Bool.not_eq_false']
  cases l.target.slotId? <;> simp

theorem insertSlot_eq_ok {s : Slot} : t.insertSlot s = .ok t' ↔
    (∀ r ∈ t.slots, r.id ≠ s.id) ∧ (∀ r ∈ t.slots, isSlotAt s.teamId s.window r = false) ∧
      t.hasTeam s.teamId = true ∧ (∃ p ∈ t.plans, p.id = s.planId) ∧
      t' = { t with slots := t.slots ++ [s.stored] } := by
  unfold insertSlot
  rw [guarded_eq_ok, Bool.or_eq_false_iff, Bool.or_eq_false_iff, Bool.or_eq_false_iff,
    any_key_eq_false, and_assoc, and_assoc, and_assoc, Bool.not_eq_false', Bool.not_eq_false',
    any_key, List.any_eq_false]
  simp

/-- A plan is updated, or new. -/
theorem upsertPlan_ok_cases {id teamId : String} {d : Day} {capacity : Nat}
    (h : t.upsertPlan id teamId d capacity = .ok t') : t.hasTeam teamId = true ∧
    ((∃ p ∈ t.plans, isPlanOf teamId d p = true) ∧
        t' = { t with
          plans := updateWhere (isPlanOf teamId d) (fun p => { p with capacity }) t.plans } ∨
      (∀ p ∈ t.plans, isPlanOf teamId d p = false) ∧ (∀ p ∈ t.plans, p.id ≠ id) ∧
        t' = { t with plans := t.plans ++ [⟨id, teamId, d, capacity, 0⟩] }) := by
  unfold upsertPlan at h
  by_cases team : t.hasTeam teamId = true
  · refine ⟨team, ?_⟩
    rw [team, Bool.not_true, if_neg Bool.false_ne_true] at h
    by_cases known : t.plans.any (isPlanOf teamId d) = true
    · rw [if_pos known] at h
      exact .inl ⟨List.any_eq_true.mp known, (Except.ok.inj h).symm⟩
    · rw [if_neg known] at h
      obtain ⟨free, ht⟩ := guarded_eq_ok.mp h
      refine .inr ⟨fun p hp => ?_, any_key_eq_false.mp free, ht⟩
      exact Bool.eq_false_iff.mpr fun hit => known (List.any_eq_true.mpr ⟨p, hp, hit⟩)
  · rw [Bool.eq_false_iff.mpr team, Bool.not_false, if_pos rfl] at h
    cases h

/-! ## Keys of updated rows -/

theorem lockIds_setLockState (id : String) (status : LockStatus) (reason : Option ReleaseReason)
    (expiresAt now : Instant) (t : Tables) :
    (t.setLockState id status reason expiresAt now).locks.map (·.id) = t.locks.map (·.id) := by
  refine map_updateWhere ?_ t.locks
  exact fun _ => rfl

theorem slotIds_adjustBooking (s : Slot) (delta : Int) (t : Tables) :
    (t.adjustBooking s delta).slots.map (·.id) = t.slots.map (·.id) := by
  refine map_updateWhere ?_ t.slots
  exact fun _ => rfl

theorem planIds_adjustBooking (s : Slot) (delta : Int) (t : Tables) :
    (t.adjustBooking s delta).plans.map (·.id) = t.plans.map (·.id) := by
  refine map_updateWhere ?_ t.plans
  exact fun _ => rfl

theorem slotIds_setSlotCapacity (id : String) (capacity : Nat) (t : Tables) :
    (t.setSlotCapacity id capacity).slots.map (·.id) = t.slots.map (·.id) := by
  refine map_updateWhere ?_ t.slots
  exact fun _ => rfl

theorem slotIds_giveBack (l : Lock) (t : Tables) :
    (t.giveBack l).slots.map (·.id) = t.slots.map (·.id) := by
  unfold giveBack
  split
  · exact slotIds_adjustBooking _ _ t
  · rfl

theorem planIds_giveBack (l : Lock) (t : Tables) :
    (t.giveBack l).plans.map (·.id) = t.plans.map (·.id) := by
  unfold giveBack
  split
  · exact planIds_adjustBooking _ _ t
  · rfl

/-! ## Frames -/

/-- Giving units back touches slots and plans only. -/
theorem giveBack_frame (l : Lock) (t : Tables) :
    t.giveBack l = { t with slots := (t.giveBack l).slots, plans := (t.giveBack l).plans } := by
  unfold giveBack
  split <;> rfl

/-- Releasing touches slots, plans and the lock. -/
theorem released_frame (reason : ReleaseReason) (now : Instant) (l : Lock) (t : Tables) :
    t.released reason now l = { t with
      slots := (t.giveBack l).slots
      plans := (t.giveBack l).plans
      locks := (t.setLockState l.id .released (some reason) l.expiresAt now).locks } := by
  unfold released
  rw [giveBack_frame]
  rfl

/-- Cancelling changes the status of the job's live assignments and of the job. -/
theorem cancelled_eq (jobId : String) (now : Instant) (t : Tables) :
    t.cancelled jobId now = { t with
      assignments := t.assignments.map fun a : Assignment =>
        if (t.assignmentsFor jobId).any (·.id == a.id) then { a with status := .cancelled }
        else a }.setJobStatus jobId .cancelled now := by
  -- The live assignments are cancelled one by one, so the induction is on any list of them.
  suffices ∀ (live : List Assignment) (t : Tables),
      live.foldl (fun t a => t.setAssignmentStatus a.id .cancelled) t
        = { t with assignments := t.assignments.map fun a =>
            if live.any (·.id == a.id) then { a with status := .cancelled } else a } by
    unfold cancelled
    rw [this]
  intro live
  induction live with
  | nil => exact fun t => congrArg (fun assignments => { t with assignments }) (List.map_id _).symm
  | cons a rest ih =>
    intro t
    rw [List.foldl_cons, ih]
    refine congrArg (fun assignments => { t with assignments }) ?_
    show (updateWhere _ _ t.assignments).map _ = _
    unfold updateWhere
    rw [List.map_map]
    refine List.map_congr_left fun b _ => ?_
    by_cases first : b.id = a.id
    · simp [first]
    · simp [first, Ne.symm first]

/-- Cancelling changes the status of some assignments and of the job. -/
theorem cancelled_frame (jobId : String) (now : Instant) (t : Tables) :
    ∃ f : Assignment → Assignment, (∀ a, f a = a ∨ f a = { a with status := .cancelled }) ∧
      t.cancelled jobId now
        = { t with assignments := t.assignments.map f }.setJobStatus jobId .cancelled now := by
  refine ⟨_, fun a => ?_, cancelled_eq jobId now t⟩
  split
  · exact .inr rfl
  · exact .inl rfl

end Staffing.Tables
