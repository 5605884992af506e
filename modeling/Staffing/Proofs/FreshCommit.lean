import Staffing.Proofs.AllOrNothing
import Staffing.Proofs.DoubleBooking
import Staffing.Proofs.Exclusion

/-!
# A choice is committed to the tables as they are

An automatic assignment chooses on some tables and commits the choice to the tables that it then
finds. Others may have written whatever they like meanwhile. So the transaction looks again at the
job, and at the assignments and locks of everyone chosen, and it is refused for the first one who is
no longer available.

* `Tables.AssignedElsewhere`, `Tables.LockedElsewhere`, `Tables.Clashes` — what keeps a provider
  from being assigned
* `Tables.CommitsFresh` — what a commit requires and does
* `NoConflict` — choosing never ends in a conflict
* `auto_assign_commits_fresh` — what an automatic assignment does to tables that it was not made on
-/

namespace Staffing

variable {σ α β : Type} {now : Instant} {t : Tables} {s s' : Store} {e e' view : Engine} {j : Job}
  {id jobId : String}

/-! ## Who is available -/

namespace Tables

/-- The provider has a blocking assignment on another job that overlaps this one. -/
def AssignedElsewhere (t : Tables) (j : Job) (id : String) : Prop :=
  ∃ a ∈ t.assignments, a.providerId = id ∧ a.jobId ≠ j.id ∧ a.status.isBlocking = true ∧
    a.window.wholeSeconds.overlaps j.window.wholeSeconds = true

/-- A live lock that has not lapsed holds the provider for another job that overlaps this one. -/
def LockedElsewhere (t : Tables) (j : Job) (now : Instant) (id : String) : Prop :=
  ∃ l ∈ t.locks, l.Holds id now ∧ l.jobId ≠ j.id ∧ t.Covers l j.window

/-- Neither keeps the provider from the job. -/
def IsAvailable (t : Tables) (j : Job) (now : Instant) (id : String) : Prop :=
  ¬ t.AssignedElsewhere j id ∧ ¬ t.LockedElsewhere j now id

/-- The conflict that keeps a provider from the job; an assignment goes before a lock. -/
inductive Clashes (t : Tables) (j : Job) (now : Instant) (id : String) : Conflict → Prop
  | assigned : t.AssignedElsewhere j id → Clashes t j now id (.providerAlreadyAssigned id)
  | locked : ¬ t.AssignedElsewhere j id → t.LockedElsewhere j now id →
      Clashes t j now id (.providerAlreadyLocked id)

theorem lockedElsewhere_iff :
    t.LockedElsewhere j now id ↔ t.providerLocked id j.window now (some j.id) = true := by
  rw [providerLocked_iff]
  simp only [LockedElsewhere, ne_eq, Option.some.injEq, @eq_comm _ j.id]

end Tables

theorem Job.assignFault_eq_none_iff : j.assignFault t now id = none ↔ t.IsAvailable j now id := by
  rw [Job.assignFault_eq_none, Tables.IsAvailable, Tables.AssignedElsewhere,
    ← Tables.hasConflict_iff, Tables.lockedElsewhere_iff]
  simp

theorem Job.assignFault_eq_some_iff {fault : Fault} : j.assignFault t now id = some fault ↔
    ∃ c, fault = .conflict c ∧ t.Clashes j now id c := by
  unfold assignFault
  by_cases assigned : t.hasConflict id j.window (some j.id) = true
  · have elsewhere : t.AssignedElsewhere j id := Tables.hasConflict_iff.mp assigned
    rw [if_pos assigned, Option.some.injEq]
    constructor
    · rintro rfl
      exact ⟨_, rfl, .assigned elsewhere⟩
    · rintro ⟨_, rfl, _ | ⟨free, -⟩⟩
      · rfl
      · exact absurd elsewhere free
  · have free : ¬ t.AssignedElsewhere j id := fun elsewhere =>
      assigned (Tables.hasConflict_iff.mpr elsewhere)
    rw [if_neg assigned]
    by_cases locked : t.providerLocked id j.window now (some j.id) = true
    · have elsewhere := Tables.lockedElsewhere_iff.mpr locked
      rw [if_pos locked, Option.some.injEq]
      constructor
      · rintro rfl
        exact ⟨_, rfl, .locked free elsewhere⟩
      · rintro ⟨_, rfl, assigned | _⟩
        · exact absurd assigned free
        · rfl
    · rw [if_neg locked]
      refine iff_of_false nofun ?_
      rintro ⟨_, -, assigned | ⟨-, elsewhere⟩⟩
      · exact free assigned
      · exact locked (Tables.lockedElsewhere_iff.mp elsewhere)

/-! ## What does not end in a conflict -/

/-- Whatever `w` fails with, it is no conflict. -/
def NoConflict (w : EStateM Fault σ α) : Prop := ∀ s c s', w s ≠ .error (.conflict c) s'

namespace NoConflict

/-- What never fails. -/
theorem of_ok {w : EStateM Fault σ α} (h : ∀ s, ∃ a s', w s = .ok a s') : NoConflict w := by
  intro s c s' failed
  obtain ⟨a, s₁, done⟩ := h s
  cases done.symm.trans failed

theorem pure (a : α) : NoConflict (pure a : EStateM Fault σ α) := of_ok fun s => ⟨a, s, rfl⟩

theorem bind {w : EStateM Fault σ α} {f : α → EStateM Fault σ β} (hw : NoConflict w)
    (hf : ∀ a, NoConflict (f a)) : NoConflict (w >>= f) := by
  intro s c s' h
  rcases bind_eq_error.mp h with first | ⟨a, s₁, -, second⟩
  · exact hw s c s' first
  · exact hf a s₁ c s' second

theorem demand (entity : Entity) (id : String) (question : Tables → Option α) :
    NoConflict (Work.demand entity id question) := by
  intro s c s' h
  unfold Work.demand at h
  generalize question s.tables = row at h
  cases row <;> cases h

theorem onStore {w : Work α} (hw : NoConflict w) : NoConflict (Engine.onStore w) := by
  intro e c e' h
  unfold Engine.onStore at h
  split at h
  · cases h
  · next fault s' done =>
    obtain ⟨rfl, -⟩ := EStateM.Result.error.inj h
    exact hw _ _ _ done

/-- The tables may refuse an assignment, but not for a conflict. -/
theorem assign (j : Job) (teamId : Option String) (now : Instant) (id : String) :
    NoConflict (Promotion.assign j teamId now id) := by
  refine bind (of_ok fun _ => ⟨_, _, rfl⟩) fun newId => bind (fun s c s' h => ?_) fun _ => pure _
  unfold Work.run Tables.insertAssignment at h
  split at h
  · cases h
  · next fault refused =>
    split at refused <;> cases refused
    cases h

theorem collect {w : α → Work β} (hw : ∀ a, NoConflict (w a)) (items : List α) :
    NoConflict (Work.collect w items) := by
  induction items with
  | nil => exact pure _
  | cons a rest ih => exact bind (hw a) fun _ => bind ih fun _ => pure _

/-- Nor does a ranking find conflicts. -/
theorem ranking (criteria : Criteria) (now : Instant) :
    NoConflict (Engine.ranking criteria now) := by
  refine bind (fun e c e' h => ?_) fun _ => bind (of_ok fun _ => ⟨_, _, rfl⟩) fun e =>
    bind (fun e c e' h => ?_) fun ceiling => bind (of_ok fun _ => ⟨_, _, rfl⟩) fun _ => pure _
  · unfold checkHeadcount at h
    split at h <;> cases h
  · unfold Engine.priceCeiling at h
    split at h <;> cases h

/-- Nor does a choice. -/
theorem choose (jobId : String) (now : Instant) : NoConflict (Engine.choose jobId now) := by
  unfold Engine.choose
  refine bind (onStore (demand _ _ _)) fun j => ?_
  split
  · exact pure _
  · refine bind ?_ fun _ => pure _
    unfold Engine.propose
    exact bind (ranking _ _) fun ranked => bind (of_ok fun _ => ⟨_, _, rfl⟩) fun _ => pure _

end NoConflict

/-! ## Committing -/

/-- What the commit of a choice has required of the tables `t`, and what it has made of them. The
job was `j` when the choice was made. -/
structure Tables.CommitsFresh (t t' : Tables) (j : Job) (selection : Selection) (now : Instant) :
    Prop where
  waits : ∃ stored, t.job? j.id = some stored ∧ stored.isPending = true
  vacant : ∀ a ∈ t.assignments, a.jobId = j.id → a.status = .cancelled
  available : ∀ id ∈ selection.providerIds, t.IsAvailable j now id
  /-- One scheduled assignment for each provider is new, and the job is marked as matched. -/
  staffs : ∃ rows, rows.length = j.requiredMembers ∧
    t.Staffs j selection.teamId? selection.providerIds now rows ∧
    t' = (t.staffed j.id rows now).appendLog (some j.id)
      (.event (.jobMatched j.id selection.providerIds selection.teamId?)) now

/-- **The first of those chosen who is no longer available** is what a refused commit tells. -/
theorem Selection.commit_conflict {selection : Selection} (idle : s.saved = none) {c : Conflict}
    (h : selection.commit j now s = .error (.conflict c) s') :
    ∃ before id later, selection.providerIds = before ++ id :: later ∧
      (∀ k ∈ before, s.tables.IsAvailable j now k) ∧ s.tables.Clashes j now id c := by
  obtain ⟨s₁, h, -⟩ := (Work.atomic_eq_error idle).mp h
  unfold Selection.commitJoined at h
  rcases bind_eq_error.mp h with never | ⟨stored, s₂, found, h⟩
  · exact absurd never (NoConflict.demand _ _ _ _ _ _)
  obtain ⟨-, rfl⟩ := Work.demand_eq_ok.mp found
  rw [bind_of_ok (Work.ask_eq_ok.mpr ⟨rfl, rfl⟩)] at h
  split at h
  · cases h
  rw [bind_of_ok (Work.ask_eq_ok.mpr ⟨rfl, rfl⟩)] at h
  cases checked : selection.providerIds.findSome? (j.assignFault s.begin.tables now) with
  | none =>
    rw [checked] at h
    refine absurd h (NoConflict.bind (NoConflict.collect (NoConflict.assign _ _ _) _) (fun _ =>
      NoConflict.bind (NoConflict.of_ok fun _ => ⟨_, _, rfl⟩) fun _ => NoConflict.pure _) _ _ _)
  | some fault =>
    rw [checked] at h
    obtain ⟨rfl, -⟩ := EStateM.Result.error.inj h
    obtain ⟨before, id, later, split, refuses, passed⟩ := List.findSome?_eq_some_iff.mp checked
    obtain ⟨c', same, clashes⟩ := Job.assignFault_eq_some_iff.mp refuses
    obtain rfl := Fault.conflict.inj same
    exact ⟨before, id, later, split, fun k hk => Job.assignFault_eq_none_iff.mp (passed k hk),
      clashes⟩

namespace Engine

/-- A commit that is answered has found the job waiting and everyone available, and done that. -/
theorem commitChoice_fresh (idle : e.store.saved = none) {choice : Option (Job × Selection)}
    {selection : Selection} (fits : ∀ j selection, choice = some (j, selection) →
      selection.providerIds.Nodup ∧ selection.providerIds.length = j.requiredMembers)
    (h : commitChoice now choice e = .ok (some selection) e') :
    ∃ j, choice = some (j, selection) ∧
      e.store.tables.CommitsFresh e'.store.tables j selection now := by
  obtain ⟨-, never⟩ | ⟨j, chosen, rows, s', rfl, commits, same, done⟩ :=
    commitChoice_cases idle now fits
  · exact absurd h (never selection e')
  obtain ⟨answered, rfl⟩ := EStateM.Result.ok.inj (done.symm.trans h)
  obtain rfl := Option.some.inj answered
  refine ⟨j, rfl, commits.found, fun a ha own => ?_, fun id hid => ?_, rows, ?_, commits.staffs, ?_⟩
  · simpa [Assignment.isLive] using Tables.assignmentsFor_eq_nil.mp commits.vacant a ha own
  · exact Job.assignFault_eq_none_iff.mp
      (Job.assignFault_eq_none.mpr ⟨commits.staffs.free id hid, commits.unlocked id hid⟩)
  · rw [← commits.staffs.enough, ← commits.staffs.providers, List.length_map]
  · show s'.tables.appendLog _ _ _ = _
    rw [same]
    rfl

/-- Otherwise it leaves the tables as they are. -/
theorem commitChoice_rests (idle : e.store.saved = none) {choice : Option (Job × Selection)}
    (fits : ∀ j selection, choice = some (j, selection) →
      selection.providerIds.Nodup ∧ selection.providerIds.length = j.requiredMembers)
    (h : ∀ selection e', commitChoice now choice e ≠ .ok (some selection) e') :
    (after (commitChoice now choice) e).store.tables = e.store.tables := by
  obtain ⟨same, -⟩ | ⟨j, chosen, rows, s', rfl, commits, same, done⟩ :=
    commitChoice_cases idle now fits
  · exact same
  · exact absurd done (h _ _)

/-- A commit that ends in a conflict tells the first one who is no longer available. -/
theorem commitChoice_conflict (idle : e.store.saved = none) {choice : Option (Job × Selection)}
    {c : Conflict} (h : commitChoice now choice e = .error (.conflict c) e') :
    ∃ j selection before id later, choice = some (j, selection) ∧
      selection.providerIds = before ++ id :: later ∧
      (∀ k ∈ before, e.store.tables.IsAvailable j now k) ∧ e.store.tables.Clashes j now id c := by
  cases choice with
  | none => cases h
  | some choice =>
    obtain ⟨j, selection⟩ := choice
    rcases bind_eq_error.mp h with refused | ⟨committed, e₁, -, never⟩
    · unfold onStore at refused
      split at refused
      · cases refused
      · next fault s' failed =>
        obtain ⟨rfl, -⟩ := EStateM.Result.error.inj refused
        obtain ⟨before, id, later, found⟩ := Selection.commit_conflict idle failed
        exact ⟨j, selection, before, id, later, rfl, found⟩
    · cases committed with
      | false => cases never
      | true =>
        rw [if_pos rfl, bind_of_ok (dispatch_apply now _ _)] at never
        cases never

end Engine

/-- **An automatic assignment commits against fresh tables.** It chooses on an engine, `view`, and
commits the choice to whatever tables it then finds, those of `e`; where nothing comes in between,
these are what the choice has left.

* If it answers a selection, the job was waiting there with all its assignments cancelled, and each
  of those selected was available. The tables are as they were but for the new assignments, the job,
  which is marked as matched, and the event that tells of it.
* If it answers none or fails, all tables are as they were.
* If it fails for a conflict, this tells the first in the order of the selection who was not
  available, and of his assignment rather than of a lock on him. -/
theorem auto_assign_commits_fresh (keyed : view.store.tables.RosterKeyed)
    (prices : view.KeepsRoster) (idle : e.store.saved = none) (jobId : String) (now : Instant) :
    Engine.autoAssign jobId now view
        = Engine.commitSeen view jobId now (after (Engine.choose jobId now) view) ∧
      (∀ selection e', Engine.commitSeen view jobId now e = .ok (some selection) e' →
        ∃ j, view.store.tables.job? jobId = some j ∧
          e.store.tables.CommitsFresh e'.store.tables j selection now) ∧
      (∀ e', Engine.commitSeen view jobId now e = .ok none e' →
        e'.store.tables = e.store.tables) ∧
      ∀ fault e', Engine.commitSeen view jobId now e = .error fault e' →
        e'.store.tables = e.store.tables ∧
        ∀ c, fault = .conflict c → ∃ j selection view' before id later,
          Engine.choose jobId now view = .ok (some (j, selection)) view' ∧
          selection.providerIds = before ++ id :: later ∧
          (∀ k ∈ before, e.store.tables.IsAvailable j now k) ∧
          e.store.tables.Clashes j now id c := by
  refine ⟨Engine.autoAssign_eq jobId now view, ?_⟩
  unfold Engine.commitSeen
  cases chosen : Engine.choose jobId now view with
  | error fault view' =>
    refine ⟨fun _ _ never => (by cases never), fun _ never => (by cases never), ?_⟩
    intro fault' e' failed
    obtain ⟨rfl, rfl⟩ := EStateM.Result.error.inj failed
    refine ⟨rfl, ?_⟩
    rintro c rfl
    exact absurd chosen (NoConflict.choose _ _ _ _ _)
  | ok choice view' =>
    have fits : ∀ j selection, choice = some (j, selection) →
        view.store.tables.job? jobId = some j ∧ selection.providerIds.Nodup ∧
          selection.providerIds.length = j.requiredMembers := by
      rintro j selection rfl
      exact Engine.choose_cases keyed prices chosen
    have rests (h : ∀ selection e', Engine.commitChoice now choice e ≠ .ok (some selection) e') :=
      Engine.commitChoice_rests idle (fun j selection same => (fits j selection same).2) h
    refine ⟨fun selection e' done => ?_, fun e' done => ?_, fun fault e' failed => ⟨?_, ?_⟩⟩
    · obtain ⟨j, same, commits⟩ := Engine.commitChoice_fresh idle
        (fun j selection same => (fits j selection same).2) done
      exact ⟨j, (fits j selection same).1, commits⟩
    · rw [← after_of_ok done]
      exact rests fun selection e₁ again => by cases done.symm.trans again
    · rw [← after_of_error failed]
      exact rests fun selection e₁ again => by cases failed.symm.trans again
    · rintro c rfl
      obtain ⟨j, selection, before, id, later, rfl, found⟩ :=
        Engine.commitChoice_conflict idle failed
      exact ⟨j, selection, view', before, id, later, rfl, found⟩

namespace Sample

/-- A provider and two jobs at the same time. -/
def twoAtOnce : List Operation := [
  .insertProvider (provider "ada"), .createJob (job 9), .createJob (job 9)]

/-- Meanwhile somebody else has come. -/
def joinedMeanwhile : List Operation := twoAtOnce ++ [.insertProvider (provider "bob")]

/-- Meanwhile the second job has got a lock on the provider. -/
def lockedMeanwhile : List Operation := twoAtOnce ++ [
  .createLocks admin (idText "job" 1) ⟨.providers ["ada"], none⟩]

end Sample

/-- The provider is chosen for the first job. To other tables with somebody else the choice is
committed, but not to those on which the second job holds the provider. -/
theorem auto_assign_commits_fresh_meanwhile : ∃ view e₁ e₂ : Engine,
    (∃ j selection e', Engine.commitSeen view (idText "job" 0) 0 e₁ = .ok (some selection) e' ∧
      e₁.store.tables.CommitsFresh e'.store.tables j selection 0) ∧
    ∃ j e', Engine.commitSeen view (idText "job" 0) 0 e₂
        = .error (.conflict (.providerAlreadyLocked "ada")) e' ∧
      e'.store.tables = e₂.store.tables ∧
      e₂.store.tables.Clashes j 0 "ada" (.providerAlreadyLocked "ada") := by
  obtain ⟨view, viewed⟩ : ∃ view, view = Operation.afterAll Sample.twoAtOnce Sample.engine :=
    ⟨_, rfl⟩
  obtain ⟨e₁, joined⟩ : ∃ e₁, e₁ = Operation.afterAll Sample.joinedMeanwhile Sample.engine :=
    ⟨_, rfl⟩
  obtain ⟨e₂, locked⟩ : ∃ e₂, e₂ = Operation.afterAll Sample.lockedMeanwhile Sample.engine :=
    ⟨_, rfl⟩
  have ready {operations : List Operation} {e : Engine}
      (left : e = Operation.afterAll operations Sample.engine)
      (admissible : ∀ op ∈ operations, op.IsAdmissible) : e.Ready := by
    rw [left]
    exact (Run.of_operations rfl rfl (fun _ _ _ => rfl) admissible).ready
  have ready₀ := ready viewed (by simp [Sample.twoAtOnce, Operation.IsAdmissible])
  have ready₁ := ready joined
    (by simp [Sample.joinedMeanwhile, Sample.twoAtOnce, Operation.IsAdmissible])
  have ready₂ := ready locked
    (by simp [Sample.lockedMeanwhile, Sample.twoAtOnce, Operation.IsAdmissible])
  obtain ⟨answers, refuses⟩ :
      ((answer? (Engine.commitSeen view (idText "job" 0) 0) e₁).join.isSome = true) ∧
      fault? (Engine.commitSeen view (idText "job" 0) 0) e₂
        = some (.conflict (.providerAlreadyLocked "ada")) := by
    rw [viewed, joined, locked]
    decide +kernel
  obtain ⟨-, commits, -⟩ := auto_assign_commits_fresh ready₀.keyed.toRosterKeyed ready₀.keepsRoster
    ready₁.idle (idText "job" 0) 0
  obtain ⟨-, -, -, fails⟩ := auto_assign_commits_fresh ready₀.keyed.toRosterKeyed ready₀.keepsRoster
    ready₂.idle (idText "job" 0) 0
  refine ⟨view, e₁, e₂, ?_, ?_⟩
  · obtain ⟨selection, answered⟩ := Option.isSome_iff_exists.mp answers
    have done := answer?_eq_some.mp (Option.join_eq_some_iff.mp answered)
    obtain ⟨j, -, fresh⟩ := commits selection _ done
    exact ⟨j, selection, _, done, fresh⟩
  · have failed := fault?_eq_some.mp refuses
    obtain ⟨same, tells⟩ := fails _ _ failed
    obtain ⟨j, -, -, -, id, -, -, -, -, clashes⟩ := tells _ rfl
    obtain rfl : id = "ada" := by cases clashes; rfl
    exact ⟨j, _, failed, same, clashes⟩

end Staffing
