import Staffing.Proofs.Run

/-!
# No provider is booked twice

Two assignments of one provider that both block the calendar never overlap. Assignments are made by
commits of choices and by promotions. Either looks for conflicts on other jobs only, but also makes
sure that its own job has no live assignment left, and never sends one provider twice.

* `Tables.KeepsApart` — blocking assignments of one provider do not overlap
* `Step.keepsApart` — every step keeps that
* `blocking_assignments_apart` — it holds in every state that a run reaches
-/

namespace Staffing

variable {now : Instant} {t t' : Tables}

/-- If both block the calendar of one provider, the windows do not overlap. -/
def Assignment.Apart (a b : Assignment) : Prop :=
  a.providerId = b.providerId → a.status.isBlocking = true → b.status.isBlocking = true →
    a.window.overlaps b.window = false

namespace Tables

/-- Assignments stand in whole seconds, and blocking ones of one provider do not overlap. -/
structure KeepsApart (t : Tables) : Prop where
  whole : ∀ a ∈ t.assignments, a.window.wholeSeconds = a.window
  apart : t.assignments.Pairwise Assignment.Apart

end Tables

theorem Assignment.Apart.symm {a b : Assignment} (h : a.Apart b) : b.Apart a := by
  intro same hb ha
  rw [Window.overlaps_comm]
  exact h same.symm ha hb

instance : Std.Symm Assignment.Apart := ⟨fun _ _ => Assignment.Apart.symm⟩

theorem Assignment.stored_wholeSeconds (a : Assignment) :
    a.stored.window.wholeSeconds = a.stored.window := by
  simp [Assignment.stored, Assignment.window, Window.wholeSeconds]

/-- A blocking assignment is live. -/
theorem Assignment.isLive_of_isBlocking {a : Assignment} (h : a.status.isBlocking = true) :
    a.isLive = true := by
  unfold Assignment.isLive
  cases same : a.status with
  | cancelled =>
    rw [same] at h
    cases h
  | _ => rfl

/-- A job without live assignments has no blocking one. -/
theorem Tables.not_isBlocking_of_vacant {jobId : String} (vacant : t.assignmentsFor jobId = [])
    {a : Assignment} (ha : a ∈ t.assignments) (own : a.jobId = jobId) :
    a.status.isBlocking = false := by
  rw [Bool.eq_false_iff]
  intro blocking
  have live : a ∈ t.assignmentsFor jobId := by
    unfold Tables.assignmentsFor
    rw [List.mem_mergeSort, List.mem_filter]
    exact ⟨ha, by simp [own, Assignment.isLive_of_isBlocking blocking]⟩
  rw [vacant] at live
  cases live

/-- A conflict is a blocking assignment, on a job that is not excluded, that overlaps the window. -/
theorem Tables.hasConflict_iff_exists {providerId : String} {w : Window}
    {exclude : Option String} :
    t.hasConflict providerId w exclude = true ↔ ∃ a ∈ t.assignments,
      a.providerId = providerId ∧ exclude ≠ some a.jobId ∧ a.status.isBlocking = true ∧
        a.window.wholeSeconds.overlaps w.wholeSeconds = true := by
  unfold hasConflict
  rw [List.any_eq_true]
  refine exists_congr fun a => and_congr_right fun _ => ?_
  simp only [Bool.and_eq_true, beq_iff_eq, bne_iff_ne]
  tauto

/-- A conflict is a blocking assignment on another job that overlaps the window. -/
theorem Tables.hasConflict_iff {providerId jobId : String} {w : Window} :
    t.hasConflict providerId w (some jobId) = true ↔ ∃ a ∈ t.assignments,
      a.providerId = providerId ∧ a.jobId ≠ jobId ∧ a.status.isBlocking = true ∧
        a.window.wholeSeconds.overlaps w.wholeSeconds = true := by
  simp only [hasConflict_iff_exists, ne_eq, Option.some.injEq, @eq_comm _ jobId]

/-- New assignments stay apart from those that were there and from one another. -/
theorem Tables.Staffs.keepsApart {j : Job} {teamId : Option String} {providerIds : List String}
    {rows : List Assignment} (staffs : t.Staffs j teamId providerIds now rows)
    (vacant : t.assignmentsFor j.id = []) (h : t.KeepsApart)
    (added : t'.assignments = t.assignments ++ rows.map Assignment.stored) : t'.KeepsApart := by
  have distinct : (rows.map (·.providerId)).Nodup := staffs.providers ▸ staffs.distinct
  constructor
  · rw [added]
    intro a ha
    rcases List.mem_append.mp ha with old | new
    · exact h.whole a old
    · obtain ⟨row, -, rfl⟩ := List.mem_map.mp new
      exact row.stored_wholeSeconds
  · rw [added, List.pairwise_append, List.pairwise_map]
    refine ⟨h.apart, ?_, ?_⟩
    · -- The new rows go to different providers.
      refine (List.pairwise_map.mp distinct).imp fun differ same => ?_
      exact absurd same differ
    · intro a ha b hb same blocking _
      obtain ⟨row, hrow, rfl⟩ := List.mem_map.mp hb
      have window : row.stored.window = j.window.wholeSeconds := by
        rw [staffs.scheduled row hrow]
        rfl
      have sent : a.providerId ∈ providerIds := by
        rw [same, ← staffs.providers]
        exact List.mem_map.mpr ⟨row, hrow, rfl⟩
      rw [window, ← h.whole a ha]
      refine Bool.eq_false_iff.mpr fun overlaps => Bool.eq_false_iff.mp (staffs.free _ sent) ?_
      refine Tables.hasConflict_iff.mpr ⟨a, ha, rfl, fun own => ?_, blocking, overlaps⟩
      rw [Tables.not_isBlocking_of_vacant vacant ha own] at blocking
      cases blocking

theorem Calm.keepsApart (h : Calm now t t') (apart : t.KeepsApart) : t'.KeepsApart := by
  rcases h.assignments_cases with same | ⟨f, hf, cancelled⟩
    | ⟨j, teamId, providerIds, rows, staffs, vacant, added⟩
  · exact ⟨same ▸ apart.whole, same ▸ apart.apart⟩
  · -- A cancelled assignment keeps its provider and its window and blocks no more.
    have keeps : ∀ a, (f a).providerId = a.providerId ∧ (f a).window = a.window ∧
        ((f a).status.isBlocking = true → a.status.isBlocking = true) := by
      intro a
      rcases hf a with same | same
      · rw [same]
        exact ⟨rfl, rfl, id⟩
      · rw [same]
        exact ⟨rfl, rfl, fun blocking => by cases blocking⟩
    constructor
    · rw [cancelled]
      intro a ha
      obtain ⟨b, hb, rfl⟩ := List.mem_map.mp ha
      rw [(keeps b).2.1]
      exact apart.whole b hb
    · rw [cancelled, List.pairwise_map]
      refine apart.apart.imp fun {a b} hab same ha hb => ?_
      obtain ⟨providerA, windowA, blocksA⟩ := keeps a
      obtain ⟨providerB, windowB, blocksB⟩ := keeps b
      rw [windowA, windowB]
      exact hab (providerA ▸ providerB ▸ same) (blocksA ha) (blocksB hb)
  · exact staffs.keepsApart vacant apart added

/-- Every step keeps blocking assignments of one provider apart. -/
theorem Step.keepsApart {p q : Tables × List String} (h : Step now p q)
    (apart : p.1.KeepsApart) : q.1.KeepsApart := by
  cases h with
  | ebb h =>
    cases h with
    | calm h => exact h.keepsApart apart
    | settle => exact ⟨apart.whole, apart.apart⟩
  | holdTeam => exact ⟨apart.whole, apart.apart⟩

theorem Run.keepsApart {past : List (Engine × Operation)} {e : Engine} (run : Run past e) :
    e.store.tables.KeepsApart :=
  (run.holds (I := fun p => p.1.KeepsApart)
    ⟨fun _ h => absurd h List.not_mem_nil, List.Pairwise.nil⟩
    fun _ _ _ _ apart step => step.keepsApart apart).2

/-- **No provider is booked twice:** in every state that a run reaches, two assignments of one
provider that both block the calendar do not overlap. -/
theorem blocking_assignments_apart {past : List (Engine × Operation)} {e : Engine}
    (run : Run past e) : ∀ a ∈ e.store.tables.assignments, ∀ b ∈ e.store.tables.assignments,
      a ≠ b → a.providerId = b.providerId →
      a.status.isBlocking = true → b.status.isBlocking = true →
      a.window.overlaps b.window = false := by
  intro a ha b hb differ
  exact run.keepsApart.apart.forall ha hb differ

/-- Two jobs in a row, both matched with the same provider. -/
def Sample.twoInARow : List Operation := [
  .insertProvider (provider "ada"), .createJob (job 9), .createJob (job 11),
  .autoAssign (idText "job" 0) 0, .autoAssign (idText "job" 1) 0]

/-- An assignment that the provider gets by it. -/
def Sample.sent (serial jobSerial hour : Nat) : Assignment where
  id := idText "asg" serial
  jobId := idText "job" jobSerial
  providerId := "ada"
  teamId := none
  start := Instant.utc 2026 3 2 hour 0
  stop := Instant.utc 2026 3 2 (hour + 2) 0
  status := .scheduled
  createdAt := 0

theorem blocking_assignments_apart_twoInARow : ∃ past e, Run past e ∧
    e.store.tables.assignments = [Sample.sent 2 0 9, Sample.sent 3 1 11] ∧
      (Sample.sent 2 0 9).window.overlaps (Sample.sent 3 1 11).window = false := by
  obtain ⟨e, left⟩ : ∃ e, e = Operation.afterAll Sample.twoInARow Sample.engine := ⟨_, rfl⟩
  have run : Run (Operation.trace Sample.twoInARow Sample.engine) e := left ▸
    Run.of_operations rfl rfl (fun _ _ _ => rfl)
      (by simp [Sample.twoInARow, Operation.IsAdmissible])
  have rows : e.store.tables.assignments = [Sample.sent 2 0 9, Sample.sent 3 1 11] := by
    rw [left]
    decide +kernel
  refine ⟨_, e, run, rows, blocking_assignments_apart run _ ?_ _ ?_ (by decide) rfl rfl rfl⟩
  · rw [rows]
    exact List.mem_cons_self
  · rw [rows]
    exact List.mem_cons_of_mem _ List.mem_cons_self

end Staffing
