import Staffing.Proofs.Headroom
import Staffing.Proofs.JobHistory

/-!
# Staffing is all or nothing

A job has all the members that it needs, or none. Those that it has go in its window, by one team or
by none, and nothing is left then of the attempts that failed before.

* `Tables.IsStaffed`, `Tables.AllOrNothing` — the rule, for one job
* `Tables.Staffs.isStaffed` — new assignments staff a job that has none
* `Turn.settled` — every operation keeps the rule
* `staffing_all_or_nothing` — it holds after every run
-/

namespace Staffing

variable {now : Instant} {t t' : Tables} {e e' : Engine} {op : Operation} {j : Job}
  {past : List (Engine × Operation)}

namespace Tables

/-- The live assignments of the job are as many as it needs. They are all scheduled, for different
providers, in the job's window and by one team or none; and no retries are left. -/
structure IsStaffed (t : Tables) (j : Job) : Prop where
  enough : (t.assignmentsFor j.id).length = j.requiredMembers
  scheduled : ∀ a ∈ t.assignmentsFor j.id, a.status = .scheduled
  distinct : ((t.assignmentsFor j.id).map (·.providerId)).Nodup
  window : ∀ a ∈ t.assignmentsFor j.id, a.window = j.window
  team : ∃ teamId, ∀ a ∈ t.assignmentsFor j.id, a.teamId = teamId
  retries : j.retryCount = 0
  fallback : j.fallbackTeam = none ∧ j.fallbackRequestedAt = none ∧ j.fallbackEscalatedAt = none

/-- An assigned job is staffed, and one that is pending or cancelled has no live assignment. -/
structure AllOrNothing (t : Tables) (j : Job) : Prop where
  pending : j.status = .pendingProvider → t.assignmentsFor j.id = []
  assigned : j.status = .assigned → t.IsStaffed j
  cancelled : j.status = .cancelled → t.assignmentsFor j.id = []

/-! ## Live assignments -/

theorem assignmentsFor_perm (t : Tables) (jobId : String) :
    (t.assignmentsFor jobId).Perm
      (t.assignments.filter fun a => a.jobId == jobId && a.isLive) :=
  List.mergeSort_perm _ _

theorem mem_assignmentsFor {a : Assignment} {jobId : String} :
    a ∈ t.assignmentsFor jobId ↔ a ∈ t.assignments ∧ a.jobId = jobId ∧ a.isLive = true := by
  rw [(t.assignmentsFor_perm jobId).mem_iff, List.mem_filter, Bool.and_eq_true, beq_iff_eq]

theorem assignmentsFor_eq_nil {jobId : String} :
    t.assignmentsFor jobId = [] ↔ ∀ a ∈ t.assignments, a.jobId = jobId → a.isLive = false := by
  rw [List.eq_nil_iff_forall_not_mem]
  refine forall_congr' fun a => ?_
  rw [mem_assignmentsFor]
  simp

/-- What the live assignments of a job are depends on its own assignments. -/
theorem assignmentsFor_congr {jobId : String}
    (same : t'.assignments.filter (fun a => a.jobId == jobId && a.isLive)
      = t.assignments.filter fun a => a.jobId == jobId && a.isLive) :
    t'.assignmentsFor jobId = t.assignmentsFor jobId := by
  unfold assignmentsFor
  rw [same]

/-- A job that is cancelled has no live assignment any more. -/
theorem assignmentsFor_cancelled (jobId : String) (now : Instant) (t : Tables) :
    (t.cancelled jobId now).assignmentsFor jobId = [] := by
  rw [assignmentsFor_eq_nil, cancelled_eq]
  intro a ha own
  obtain ⟨b, hb, rfl⟩ := List.mem_map.mp ha
  split at own
  · next hit =>
    rw [if_pos hit]
    rfl
  · next miss =>
    -- A live assignment of the job would be among those that are cancelled.
    rw [if_neg miss]
    refine Bool.eq_false_iff.mpr fun live => miss ?_
    exact any_key.mpr ⟨b, mem_assignmentsFor.mpr ⟨hb, own, live⟩, rfl⟩

/-- Other jobs keep their live assignments. -/
theorem assignmentsFor_cancelled_of_ne (nodup : (t.assignments.map (·.id)).Nodup)
    {id jobId : String} (other : id ≠ jobId) :
    (t.cancelled jobId now).assignmentsFor id = t.assignmentsFor id := by
  refine assignmentsFor_congr ?_
  rw [cancelled_eq]
  show (t.assignments.map _).filter _ = _
  rw [List.filter_map]
  -- An assignment on another job is not among those that are cancelled.
  have keeps : ∀ a ∈ t.assignments, a.jobId = id →
      ¬ (t.assignmentsFor jobId).any (·.id == a.id) = true := by
    intro a ha own hit
    obtain ⟨b, hb, same⟩ := any_key.mp hit
    obtain ⟨hb, ofJob, -⟩ := mem_assignmentsFor.mp hb
    obtain rfl := List.inj_on_of_nodup_map nodup hb ha same
    exact other (own.symm.trans ofJob)
  have asBefore : t.assignments.filter
      ((fun a : Assignment => a.jobId == id && a.isLive) ∘ fun a : Assignment =>
        if (t.assignmentsFor jobId).any (·.id == a.id) then { a with status := .cancelled } else a)
      = t.assignments.filter fun a => a.jobId == id && a.isLive := by
    refine List.filter_congr fun a ha => ?_
    rw [Function.comp_apply]
    by_cases own : a.jobId = id
    · rw [if_neg (keeps a ha own)]
    · have elsewhere : (a.jobId == id) = false := beq_eq_false_iff_ne.mpr own
      rw [elsewhere, Bool.false_and]
      split
      · rw [show ({ a with status := .cancelled } : Assignment).jobId = a.jobId from rfl, elsewhere,
          Bool.false_and]
      · rw [elsewhere, Bool.false_and]
  rw [asBefore]
  refine (List.map_congr_left fun a ha => ?_).trans (List.map_id _)
  obtain ⟨ha, own⟩ := List.mem_filter.mp ha
  rw [if_neg (keeps a ha (by simpa using (Bool.and_eq_true_iff.mp own).1))]
  rfl

/-- Staffing a job leaves the live assignments of others alone. -/
theorem assignmentsFor_staffed_of_ne {rows : List Assignment} (own : ∀ a ∈ rows, a.jobId = j.id)
    {id : String} (other : id ≠ j.id) :
    (t.staffed j.id rows now).assignmentsFor id = t.assignmentsFor id := by
  refine assignmentsFor_congr ?_
  show (t.assignments ++ rows.map Assignment.stored).filter _ = _
  have none : (rows.map Assignment.stored).filter (fun a => a.jobId == id && a.isLive) = [] := by
    refine List.filter_eq_nil_iff.mpr fun a ha live => ?_
    obtain ⟨row, hrow, rfl⟩ := List.mem_map.mp ha
    exact other ((beq_iff_eq.mp (Bool.and_eq_true_iff.mp live).1).symm.trans (own row hrow))
  rw [List.filter_append, none, List.append_nil]

/-! ## Staffing -/

/-- The live assignments of a job that had none are the new ones. -/
theorem Staffs.assignmentsFor_perm {teamId : Option String} {providerIds : List String}
    {rows : List Assignment} (h : t.Staffs j teamId providerIds now rows)
    (vacant : t.assignmentsFor j.id = []) :
    ((t.staffed j.id rows now).assignmentsFor j.id).Perm (rows.map Assignment.stored) := by
  refine (Tables.assignmentsFor_perm _ _).trans (.of_eq ?_)
  show (t.assignments ++ rows.map Assignment.stored).filter _ = _
  have none : t.assignments.filter (fun a => a.jobId == j.id && a.isLive) = [] :=
    List.Perm.nil_eq (vacant ▸ t.assignmentsFor_perm j.id) |>.symm
  rw [List.filter_append, none, List.nil_append, List.filter_eq_self]
  intro a ha
  obtain ⟨row, hrow, rfl⟩ := List.mem_map.mp ha
  rw [h.scheduled row hrow]
  simp [Promotion.scheduled, Assignment.stored, Assignment.isLive]

/-- **New assignments staff a job that has none.** They may have been made for the job as it was
read before, if it asked for the same then. -/
theorem Staffs.isStaffed {marked : Job} {teamId : Option String} {providerIds : List String}
    {rows : List Assignment} (h : t.Staffs j teamId providerIds now rows)
    (vacant : t.assignmentsFor j.id = []) (id : marked.id = j.id)
    (window : j.window = marked.window) (whole : marked.window.wholeSeconds = marked.window)
    (members : j.requiredMembers = marked.requiredMembers) (retries : marked.retryCount = 0)
    (fallback : marked.fallbackTeam = none ∧ marked.fallbackRequestedAt = none ∧
      marked.fallbackEscalatedAt = none) : (t.staffed j.id rows now).IsStaffed marked := by
  have perm := h.assignmentsFor_perm vacant
  rw [← id] at perm ⊢
  have each {p : Assignment → Prop}
      (hp : ∀ row : Assignment, p (Promotion.scheduled j teamId row.providerId now row.id).stored) :
      ∀ a ∈ (t.staffed marked.id rows now).assignmentsFor marked.id, p a := by
    intro a ha
    obtain ⟨row, hrow, rfl⟩ := List.mem_map.mp (perm.mem_iff.mp ha)
    rw [h.scheduled row hrow]
    exact hp row
  have providers : (rows.map Assignment.stored).map (·.providerId) = providerIds := by
    rw [List.map_map]
    exact h.providers
  constructor
  case enough =>
    rw [perm.length_eq, List.length_map, ← members, ← h.enough, ← h.providers, List.length_map]
  case scheduled => exact each fun _ => rfl
  case distinct =>
    rw [(perm.map _).nodup_iff, providers]
    exact h.distinct
  case window =>
    refine each fun _ => ?_
    show j.window.wholeSeconds = marked.window
    rw [window, whole]
  case team => exact ⟨teamId, each fun _ => rfl⟩
  case retries => exact retries
  case fallback => exact fallback

end Tables

/-! ## Turns -/

/-- Every assignment is on a stored job, and the rule holds for every job. -/
structure Tables.Settled (t : Tables) : Prop where
  known : ∀ a ∈ t.assignments, t.hasJob a.jobId = true
  jobs : ∀ j ∈ t.jobs, t.AllOrNothing j

namespace Tables

/-- The rule for a job depends on no more than its live assignments. -/
theorem AllOrNothing.congr (h : t.AllOrNothing j)
    (same : t'.assignmentsFor j.id = t.assignmentsFor j.id) : t'.AllOrNothing j where
  pending waits := same.trans (h.pending waits)
  cancelled ended := same.trans (h.cancelled ended)
  assigned done := by
    have staffed := h.assigned done
    constructor
    case enough => exact same ▸ staffed.enough
    case scheduled => exact same ▸ staffed.scheduled
    case distinct => exact same ▸ staffed.distinct
    case window => exact same ▸ staffed.window
    case team => exact same ▸ staffed.team
    case retries => exact staffed.retries
    case fallback => exact staffed.fallback

theorem Settled.of_sameDemand (h : t.Settled) (same : t.SameDemand t') : t'.Settled where
  known a ha := by
    unfold hasJob
    rw [same.jobs]
    exact h.known a (same.assignments ▸ ha)
  jobs j hj := by
    refine (h.jobs j (same.jobs ▸ hj)).congr ?_
    unfold assignmentsFor
    rw [same.assignments]

/-- One job changes, and its assignments with it. -/
theorem Settled.update (h : t.Settled) {id : String} {f : Job → Job}
    (jobs : t'.jobs = updateWhere (·.id == id) f t.jobs) (ids : ∀ j, (f j).id = j.id)
    (known : ∀ a ∈ t'.assignments, t.hasJob a.jobId = true)
    (others : ∀ other, other ≠ id → t'.assignmentsFor other = t.assignmentsFor other)
    (own : ∀ j ∈ t.jobs, j.id = id → t'.AllOrNothing (f j)) : t'.Settled where
  known a ha := by
    unfold hasJob
    rw [jobs, any_updateWhere fun j => congrArg (· == a.jobId) (ids j)]
    exact known a ha
  jobs j' hj' := by
    rw [jobs] at hj'
    obtain ⟨j, hj, rfl⟩ := mem_updateWhere.mp hj'
    split
    · next hit => exact own j hj (beq_iff_eq.mp hit)
    · next miss => exact (h.jobs j hj).congr (others j.id (by simpa using miss))

end Tables

/-- **Every operation keeps the rule,** if a job that was read before asked for what it asks for
now. -/
theorem Turn.settled (turn : Turn e op e') (keyed : e.store.tables.Keyed)
    (orderly : e.store.tables.Orderly) (h : e.store.tables.Settled)
    (sees : ∀ j stored, op.Reads e j → e.store.tables.job? j.id = some stored →
      j.window = stored.window ∧ j.requiredMembers = stored.requiredMembers) :
    e'.store.tables.Settled := by
  cases turn with
  | rest _ same => exact h.of_sameDemand same
  | @book n id _ fresh same =>
    refine Tables.Settled.of_sameDemand ⟨fun a ha => ?_, fun j hj => ?_⟩ same
    · obtain ⟨j, hj, ofJob⟩ := any_key.mp (h.known a ha)
      exact any_key.mpr ⟨j, List.mem_append_left _ hj, ofJob⟩
    · rcases List.mem_append.mp hj with old | new
      · exact (h.jobs j old).congr rfl
      · rw [List.mem_singleton.mp new]
        -- No assignment can be on a job that is new.
        refine ⟨fun _ => ?_, fun done => (by cases done), fun ended => (by cases ended)⟩
        refine Tables.assignmentsFor_eq_nil.mpr fun a ha ofJob => ?_
        obtain ⟨j, hj, ofOld⟩ := any_key.mp (h.known a ha)
        exact absurd (ofOld.trans ofJob) (fresh j hj)
  | @cancel actor jobId _ same =>
    have nothing := Tables.assignmentsFor_cancelled jobId e.now e.store.tables
    refine Tables.Settled.of_sameDemand (h.update (congrArg Tables.jobs
      (Tables.cancelled_eq jobId e.now e.store.tables)) ?_ ?_ ?_ ?_) same
    · exact fun _ => rfl
    · intro a ha
      rw [Tables.cancelled_eq] at ha
      obtain ⟨b, hb, rfl⟩ := List.mem_map.mp ha
      split <;> exact h.known b hb
    · exact fun other ne => Tables.assignmentsFor_cancelled_of_ne keyed.assignments ne
    · rintro j hj rfl
      exact ⟨fun _ => nothing, fun done => (by cases done), fun _ => nothing⟩
  | @staff _ j stored teamId providerIds now rows _ reads found pending vacant staffs same =>
    obtain ⟨window, members⟩ := sees j stored reads found
    have ofJob : ∀ a ∈ rows, a.jobId = j.id := fun a ha => by rw [staffs.scheduled a ha]; rfl
    refine Tables.Settled.of_sameDemand (h.update rfl ?_ ?_ ?_ ?_) same
    · exact fun _ => rfl
    · intro a ha
      rcases List.mem_append.mp ha with old | new
      · exact h.known a old
      · obtain ⟨row, hrow, rfl⟩ := List.mem_map.mp new
        have own : row.stored.jobId = j.id := ofJob row hrow
        rw [own]
        exact any_key.mpr ⟨stored, mem_of_find?_key found⟩
    · exact fun other ne => Tables.assignmentsFor_staffed_of_ne ofJob ne
    · intro k hk own
      obtain rfl := eq_of_find?_key keyed.jobs found hk own
      refine ⟨fun waits => (by cases waits), fun _ => ?_, fun ended => (by cases ended)⟩
      exact staffs.isStaffed vacant own window (orderly.jobs k hk).2 members rfl ⟨rfl, rfl, rfl⟩
  | @note j stored maxRetries now staleBefore team _ found pending _ jobs assignments _ =>
    have same : ∀ id, e'.store.tables.assignmentsFor id = e.store.tables.assignmentsFor id := by
      intro id
      unfold Tables.assignmentsFor
      rw [assignments]
    refine h.update jobs (fun _ => rfl) (assignments ▸ h.known) (fun id _ => same id) ?_
    intro k hk own
    obtain rfl := eq_of_find?_key keyed.jobs found hk (own.trans (mem_of_find?_key found).2)
    have waits := Job.isPending_iff.mp pending
    refine ⟨fun _ => (same _).trans ((h.jobs k hk).pending waits), fun done => ?_, fun ended => ?_⟩
    · exact absurd (waits.symm.trans done) (by decide)
    · exact absurd (waits.symm.trans ended) (by decide)

/-! ## Runs -/

theorem Run.settled (run : Run past e) (recalls : Run.Recalls [] past) :
    e.store.tables.Settled := by
  refine run.turns (P := fun past e => Run.Recalls [] past → e.store.tables.Settled) ?_ ?_ recalls
  · intro e empty _
    rw [empty]
    exact ⟨fun _ h => absurd h List.not_mem_nil, fun _ h => absurd h List.not_mem_nil⟩
  · intro past e op e' run ih _ turn _ recalls
    exact turn.settled run.ready.keyed run.orderly (ih (Run.recalls_append.mp recalls).1)
      fun j stored reads found => run.reads_same recalls reads found

/-- **Staffing is all or nothing.** In every state that a run reaches, a pending job has no live
assignment; an assigned job has as many as it needs, all scheduled, for different providers, in its
window and by one team or none, and its retry fields are cleared; a cancelled job has none. A job
that was cancelled at any time of the run is cancelled still. -/
theorem staffing_all_or_nothing (run : Run past e) (recalls : Run.Recalls [] past)
    (hj : j ∈ e.store.tables.jobs) : e.store.tables.AllOrNothing j ∧
      ∀ e₀ op, (e₀, op) ∈ past → ∀ j₀ ∈ e₀.store.tables.jobs, j₀.id = j.id →
        j₀.status = .cancelled → j.status = .cancelled := by
  refine ⟨(run.settled recalls).jobs j hj, fun e₀ op made j₀ hj₀ same ended => ?_⟩
  exact (run.becomes_of_id made hj₀ hj same).cancelled ended

namespace Sample

/-- A provider and three jobs, one after the other. -/
def threeJobs : List Operation := [
  .insertProvider (provider "ada"), .createJob (job 9), .createJob (job 11), .createJob (job 13)]

/-- The first job is matched on other tables; the second one is matched before that and cancelled
after it. -/
def matchedAndCancelled (view : Engine) : List Operation := threeJobs ++ [
  .autoAssign (idText "job" 1) 0, .commitSeen view (idText "job" 0) 0,
  .cancelJob admin (idText "job" 1)]

end Sample

/-- The first job is matched on the tables as they were before the second one was matched. Of the
three jobs the first is assigned, the second was assigned and is cancelled, and the third is
pending. -/
theorem staffing_all_or_nothing_matchedAndCancelled : ∃ past e, Run past e ∧ Run.Recalls [] past ∧
    (∃ j ∈ e.store.tables.jobs, j.status = .assigned ∧ e.store.tables.AllOrNothing j) ∧
    (∃ j ∈ e.store.tables.jobs, j.status = .pendingProvider ∧ e.store.tables.AllOrNothing j) ∧
    ∃ j ∈ e.store.tables.jobs, j.status = .cancelled ∧ e.store.tables.AllOrNothing j ∧
      ∃ a ∈ e.store.tables.assignments, a.jobId = j.id := by
  obtain ⟨view, viewed⟩ : ∃ view, view = Operation.afterAll Sample.threeJobs Sample.engine :=
    ⟨_, rfl⟩
  have ready : view.Ready := by
    have before : Run (Operation.trace Sample.threeJobs Sample.engine) view :=
      viewed ▸ Run.of_operations rfl rfl (fun _ _ _ => rfl) (by
        simp only [Sample.threeJobs, List.forall_mem_cons, Operation.IsAdmissible]
        exact ⟨trivial, trivial, trivial, trivial, fun _ h => absurd h List.not_mem_nil⟩)
    exact before.ready
  obtain ⟨past, trace⟩ :
      ∃ past, past = Operation.trace (Sample.matchedAndCancelled view) Sample.engine := ⟨_, rfl⟩
  obtain ⟨e, left⟩ :
      ∃ e, e = Operation.afterAll (Sample.matchedAndCancelled view) Sample.engine := ⟨_, rfl⟩
  have run : Run past e := trace ▸ left ▸ Run.of_operations rfl rfl (fun _ _ _ => rfl) (by
    simp only [Sample.matchedAndCancelled, Sample.threeJobs, List.cons_append, List.nil_append,
      List.forall_mem_cons, Operation.IsAdmissible]
    exact ⟨trivial, trivial, trivial, trivial, trivial,
      ⟨ready.keyed.toRosterKeyed, ready.keepsRoster⟩, trivial,
      fun _ h => absurd h List.not_mem_nil⟩)
  have recalls : Run.Recalls [] past := by
    rw [trace]
    refine ⟨trivial, trivial, trivial, trivial, trivial, ⟨view, ?_, rfl⟩, trivial, trivial⟩
    rw [viewed]
    simp [Sample.threeJobs, Operation.afterAll]
  obtain ⟨⟨i, hi, assigned⟩, ⟨j, hj, waits⟩, k, hk, cancelled, was⟩ :
      (∃ j ∈ e.store.tables.jobs, j.status = .assigned) ∧
      (∃ j ∈ e.store.tables.jobs, j.status = .pendingProvider) ∧
      ∃ j ∈ e.store.tables.jobs, j.status = .cancelled ∧
        ∃ a ∈ e.store.tables.assignments, a.jobId = j.id := by
    rw [left, viewed]
    decide +kernel
  exact ⟨past, e, run, recalls, ⟨i, hi, assigned, (staffing_all_or_nothing run recalls hi).1⟩,
    ⟨j, hj, waits, (staffing_all_or_nothing run recalls hj).1⟩,
    k, hk, cancelled, (staffing_all_or_nothing run recalls hk).1, was⟩

end Staffing
