import Staffing.Proofs.Exclusion
import Staffing.Proofs.Sending

/-!
# Assignments against the locks of other jobs

A commit of a choice sends no provider whom a lock holds for another overlapping job. Neither does a
promotion by locks on providers: the job has such a lock itself, and that excludes others. A
promotion by a lock on a team does not look at locks on its members, so there it may happen.

* `Tables.HeldElsewhere` — another overlapping job has a lock on the provider of an assignment
* `Engine.autoAssign_respects`, `Engine.promote_respects` — what a new assignment does about that
* `sent_although_held_iff` — when an assignment comes about although another job holds its provider
-/

namespace Staffing

variable {now : Instant} {t t' : Tables} {s s' : Store} {e : Engine} {j : Job} {a : Assignment}

namespace Tables

/-- Another job, whose window overlaps the assignment, has a lock on its provider that is held or
confirmed and expires later than `now`, all in whole seconds. -/
def HeldElsewhere (t : Tables) (a : Assignment) (now : Instant) : Prop :=
  ∃ l ∈ t.locks, l.jobId ≠ a.jobId ∧ l.Holds a.providerId now ∧ t.Covers l a.window

instance (t : Tables) (a : Assignment) (now : Instant) : Decidable (t.HeldElsewhere a now) :=
  inferInstanceAs (Decidable (∃ l ∈ t.locks, _))

/-- That is what a commit looks at, for a provider whom it is to send to the job. -/
theorem heldElsewhere_iff (ofJob : a.jobId = j.id) (window : a.window = j.window.wholeSeconds) :
    t.HeldElsewhere a now ↔ t.providerLocked a.providerId j.window now (some j.id) = true := by
  rw [providerLocked_iff]
  refine exists_congr fun l => and_congr_right fun _ => ?_
  rw [and_left_comm, ofJob, Covers, window, Window.wholeSeconds_wholeSeconds, Covers]
  simp only [ne_eq, Option.some.injEq, @eq_comm _ j.id]

/-- What others hold stays so. -/
theorem Spares.heldElsewhere_iff {jobId : String} (h : t.Spares jobId t') (ofJob : a.jobId = jobId)
    (known : ∀ l ∈ t.locks, t.hasJob l.jobId = true) :
    t'.HeldElsewhere a now ↔ t.HeldElsewhere a now := by
  subst ofJob
  refine exists_congr fun l => ?_
  constructor
  · rintro ⟨hl, other, holds, covers⟩
    have hl := (h.others l other).mp hl
    exact ⟨hl, other, holds, (h.stay.covers_iff (known l hl)).mp covers⟩
  · rintro ⟨hl, other, holds, covers⟩
    exact ⟨(h.others l other).mpr hl, other, holds, (h.stay.covers_iff (known l hl)).mpr covers⟩

end Tables

/-! ## Who else holds the provider -/

/-- A job that has a lock on the provider keeps others from holding him. -/
theorem Tables.Exclusive.not_heldElsewhere {l : Lock} (h : t.Exclusive now) (hl : l ∈ t.locks)
    (holds : l.Holds a.providerId now) (own : l.jobId = j.id) (found : t.job? j.id = some j)
    (ofJob : a.jobId = j.id) (window : a.window = j.window.wholeSeconds) :
    ¬ t.HeldElsewhere a now := by
  rintro ⟨k, hk, other, holds', i, hi, same, overlaps⟩
  -- Locks that exclude each other do so either way round.
  have : Std.Symm (t.Excludes now) := ⟨fun _ _ => Tables.Excludes.symm⟩
  have differ : k ≠ l := by
    rintro rfl
    exact other (own.trans ofJob.symm)
  rw [window, Window.wholeSeconds_wholeSeconds] at overlaps
  exact h.apart.forall hk hl differ _ holds' holds j (mem_of_find?_key found).1 own.symm
    ⟨i, hi, same, overlaps⟩

namespace Engine

/-- Nobody else holds a provider whom a commit sends. -/
theorem commitChoice_respects (ready : e.Ready)
    (known : ∀ l ∈ e.store.tables.locks, e.store.tables.hasJob l.jobId = true)
    {choice : Option (Job × Selection)}
    (fits : ∀ j selection, choice = some (j, selection) →
      selection.providerIds.Nodup ∧ selection.providerIds.length = j.requiredMembers)
    (there : a ∈ (after (commitChoice now choice) e).store.tables.assignments)
    (new : a ∉ e.store.tables.assignments) :
    ∃ j selection, choice = some (j, selection) ∧ a.jobId = j.id ∧
      a.window = j.window.wholeSeconds ∧
      ¬ (after (commitChoice now choice) e).store.tables.HeldElsewhere a now := by
  obtain same | ⟨j, selection, chosen, sends, unlocked⟩ := commitChoice_sends ready fits
  · rw [same] at there
    exact absurd there new
  · obtain ⟨ofJob, -, sent, window⟩ := sends.mem_new there new
    refine ⟨j, selection, chosen, ofJob, window, ?_⟩
    rw [sends.spares.heldElsewhere_iff ofJob known, Tables.heldElsewhere_iff ofJob window,
      unlocked _ sent]
    exact Bool.false_ne_true

/-- Nobody else holds a provider whom the commit of an older choice sends. -/
theorem commitSeen_sent (ready : e.Ready) {view : Engine}
    (keyed : view.store.tables.RosterKeyed) (prices : view.KeepsRoster)
    (known : ∀ l ∈ e.store.tables.locks, e.store.tables.hasJob l.jobId = true) {jobId : String}
    (there : a ∈ (after (commitSeen view jobId now) e).store.tables.assignments)
    (new : a ∉ e.store.tables.assignments) :
    ∃ j, view.store.tables.job? jobId = some j ∧ a.jobId = jobId ∧
      a.window = j.window.wholeSeconds ∧
      ¬ (after (commitSeen view jobId now) e).store.tables.HeldElsewhere a now := by
  unfold commitSeen at there ⊢
  cases chosen : choose jobId now view with
  | error fault view' =>
    rw [chosen] at there
    exact absurd there new
  | ok choice view' =>
    rw [chosen] at there
    have chosenFor : ∀ j selection, choice = some (j, selection) →
        view.store.tables.job? jobId = some j ∧ selection.providerIds.Nodup ∧
          selection.providerIds.length = j.requiredMembers := by
      rintro j selection rfl
      exact choose_cases keyed prices chosen
    obtain ⟨j, selection, rfl, ofJob, window, free⟩ := commitChoice_respects ready known
      (fun j selection same => (chosenFor j selection same).2) there new
    have found := (chosenFor j selection rfl).1
    exact ⟨j, found, ofJob.trans (mem_of_find?_key found).2, window, free⟩

theorem commitSeen_respects (ready : e.Ready) {view : Engine}
    (keyed : view.store.tables.RosterKeyed) (prices : view.KeepsRoster)
    (known : ∀ l ∈ e.store.tables.locks, e.store.tables.hasJob l.jobId = true) {jobId : String}
    (there : a ∈ (after (commitSeen view jobId now) e).store.tables.assignments)
    (new : a ∉ e.store.tables.assignments) : a.jobId = jobId ∧
      ¬ (after (commitSeen view jobId now) e).store.tables.HeldElsewhere a now := by
  obtain ⟨j, -, ofJob, -, free⟩ := commitSeen_sent ready keyed prices known there new
  exact ⟨ofJob, free⟩

/-- Nor one whom an automatic assignment sends. -/
theorem autoAssign_respects (ready : e.Ready)
    (known : ∀ l ∈ e.store.tables.locks, e.store.tables.hasJob l.jobId = true) {jobId : String}
    (there : a ∈ (after (autoAssign jobId now) e).store.tables.assignments)
    (new : a ∉ e.store.tables.assignments) :
    ∃ j, e.store.tables.job? jobId = some j ∧ a.jobId = jobId ∧ a.window = j.window.wholeSeconds ∧
      ¬ (after (autoAssign jobId now) e).store.tables.HeldElsewhere a now := by
  have rests : e.Rests (after (choose jobId now) e) := rests_choose ready.quiet jobId
  have looked : e.Leads now (after (choose jobId now) e) := rests.leads ready
  rw [after_autoAssign] at there ⊢
  rw [← rests.store] at known new
  exact commitSeen_sent (looked.ready ready) ready.keyed.toRosterKeyed ready.keepsRoster known
    there new

/-- A promotion leaves the locks of other jobs as they are. A provider whom it sends by a lock on
himself is held by nobody else. -/
theorem promote_respects (ready : e.Ready) (exclusive : e.store.tables.Exclusive now)
    {jobId : String} (there : a ∈ (after (promote jobId now) e).store.tables.assignments)
    (new : a ∉ e.store.tables.assignments) :
    ∃ j, e.store.tables.job? jobId = some j ∧ a.jobId = jobId ∧ a.window = j.window.wholeSeconds ∧
      ((after (promote jobId now) e).store.tables.HeldElsewhere a now ↔
        e.store.tables.HeldElsewhere a now) ∧
      (a.teamId = none → ¬ e.store.tables.HeldElsewhere a now) := by
  obtain same | ⟨j, choice, rows, rfl, decides, sends⟩ := promote_sends ready jobId now
  · rw [same] at there
    exact absurd there new
  · obtain ⟨ofJob, byTeam, sent, window⟩ := sends.mem_new there new
    refine ⟨j, decides.found, ofJob, window, sends.spares.heldElsewhere_iff ofJob exclusive.known,
      fun none => ?_⟩
    -- Without a team, locks of the job decided, one on each provider.
    obtain ⟨-, -, -, -, byLocks⟩ := Promotion.choice?_cases ready.keyed.toRosterKeyed decides.chosen
    obtain ⟨l, usable, target⟩ := byLocks (byTeam.symm.trans none) a.providerId sent
    simp only [List.mem_filter, Tables.locksFor, Lock.isUsable, Bool.and_eq_true, Bool.false_or,
      beq_iff_eq, Bool.not_eq_true'] at usable
    obtain ⟨⟨hl, ⟨own, live⟩, -⟩, -, lasts⟩ := usable
    exact exclusive.not_heldElsewhere hl ⟨LockTarget.providerId?_eq_some.mp target, live, lasts⟩ own
      decides.found ofJob window

end Engine

/-! ## Runs -/

namespace Run

variable {past : List (Engine × Operation)} {e₀ : Engine} {op : Operation}

/-- Each operation of a run was made at the end of a run. -/
theorem until_made (run : Run past e) (made : (e₀, op) ∈ past) :
    ∃ before, Run before e₀ ∧ op.IsAdmissible ∧ (before ++ [(e₀, op)]).Sublist past := by
  -- The induction has to carry the run itself along: the last operation was made at its end.
  refine (run.induct (P := fun past e => Run past e ∧ ∀ made ∈ past, ∃ before, Run before made.1 ∧
    made.2.IsAdmissible ∧ (before ++ [made]).Sublist past) ?_ ?_).2 _ made
  · intro e empty idle quiet
    exact ⟨.start empty idle quiet, fun _ h => absurd h List.not_mem_nil⟩
  · rintro past e op ⟨run, ih⟩ admissible
    refine ⟨run.operation op admissible, fun made hmade => ?_⟩
    rcases List.mem_append.mp hmade with earlier | last
    · obtain ⟨before, run', admissible', upTo⟩ := ih made earlier
      exact ⟨before, run', admissible', upTo.trans (List.sublist_append_left _ _)⟩
    · rw [List.mem_singleton.mp last]
      exact ⟨past, run, admissible, List.Sublist.refl _⟩

/-- If the clock of a run does not go back, locks on providers exclude each other when an operation
is made, at its instant. -/
theorem exclusive_until (run : Run past e) (timely : IsTimely past) (made : (e₀, op) ∈ past)
    (timed : op.instant? e₀ = some now) : e₀.Ready ∧ op.IsAdmissible ∧
      e₀.store.tables.Exclusive now := by
  obtain ⟨before, run, admissible, upTo⟩ := run.until_made made
  have timely' : IsTimely (before ++ [(e₀, op)]) := timely.sublist (upTo.filterMap _)
  unfold IsTimely at timely'
  rw [instants_append, timed, List.pairwise_append] at timely'
  obtain ⟨timely', -, earlier⟩ := timely'
  exact ⟨run.ready, admissible, run.exclusive timely' now fun i hi =>
    earlier i hi now (List.mem_singleton_self now)⟩

end Run

/-- An operation that tries to staff the job at the instant. -/
def Operation.Tries (op : Operation) (jobId : String) (now : Instant) : Prop :=
  op = .autoAssign jobId now ∨ op = .promote jobId now ∨ ∃ view, op = .commitSeen view jobId now

/-- **When a provider is sent although another job holds him.** In a run whose clock does not go
back, let an operation that tries to staff a job add an assignment. It is to that job, and in the
job's window unless the choice was made elsewhere. Another overlapping job has a lock on its
provider afterwards exactly if the operation is a promotion, a lock on a team decided it, and the
provider was held so before.

So automatic assignments and promotions by locks on providers respect the locks of other jobs. -/
theorem sent_although_held_iff {past : List (Engine × Operation)} (run : Run past e)
    (timely : Run.IsTimely past) {e₀ : Engine} {op : Operation} (made : (e₀, op) ∈ past)
    {jobId : String} (tries : op.Tries jobId now)
    (there : a ∈ (op.after e₀).store.tables.assignments)
    (new : a ∉ e₀.store.tables.assignments) :
    a.jobId = jobId ∧
      ((∀ view, op ≠ .commitSeen view jobId now) →
        ∃ j, e₀.store.tables.job? jobId = some j ∧ a.window = j.window.wholeSeconds) ∧
      ((op.after e₀).store.tables.HeldElsewhere a now ↔
        op = .promote jobId now ∧ a.teamId.isSome ∧ e₀.store.tables.HeldElsewhere a now) := by
  have timed : op.instant? e₀ = some now := by
    rcases tries with rfl | rfl | ⟨view, rfl⟩ <;> rfl
  obtain ⟨ready, admissible, exclusive⟩ := run.exclusive_until timely made timed
  rcases tries with rfl | rfl | ⟨view, rfl⟩
  · obtain ⟨j, found, ofJob, window, free⟩ :=
      Engine.autoAssign_respects ready exclusive.known there new
    refine ⟨ofJob, fun _ => ⟨j, found, window⟩, fun held => absurd held free, ?_⟩
    rintro ⟨never, -⟩
    cases never
  · obtain ⟨j, found, ofJob, window, same, free⟩ :=
      Engine.promote_respects ready exclusive there new
    refine ⟨ofJob, fun _ => ⟨j, found, window⟩, fun held => ?_, fun ⟨_, _, held⟩ => same.mpr held⟩
    refine ⟨rfl, Option.isSome_iff_ne_none.mpr fun none => ?_, same.mp held⟩
    exact free none (same.mp held)
  · obtain ⟨ofJob, free⟩ := Engine.commitSeen_respects ready admissible.1 admissible.2
      exclusive.known there new
    refine ⟨ofJob, fun other => absurd rfl (other view), fun held => absurd held free, ?_⟩
    rintro ⟨never, -⟩
    cases never

/-- Two jobs at the same time: one has a confirmed lock on a team, the other one a lock on the only
member. -/
def Sample.twoHolds : List Operation := [
  .insertProvider (provider "ada"), .createTeam admin (team ["ada"]), .createJob (job 9),
  .createJob (job 9), .createLocks admin (idText "job" 1) ⟨.team (idText "team" 0) none, none⟩,
  .confirmLocks admin (idText "job" 1) none,
  .createLocks admin (idText "job" 2) ⟨.providers ["ada"], none⟩]

/-- The assignment that the member gets when the first job is promoted. -/
def Sample.sentByTeam : Assignment where
  id := idText "asg" 7
  jobId := idText "job" 1
  providerId := "ada"
  teamId := some (idText "team" 0)
  start := Instant.utc 2026 3 2 9 0
  stop := Instant.utc 2026 3 2 11 0
  status := .scheduled
  createdAt := 0

theorem Sample.twoHolds_promoted : ∃ past e e₀, Run past e ∧ Run.IsTimely past ∧
    (e₀, .promote (idText "job" 1) 0) ∈ past ∧
      sentByTeam ∈ ((Operation.promote (idText "job" 1) 0).after e₀).store.tables.assignments ∧
      sentByTeam ∉ e₀.store.tables.assignments ∧
      ((Operation.promote (idText "job" 1) 0).after e₀).store.tables.HeldElsewhere
        sentByTeam 0 := by
  obtain ⟨past, trace⟩ : ∃ past, past = Operation.trace twoHolds engine := ⟨_, rfl⟩
  obtain ⟨e₀, left⟩ : ∃ e₀, e₀ = Operation.afterAll twoHolds engine := ⟨_, rfl⟩
  have run : Run past e₀ := trace ▸ left ▸ Run.of_operations rfl rfl (fun _ _ _ => rfl)
    (by simp [twoHolds, Operation.IsAdmissible])
  refine ⟨_, _, e₀, run.operation (.promote (idText "job" 1) 0) trivial, ?_,
    List.mem_append_right _ (List.mem_singleton_self _), ?_⟩
  · rw [trace, left]
    decide +kernel
  · rw [left]
    decide +kernel

/-- The member is sent although the other job holds him, before and after. -/
theorem sent_although_held_iff_twoHolds : ∃ past e e₀, Run past e ∧ Run.IsTimely past ∧
    (e₀, .promote (idText "job" 1) 0) ∈ past ∧ e₀.store.tables.HeldElsewhere Sample.sentByTeam 0 ∧
      Sample.sentByTeam ∈
        ((Operation.promote (idText "job" 1) 0).after e₀).store.tables.assignments := by
  obtain ⟨past, e, e₀, run, timely, made, there, new, held⟩ := Sample.twoHolds_promoted
  obtain ⟨-, -, iff⟩ := sent_although_held_iff run timely made (.inr (.inl rfl)) there new
  exact ⟨past, e, e₀, run, timely, made, (iff.mp held).2.2, there⟩

/-- So it is not so that a provider whom an operation sends is never held by another job. -/
theorem not_sent_only_if_free : ¬ ∀ (past : List (Engine × Operation)) (e : Engine), Run past e →
    Run.IsTimely past → ∀ (e₀ : Engine) (op : Operation), (e₀, op) ∈ past →
      ∀ (jobId : String) (now : Instant), op.Tries jobId now →
        ∀ a ∈ (op.after e₀).store.tables.assignments, a ∉ e₀.store.tables.assignments →
          ¬ (op.after e₀).store.tables.HeldElsewhere a now := by
  intro never
  obtain ⟨past, e, e₀, run, timely, made, there, new, held⟩ := Sample.twoHolds_promoted
  exact never past e run timely e₀ _ made _ _ (.inr (.inl rfl)) _ there new held

end Staffing
