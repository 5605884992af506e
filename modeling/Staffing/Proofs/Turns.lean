import Staffing.Proofs.Demand

/-!
# Turns

Few operations change a job or an assignment: one that makes a job, one that cancels a job, three
that staff a job, and one that counts a failed attempt at matching. All others leave them alone, and
so do these when they fail or find nothing to do.

* `Operation.Reads` — the job as an operation that staffs it has read it
* `Turn` — what an operation does to jobs and assignments, and which retries it tells of
* `Operation.turn` — every operation does that
-/

namespace Staffing

open Tables (SameDemand)

variable {now : Instant} {e e' : Engine}

namespace Operation

/-- The operation staffs a job that it has read as `j`. -/
def Reads (e : Engine) (j : Job) : Operation → Prop
  | autoAssign jobId _ | promote jobId _ => e.store.tables.job? jobId = some j
  | commitSeen view jobId _ => view.store.tables.job? jobId = some j
  | _ => False

/-- If the operation is to count a failed attempt, the job has been changed since, or is no longer
pending. -/
def Passes (e : Engine) : Operation → Prop
  | recordFailure j _ _ staleBefore => ∀ stored, e.store.tables.job? j.id = some stored →
      stored.isPending = true → staleBefore.wholeSecond < stored.updatedAt.wholeSecond
  | _ => True

end Operation

/-- What an operation does to jobs and assignments, and which retries it tells of. -/
inductive Turn (e : Engine) : Operation → Engine → Prop
  /-- It does nothing to them. -/
  | rest {op : Operation} {e' : Engine} :
      op.Passes e → e.store.tables.SameDemand e'.store.tables → Turn e op e'
  /-- A new job. -/
  | book {n : NewJob} {id : String} {e' : Engine} :
      (∀ j ∈ e.store.tables.jobs, j.id ≠ id) →
      SameDemand { e.store.tables with
        jobs := e.store.tables.jobs ++ [(n.pending id e.now).stored] } e'.store.tables →
      Turn e (.createJob n) e'
  /-- A job is cancelled. -/
  | cancel {actor : Actor} {jobId : String} {e' : Engine} :
      (e.store.tables.cancelled jobId e.now).SameDemand e'.store.tables →
      Turn e (.cancelJob actor jobId) e'
  /-- A pending job is staffed. -/
  | staff {op : Operation} {j stored : Job} {teamId : Option String} {providerIds : List String}
      {now : Instant} {rows : List Assignment} {e' : Engine} :
      op.Reads e j → e.store.tables.job? j.id = some stored → stored.isPending = true →
      e.store.tables.assignmentsFor j.id = [] →
      e.store.tables.Staffs j teamId providerIds now rows →
      (e.store.tables.staffed j.id rows now).SameDemand e'.store.tables → Turn e op e'
  /-- A failed attempt at matching is counted, and told of. -/
  | note {j stored : Job} {maxRetries : Nat} {now staleBefore : Instant} {team : Option String}
      {e' : Engine} :
      e.store.tables.job? j.id = some stored → stored.isPending = true →
      stored.updatedAt.wholeSecond ≤ staleBefore.wholeSecond →
      e'.store.tables.jobs = (e.store.tables.saveMatchingState
        (Sweep.afterFailure stored maxRetries team now).1 now).jobs →
      e'.store.tables.assignments = e.store.tables.assignments →
      e'.store.tables.retries
        = e.store.tables.retries ++ (Sweep.afterFailure stored maxRetries team now).2 →
      Turn e (.recordFailure j maxRetries now staleBefore) e'

namespace Engine

/-! ## Staffing -/

/-- Telling of what was done to a job leaves it at that. -/
theorem dispatch_sameDemand {t : Tables} (now : Instant) {events : List Event}
    (silent : events.filter (·.isRetry) = []) (h : e.store.tables = t) :
    t.SameDemand (after (dispatch now events) e).store.tables := by
  obtain ⟨-, jobs, assignments, retries⟩ := dispatch_demand now events e
  rw [silent, List.append_nil] at retries
  exact h ▸ ⟨jobs, assignments, retries⟩

theorem autoAssign_turn (ready : e.Ready) (jobId : String) (now : Instant) :
    Turn e (.autoAssign jobId now) (after (autoAssign jobId now) e) := by
  obtain ⟨same, -⟩ | ⟨j, selection, e₁, rows, s', -, -, read, commits, same, told⟩ :=
    autoAssign_cases ready jobId now
  · exact .rest trivial (same ▸ .refl _)
  · obtain ⟨stored, found, pending⟩ := commits.found
    rw [after_of_ok told]
    exact .staff read found pending commits.vacant commits.staffs (dispatch_sameDemand now rfl same)

theorem commitSeen_turn (ready : e.Ready) {view : Engine}
    (keyed : view.store.tables.RosterKeyed) (prices : view.KeepsRoster) (jobId : String)
    (now : Instant) :
    Turn e (.commitSeen view jobId now) (after (commitSeen view jobId now) e) := by
  obtain ⟨same, -⟩ | ⟨j, selection, view', rows, s', -, read, commits, same, told⟩ :=
    commitSeen_cases ready.idle keyed prices jobId now
  · exact .rest trivial (same ▸ .refl _)
  · obtain ⟨stored, found, pending⟩ := commits.found
    rw [after_of_ok told]
    exact .staff read found pending commits.vacant commits.staffs (dispatch_sameDemand now rfl same)

theorem promote_turn (ready : e.Ready) (jobId : String) (now : Instant) :
    Turn e (.promote jobId now) (after (promote jobId now) e) := by
  unfold promote
  cases done : Promotion.promote jobId now e.store with
  | error fault s' =>
    rw [after_bind_of_error (onStore_of_error done)]
    obtain ⟨tables, -⟩ := Work.failsClean_atomic _ _ _ _ ready.idle done
    exact .rest trivial (tables ▸ .refl _)
  | ok answer s' =>
    rw [after_bind_of_ok (onStore_of_ok done)]
    obtain ⟨-, ⟨rfl, same⟩ | ⟨p, j, choice, rows, s₁, s₂, rfl, -, rfl, decides, tables₁, settled,
      tables⟩⟩ := Promotion.promote_ok_cases ready.idle ready.keyed done
    · exact .rest trivial (same ▸ .refl _)
    · have settles : s₁.tables.SameDemand s₂.tables :=
        (Promotion.eachSettle_onlyLocks choice.lockIds now _ _ _ _ settled).1.sameDemand
      rw [tables₁, ← tables] at settles
      refine .staff decides.found decides.found decides.pending decides.vacant decides.staffs ?_
      refine settles.trans _ _ _ ?_
      show Tables.SameDemand _ (after (dispatch now _ >>= fun _ => pure (some p)) _).store.tables
      rw [after_bind_pure]
      exact dispatch_sameDemand now rfl rfl

/-! ## Counting a failure -/

theorem afterFailure_isRetry (j : Job) (maxRetries : Nat) (team : Option String) (now : Instant) :
    (Sweep.afterFailure j maxRetries team now).2.filter (·.isRetry)
      = (Sweep.afterFailure j maxRetries team now).2 := by
  refine List.filter_eq_self.mpr fun event told => ?_
  unfold Sweep.afterFailure at told
  simp only [List.mem_append, List.mem_singleton, List.mem_ite_nil_right] at told
  obtain (rfl | ⟨-, rfl⟩) | ⟨-, rfl⟩ := told <;> rfl

theorem recordFailure_turn (ready : e.Ready) (j : Job) (maxRetries : Nat)
    (now staleBefore : Instant) :
    Turn e (.recordFailure j maxRetries now staleBefore)
      (after (Sweep.recordFailure j maxRetries now staleBefore) e) := by
  obtain ⟨team, e₁, events, s', -, -, left, -, counted⟩ :=
    recordFailure_notes ready.idle ready.quiet j maxRetries now staleBefore
  rw [left]
  obtain ⟨-, jobs, assignments, retries⟩ :=
    dispatch_demand now events { e₁ with store := s' }
  rcases counted with ⟨rfl, same, fresh⟩ | ⟨stored, found, pending, since, rfl, same⟩
  · exact .rest fresh (same ▸ .refl _)
  · rw [afterFailure_isRetry] at retries
    dsimp only at jobs assignments retries
    rw [same] at jobs assignments retries
    exact .note found pending since jobs assignments retries

end Engine

/-- **Every operation is a turn,** whether it succeeds or fails. -/
theorem Operation.turn (op : Operation) (ready : e.Ready) (admissible : op.IsAdmissible) :
    Turn e op (op.after e) := by
  -- Most operations have nothing to do with jobs.
  have rest {α : Type} {op : Operation} {w : EngineWork α} (passes : op.Passes e) (h : w.Spares) :
      Turn e op (Staffing.after w e) := .rest passes (h e ready.idle).1
  cases op with
  | createJob n =>
    show Turn e _ (Staffing.after (Engine.createJob n) e)
    obtain ⟨s', left, -, same | ⟨id, fresh, -, -, -, booked⟩⟩ :=
      Engine.createJob_cases ready.idle n
    · rw [left]
      exact .rest trivial (same ▸ .refl _)
    · rw [left]
      exact .book fresh (booked ▸ .refl _)
  | cancelJob actor jobId =>
    show Turn e _ (Staffing.after (Engine.cancelJob actor jobId) e)
    obtain ⟨s', left, -, same | ⟨-, cancelled⟩⟩ := Engine.cancelJob_cases ready.idle actor jobId
    · rw [left]
      exact .rest trivial (same ▸ .refl _)
    · rw [left]
      exact .cancel (cancelled ▸ .refl _)
  | createTeam actor n => exact rest trivial (Engine.createTeam_spares actor n)
  | replaceTeamMembers actor teamId members =>
    exact rest trivial (Engine.replaceTeamMembers_spares actor teamId members)
  | ensureSlot teamId start stop =>
    exact rest trivial (Engine.spares_onLocks
      ((Ledger.ensureSlot_onlyPlans teamId start stop).mono fun _ _ h => h.onlyLocks)
      (Work.failsClean_atomic _))
  | generatePlans teamId first last =>
    exact rest trivial (Engine.spares_onLocks
      ((Ledger.generatePlans_onlyPlans teamId first last).mono fun _ _ h => h.onlyLocks)
      (Ledger.generatePlans_failsClean teamId first last))
  | createLocks actor jobId request =>
    exact rest trivial (Engine.createLocks_spares actor jobId request)
  | confirmLocks actor jobId ids => exact rest trivial (Engine.confirmLocks_spares actor jobId ids)
  | releaseLocks actor jobId ids => exact rest trivial (Engine.releaseLocks_spares actor jobId ids)
  | expireLock lockId now => exact rest trivial (Engine.expireLock_spares lockId now)
  | promote jobId now => exact Engine.promote_turn ready jobId now
  | autoAssign jobId now => exact Engine.autoAssign_turn ready jobId now
  | commitSeen view jobId now =>
    exact Engine.commitSeen_turn ready admissible.1 admissible.2 jobId now
  | recordFailure j maxRetries now staleBefore =>
    exact Engine.recordFailure_turn ready j maxRetries now staleBefore
  | insertProvider p =>
    exact rest trivial (Engine.spares_roster (Store.insertProvider_does p)
      (Work.failsClean_atomic _))
  | replaceSlots providerId slots =>
    exact rest trivial (Engine.spares_roster (Store.replaceSlots_does providerId slots)
      (Work.failsClean_atomic _))
  | addTimeOff providerId w =>
    exact rest trivial (Engine.spares_roster (Work.does_run fun _ _ => Tables.addTimeOff_grows)
      (Work.failsClean_run _))
  | setRating providerId average count =>
    exact rest trivial (Engine.spares_roster (Work.does_run fun _ _ => Tables.setRating_grows)
      (Work.failsClean_run _))
  | setTeamActive teamId active =>
    have spares : (Engine.onStore (Work.write (Tables.setTeamActive teamId active))).Spares :=
      Engine.spares_roster (Work.does_write (Tables.setTeamActive_grows teamId active))
        (Work.failsClean_write _)
    exact .rest trivial (spares e ready.idle).1
  | serve next => exact .rest trivial (.refl _)

end Staffing
