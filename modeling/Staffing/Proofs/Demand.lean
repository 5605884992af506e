import Staffing.Proofs.Frames

/-!
# Calls that spare jobs

Most calls on the engine leave jobs and assignments alone and tell of no failed attempt at matching,
whichever way they end.

* `Tables.retries` — the events of the log that tell of retries
* `Tables.SameDemand` — jobs, assignments and these events are the same
* `EngineWork.Spares` — what a call does that leaves them the same, whichever way it ends
* `Engine.dispatch_tells`, `Engine.dispatch_log`, `Engine.dispatch_demand` — what telling of events
  does
-/

namespace Staffing

variable {now : Instant} {t t' : Tables} {s s' : Store} {e e' : Engine} {α β : Type}

/-- Does the event tell of a failed attempt at matching? -/
def Event.isRetry : Event → Bool
  | matchRetryFailed .. | fallbackRequested .. | jobEscalated .. => true
  | _ => false

/-- The event that the entry tells. -/
def LogEntry.event? (l : LogEntry) : Option Event :=
  match l.body with
  | .event e => some e
  | .raw .. => none

namespace Tables

/-- The events of the log that tell of failed attempts at matching, oldest first. -/
def retries (t : Tables) : List Event := (t.log.filterMap (·.event?)).filter (·.isRetry)

/-- Jobs and assignments are the same, and so are the events that tell of retries. -/
structure SameDemand (t t' : Tables) : Prop where
  jobs : t'.jobs = t.jobs
  assignments : t'.assignments = t.assignments
  retries : t'.retries = t.retries

namespace SameDemand

theorem refl (t : Tables) : t.SameDemand t := ⟨rfl, rfl, rfl⟩

theorem trans (t t' t'' : Tables) (h : t.SameDemand t') (h' : t'.SameDemand t'') :
    t.SameDemand t'' where
  jobs := h'.jobs.trans h.jobs
  assignments := h'.assignments.trans h.assignments
  retries := h'.retries.trans h.retries

end SameDemand

theorem RosterGrows.sameDemand (h : t.RosterGrows t') : t.SameDemand t' := by
  rw [h.others]
  exact ⟨rfl, rfl, rfl⟩

theorem OnlyLocks.sameDemand (h : t.OnlyLocks t') : t.SameDemand t' := by
  obtain ⟨_, _, _, rfl⟩ := h
  exact ⟨rfl, rfl, rfl⟩

end Tables

/-- The unit of work leaves jobs and assignments alone. -/
abbrev Work.Spares (w : Work α) : Prop := w.Does Tables.SameDemand

/-! ## Calls that spare jobs -/

/-- Whichever way the call ends, jobs and assignments are the same, it has told of no retry, and it
has left no transaction open. -/
def EngineWork.Spares (w : EngineWork α) : Prop :=
  ∀ e : Engine, e.store.saved = none →
    e.store.tables.SameDemand (after w e).store.tables ∧ (after w e).store.saved = none

namespace Engine

open Tables (SameDemand)

theorem spares_pure (a : α) : (pure a : EngineWork α).Spares := keeps_pure SameDemand.refl a

theorem spares_clock : clock.Spares := fun _ idle => ⟨.refl _, idle⟩

theorem spares_bind {w : EngineWork α} {f : α → EngineWork β} (hw : w.Spares)
    (hf : ∀ a, (f a).Spares) : (w >>= f).Spares := keeps_bind SameDemand.trans hw hf

theorem spares_onStore {w : Work α} (hw : w.Spares) (clean : w.FailsClean) :
    (onStore w).Spares := keeps_onStore SameDemand.refl hw clean

/-- Telling of events appends them to the log and to what the notifier was given, and that is
all. -/
theorem dispatch_tells (now : Instant) (events : List Event) (e : Engine) :
    ∃ entries, entries.map LogEntry.event? = events.map some ∧
      after (dispatch now events) e = { e with
        store := { e.store with
          tables := { e.store.tables with log := e.store.tables.log ++ entries } }
        notices := e.notices ++ events } := by
  induction events generalizing e with
  | nil => exact ⟨[], rfl, by simp only [List.append_nil]; rfl⟩
  | cons event rest ih =>
    obtain ⟨entries, told, later⟩ := ih (after (dispatchOne now event) e)
    let entry : LogEntry :=
      ⟨e.store.tables.log.length + 1, some event.jobId, .event event, now.wholeSecond⟩
    refine ⟨entry :: entries, congrArg (some event :: ·) told, later.trans ?_⟩
    rw [List.append_cons e.store.tables.log, List.append_cons e.notices]
    rfl

/-- Telling of events adds them to the log and changes no other table. -/
theorem dispatch_log (now : Instant) (events : List Event) (e : Engine) :
    (after (dispatch now events) e).store.saved = e.store.saved ∧
      ∃ log, (after (dispatch now events) e).store.tables = { e.store.tables with log } ∧
        log.filterMap (·.event?) = e.store.tables.log.filterMap (·.event?) ++ events := by
  obtain ⟨entries, told, left⟩ := dispatch_tells now events e
  have told : entries.filterMap (·.event?) = events := by
    have same := congrArg (List.filterMap id) told
    simpa [List.filterMap_map, Function.comp_def] using same
  rw [left]
  refine ⟨rfl, _, rfl, ?_⟩
  rw [List.filterMap_append, told]

/-- Telling of events adds those that tell of retries, and changes no job. -/
theorem dispatch_demand (now : Instant) (events : List Event) (e : Engine) :
    (after (dispatch now events) e).store.saved = e.store.saved ∧
      (after (dispatch now events) e).store.tables.jobs = e.store.tables.jobs ∧
      (after (dispatch now events) e).store.tables.assignments = e.store.tables.assignments ∧
      (after (dispatch now events) e).store.tables.retries
        = e.store.tables.retries ++ events.filter (·.isRetry) := by
  obtain ⟨saved, log, tables, told⟩ := dispatch_log now events e
  rw [tables]
  refine ⟨saved, rfl, rfl, ?_⟩
  unfold Tables.retries
  rw [told, List.filter_append]

theorem spares_dispatch {events : List Event} (silent : events.filter (·.isRetry) = []) :
    (dispatch now events).Spares := by
  intro e idle
  obtain ⟨saved, jobs, assignments, retries⟩ := dispatch_demand now events e
  rw [silent, List.append_nil] at retries
  exact ⟨⟨jobs, assignments, retries⟩, saved.trans idle⟩

/-- Telling of what was done, when there is something to tell. -/
theorem spares_tell {c : Prop} [Decidable c] {events : List Event}
    (silent : events.filter (·.isRetry) = []) (a : α) :
    (if c then (do dispatch now events; pure a) else pure a : EngineWork α).Spares :=
  keeps_ite (spares_bind (spares_dispatch silent) fun _ => spares_pure a) (spares_pure a)

/-- Writes of providers and teams. -/
theorem spares_roster {w : Work α} (does : w.Does Tables.RosterGrows) (clean : w.FailsClean) :
    (onStore w).Spares :=
  spares_onStore (does.mono fun _ _ => Tables.RosterGrows.sameDemand) clean

/-- Work on plans, slots and locks. -/
theorem spares_onLocks {w : Work α} (does : w.Does Tables.OnlyLocks) (clean : w.FailsClean) :
    (onStore w).Spares :=
  spares_onStore (does.mono fun _ _ => Tables.OnlyLocks.sameDemand) clean

theorem createTeam_spares (actor : Actor) (n : NewTeam) : (createTeam actor n).Spares :=
  (createTeam_grows actor n).mono fun _ _ => Tables.RosterGrows.sameDemand

theorem replaceTeamMembers_spares (actor : Actor) (teamId : String) (members : List Member) :
    (replaceTeamMembers actor teamId members).Spares :=
  (replaceTeamMembers_grows actor teamId members).mono fun _ _ => Tables.RosterGrows.sameDemand

theorem createLocks_spares (actor : Actor) (jobId : String) (request : LockRequest) :
    (createLocks actor jobId request).Spares := by
  unfold createLocks
  refine spares_bind (fun _ idle => ⟨.refl _, idle⟩) fun e => spares_bind ?_ fun locks =>
    spares_bind (spares_dispatch rfl) fun _ => spares_pure _
  exact spares_onLocks (Locks.create_onlyLocks _ _ _ _ _) (create_failsClean _ _ _ _ _)

theorem confirmLocks_spares (actor : Actor) (jobId : String) (ids : Option (List String)) :
    (confirmLocks actor jobId ids).Spares := by
  unfold confirmLocks
  refine spares_bind spares_clock fun now => spares_bind ?_ fun locks => spares_tell rfl _
  refine spares_onLocks (Locks.confirm_onlyLocks _ _ _ _) ?_
  exact (Work.looks_ofExcept _).bind fun _ => Work.failsClean_atomic _

theorem releaseLocks_spares (actor : Actor) (jobId : String) (ids : Option (List String)) :
    (releaseLocks actor jobId ids).Spares := by
  unfold releaseLocks
  refine spares_bind spares_clock fun now => spares_bind ?_ fun locks => spares_tell rfl _
  refine spares_onLocks (Locks.release_onlyLocks _ _ _ _) ?_
  exact (Work.looks_ofExcept _).bind fun _ => Work.failsClean_atomic _

theorem expireLock_spares (lockId : String) (now : Instant) : (expireLock lockId now).Spares := by
  unfold expireLock
  refine spares_bind (spares_onLocks (Locks.expire_onlyLocks _ _) (Work.failsClean_atomic _))
    fun answer => ?_
  cases answer with
  | none => exact spares_pure _
  | some l => exact spares_bind (spares_dispatch rfl) fun _ => spares_pure _

end Engine

end Staffing
