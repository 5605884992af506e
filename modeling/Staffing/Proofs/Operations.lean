import Staffing.Proofs.Assigning
import Staffing.Proofs.EngineWork
import Staffing.Proofs.Roster

/-!
# Operations step by step

Every call on the engine takes steps, whichever way it ends, and leaves the engine ready for the
next one. A call that fails has changed no table.

* `Engine.createJob_cases`, `Engine.cancelJob_cases`, `Engine.noteFailure_cases` — what is written
* `Engine.recordFailure_notes` — a failed attempt is counted and told of, and no more
* `Engine.leads_createJob`, `Engine.leads_autoAssign`, … — calls that take calm steps
* `Engine.commitSeen` — a choice that was made on another engine than it is committed to
* `Engine.commitSeen_cases`, `Engine.autoAssign_cases` — a choice is committed, or nothing is done
* `Engine.createLocks_cases`, `Engine.promote_cases` — those that may take others
-/

namespace Staffing

namespace Engine

variable {now : Instant} {e e' : Engine}

/-! ## Jobs -/

theorem requireOperational_eq_ok {actor : Actor} {action : String} {u : Unit} :
    actor.requireOperational action = .ok u ↔ actor.isOperational = true := by
  unfold Actor.requireOperational
  split
  · next may => simp [may]
  · next may => simp [may]

theorem checkHeadcount_eq_ok {n : Nat} {u : Unit} : checkHeadcount n = .ok u ↔ 1 ≤ n ∧ n ≤ 20 := by
  unfold checkHeadcount
  split
  · next range => simp [range]
  · next range => simp [range]

/-- A new job is stored, or no table changes. -/
theorem createJob_cases (idle : e.store.saved = none) (n : NewJob) :
    ∃ s', after (createJob n) e = { e with store := s' } ∧ s'.saved = none ∧
      (s'.tables = e.store.tables ∨ ∃ id, (∀ j ∈ e.store.tables.jobs, j.id ≠ id) ∧
        n.start.wholeSecond < n.stop.wholeSecond ∧ 1 ≤ n.requiredMembers ∧
        n.requiredMembers ≤ 20 ∧ s'.tables = { e.store.tables with
          jobs := e.store.tables.jobs ++ [(n.pending id e.now).stored] }) := by
  unfold createJob
  cases Window.checked n.start n.stop with
  | error fault => exact ⟨e.store, rfl, idle, .inl rfl⟩
  | ok w =>
    cases headcount : checkHeadcount n.requiredMembers with
    | error fault => exact ⟨e.store, rfl, idle, .inl rfl⟩
    | ok _ =>
      obtain ⟨least, most⟩ := checkHeadcount_eq_ok.mp headcount
      rw [after_bind_of_ok (ofExcept_apply w e), after_bind_of_ok (ofExcept_apply _ e)]
      split
      · exact ⟨e.store, rfl, idle, .inl rfl⟩
      · cases drawn : Work.draw .job e.store with
        | error fault s => cases drawn
        | ok id s =>
          obtain ⟨tables, saved⟩ := Work.draw_eq_ok drawn
          rw [after_bind_of_ok (onStore_of_ok drawn)]
          show ∃ s', after (onStore (Work.run (Tables.insertJob (n.pending id e.now))) >>= fun _ =>
            pure (n.pending id e.now)) { e with store := s } = _ ∧ _
          rw [after_bind_pure, after_onStore]
          refine ⟨_, rfl, ?_⟩
          cases stored : Work.run (Tables.insertJob (n.pending id e.now)) s with
          | error fault s' =>
            rw [after_of_error stored]
            obtain ⟨same, idle'⟩ := Work.failsClean_run _ _ _ _ (saved.trans idle) stored
            exact ⟨idle', .inl (same.trans tables)⟩
          | ok u s' =>
            rw [after_of_ok stored]
            obtain ⟨t, done, rfl⟩ := Work.run_eq_ok.mp stored
            rw [tables] at done
            obtain ⟨fresh, lasts, rfl⟩ := Tables.insertJob_eq_ok.mp done
            exact ⟨saved.trans idle, .inr ⟨id, fresh, lasts, least, most, rfl⟩⟩

theorem leads_createJob (ready : e.Ready) (n : NewJob) :
    e.Leads e.now (after (createJob n) e) := by
  obtain ⟨s', left, idle, same | ⟨id, fresh, lasts, least, most, booked⟩⟩ :=
    createJob_cases ready.idle n
  · rw [left]
    exact ⟨same ▸ .refl, idle, rfl, rfl, rfl⟩
  · rw [left]
    exact ⟨booked ▸ .single (.book fresh lasts least most), idle, rfl, rfl, rfl⟩

/-- Cancelling a stored job is one change of the tables, also within an open transaction. -/
theorem cancelJob_apply {actor : Actor} {jobId : String} {j : Job}
    (may : actor.isOperational = true) (found : e.store.tables.job? jobId = some j) :
    cancelJob actor jobId e = .ok { j with status := .cancelled, updatedAt := e.now }
      { e with store := { e.store with tables := e.store.tables.cancelled jobId e.now } } := by
  unfold cancelJob
  rw [bind_of_ok (ofExcept_eq_ok.mpr ⟨requireOperational_eq_ok (u := ()).mpr may, rfl⟩),
    bind_of_ok (clock_apply e)]
  refine onStore_of_ok (Work.atomic_of_apply (f := (·.cancelled jobId e.now)) fun s same => ?_)
  rw [bind_of_ok (Work.demand_eq_ok.mpr ⟨same ▸ found, rfl⟩),
    bind_of_ok (Work.ask_eq_ok.mpr ⟨rfl, rfl⟩), bind_of_ok (Work.each_write _ _ s)]
  rfl

/-- A job is cancelled, or no table changes. -/
theorem cancelJob_cases (idle : e.store.saved = none) (actor : Actor) (jobId : String) :
    ∃ s', after (cancelJob actor jobId) e = { e with store := s' } ∧ s'.saved = none ∧
      (s'.tables = e.store.tables ∨
        e.store.tables.hasJob jobId = true ∧ s'.tables = e.store.tables.cancelled jobId e.now) := by
  unfold cancelJob
  cases actor.requireOperational "cancel jobs" with
  | error fault => exact ⟨e.store, rfl, idle, .inl rfl⟩
  | ok _ =>
    rw [after_bind_of_ok (ofExcept_apply _ e), after_bind_of_ok (clock_apply e), after_onStore]
    refine ⟨_, rfl, ?_⟩
    unfold after
    split
    · next s' cancels =>
      obtain ⟨s₁, done, rfl⟩ := (Work.atomic_eq_ok idle).mp cancels
      simp only [bind_eq_ok, Work.demand_eq_ok, Work.ask_eq_ok, Work.write_eq_ok, pure_eq_ok]
        at done
      obtain ⟨j, _, ⟨found, rfl⟩, live, s, ⟨rfl, rfl⟩, _, s₂, cancelled, _, _, rfl, -, rfl⟩ := done
      obtain ⟨tables, -⟩ := Work.each_eq_ok
        (f := fun a : Assignment => Tables.setAssignmentStatus a.id .cancelled)
        (fun a _ s u s' h => by rw [Work.write_eq_ok.mp h]; exact ⟨rfl, rfl⟩) cancelled
      refine ⟨rfl, .inr ⟨any_key.mpr ⟨j, mem_of_find?_key found⟩, ?_⟩⟩
      show s₂.tables.setJobStatus jobId .cancelled _ = _
      rw [tables]
      rfl
    · next fault s' done =>
      obtain ⟨same, idle'⟩ := Work.atomic_error_cases idle done
      exact ⟨idle', .inl same⟩

theorem leads_cancelJob (ready : e.Ready) (actor : Actor) (jobId : String) :
    e.Leads e.now (after (cancelJob actor jobId) e) := by
  obtain ⟨s', left, idle, same | ⟨known, cancelled⟩⟩ := cancelJob_cases ready.idle actor jobId
  · rw [left]
    exact ⟨same ▸ .refl, idle, rfl, rfl, rfl⟩
  · rw [left]
    exact ⟨cancelled ▸ .single (.cancel known), idle, rfl, rfl, rfl⟩

/-! ## Teams and providers -/

/-- Writes of providers and teams are a calm step. -/
theorem leads_roster {α : Type} {w : Work α} (ready : e.Ready)
    (does : w.Does Tables.RosterGrows) (clean : w.FailsClean) :
    e.Leads now (after (onStore w) e) := by
  refine leads_onStore ready clean fun a s' h => ?_
  obtain ⟨grows, saved⟩ := does _ _ _ h
  exact ⟨.single (.roster grows), saved.trans ready.idle⟩

theorem leads_createTeam (ready : e.Ready) (actor : Actor) (n : NewTeam) :
    e.Leads now (after (createTeam actor n) e) := by
  unfold createTeam
  refine leads_bind ready (leads_ofExcept ready _) fun _ e₁ _ _ ready₁ => ?_
  refine leads_guard ready₁ fun _ => leads_guard ready₁ fun zone => leads_guard ready₁ fun _ => ?_
  refine leads_bind ready₁ (leads_ask ready₁ _) fun _ e₂ _ _ ready₂ => ?_
  refine leads_bind ready₂ (leads_ofExcept ready₂ _) fun _ e₃ _ _ ready₃ => ?_
  refine leads_bind ready₃ ?_ fun id e₄ _ _ ready₄ => ?_
  · refine leads_onStore ready₃ (Work.failsClean_draw _) fun id s' drawn => ?_
    obtain ⟨tables, saved⟩ := Work.draw_eq_ok drawn
    rw [tables, saved]
    exact ⟨.refl, ready₃.idle⟩
  · refine leads_bind ready₄ ?_ fun _ e₅ _ _ ready₅ => leads_pure ready₅ _
    refine leads_roster ready₄ (Store.insertTeam_does ?_) (Work.failsClean_atomic _)
    simpa [Option.isSome_iff_ne_none] using zone

theorem leads_replaceTeamMembers (ready : e.Ready) (actor : Actor) (teamId : String)
    (members : List Member) : e.Leads now (after (replaceTeamMembers actor teamId members) e) := by
  unfold replaceTeamMembers
  refine leads_bind ready (leads_ofExcept ready _) fun _ e₁ _ _ ready₁ => ?_
  refine leads_bind ready₁ (leads_demand ready₁) fun _ e₂ _ _ ready₂ => ?_
  refine leads_bind ready₂ (leads_ask ready₂ _) fun _ e₃ _ _ ready₃ => ?_
  refine leads_bind ready₃ (leads_ofExcept ready₃ _) fun _ e₄ _ _ ready₄ => ?_
  refine leads_bind ready₄ ?_ fun _ e₅ _ _ ready₅ => leads_pure ready₅ _
  exact leads_roster ready₄ (Store.replaceMembers_does teamId members) (Work.failsClean_atomic _)

/-! ## Capacity -/

theorem leads_ensureSlot (ready : e.Ready) (teamId : String) (start stop : Instant) :
    e.Leads now (after (ensureSlot teamId start stop) e) := by
  refine leads_onStore ready (Work.failsClean_atomic _) fun slot s' h => ?_
  obtain ⟨calms, saved⟩ := Ledger.ensureSlot_does teamId start stop _ _ _ h
  exact ⟨calms, saved.trans ready.idle⟩

theorem leads_generatePlans (ready : e.Ready) (teamId : String) (first last : Day) :
    e.Leads now (after (generatePlans teamId first last) e) := by
  refine leads_onStore ready (Ledger.generatePlans_failsClean teamId first last) ?_
  intro plans s' h
  obtain ⟨calms, saved⟩ := Ledger.generatePlans_does teamId first last _ _ _ h
  exact ⟨calms, saved.trans ready.idle⟩

/-! ## Locks -/

/-- Telling of what was done, when there is something to tell. -/
theorem leads_tell {α : Type} {c : Prop} [Decidable c] (ready : e.Ready) (events : List Event)
    (a : α) : e.Leads now (after (if c then (do dispatch now events; pure a) else pure a) e) :=
  leads_ite
    (leads_bind ready (leads_dispatch ready events) fun _ _ _ _ ready' => leads_pure ready' a)
    (leads_pure ready a)

theorem leads_confirmLocks (ready : e.Ready) (actor : Actor) (jobId : String)
    (ids : Option (List String)) : e.Leads e.now (after (confirmLocks actor jobId ids) e) := by
  unfold confirmLocks
  refine leads_bind ready (.refl ready) fun now e₁ clock _ ready₁ => ?_
  obtain ⟨rfl, rfl⟩ : now = e.now ∧ e = e₁ := by simpa [Engine.clock, eq_comm] using clock
  refine leads_bind ready ?_ fun locks e₂ _ _ ready₂ => leads_tell ready₂ _ locks
  refine leads_onStore ready ?_ fun _ _ h => Locks.confirm_ok_cases ready.idle ready.keyed.locks h
  exact (Work.looks_ofExcept _).bind fun _ => Work.failsClean_atomic _

theorem leads_releaseLocks (ready : e.Ready) (actor : Actor) (jobId : String)
    (ids : Option (List String)) : e.Leads e.now (after (releaseLocks actor jobId ids) e) := by
  unfold releaseLocks
  refine leads_bind ready (.refl ready) fun now e₁ clock _ ready₁ => ?_
  obtain ⟨rfl, rfl⟩ : now = e.now ∧ e = e₁ := by simpa [Engine.clock, eq_comm] using clock
  refine leads_bind ready ?_ fun locks e₂ _ _ ready₂ => leads_tell ready₂ _ locks
  refine leads_onStore ready ?_ fun _ _ h => Locks.release_ok_cases ready.idle ready.keyed.locks h
  exact (Work.looks_ofExcept _).bind fun _ => Work.failsClean_atomic _

theorem leads_expireLock (ready : e.Ready) (lockId : String) :
    e.Leads now (after (expireLock lockId now) e) := by
  unfold expireLock
  refine leads_bind ready ?_ fun answer e₁ _ _ ready₁ => ?_
  · exact leads_onStore ready (Work.failsClean_atomic _) fun _ _ h =>
      Locks.expire_ok_cases ready.idle h
  · cases answer with
    | none => exact leads_pure ready₁ _
    | some l =>
      exact leads_bind ready₁ (leads_dispatch ready₁ _) fun _ _ _ _ ready₂ => leads_pure ready₂ _

/-! ## Matching -/

/-- Prices leave the keys of providers and teams unique. -/
def KeepsRoster (e : Engine) : Prop :=
  ∀ n q s, s.tables.RosterKeyed → (e.priceSource n q s).2.tables.RosterKeyed

theorem Ready.keepsRoster (ready : e.Ready) : e.KeepsRoster := by
  intro n q s keyed
  rw [ready.quiet n q s]
  exact keyed

/-- A ranking is of different providers; whatever has been done to the tables while it asked for a
price, their keys are unique. -/
theorem ranking_cases {criteria : Criteria} {ranked : List Scored}
    (keyed : e.store.tables.RosterKeyed) (prices : e.KeepsRoster)
    (h : ranking criteria now e = .ok ranked e') :
    (ranked.map (·.providerId)).Nodup ∧ e'.store.tables.RosterKeyed := by
  unfold ranking at h
  simp only [bind_eq_ok, ofExcept_eq_ok, pure_eq_ok] at h
  obtain ⟨_, _, ⟨-, rfl⟩, e₁, _, got, ceiling, e₂, priced, w, e₃, weighed, rfl, rfl⟩ := h
  cases got
  refine ⟨rank_nodup (Tables.candidates_nodup keyed _ _ _) _ _ _, ?_⟩
  cases weighed
  unfold priceCeiling at priced
  split at priced
  · cases priced
    exact keyed
  · cases priced
    exact prices _ _ _ keyed

/-- The choice names different providers, as many as the job needs; `e` may be any engine whose
keys are unique, also after it has asked for a price. -/
theorem choose_cases {jobId : String} {j : Job} {selection : Selection}
    (keyed : e.store.tables.RosterKeyed) (prices : e.KeepsRoster)
    (h : choose jobId now e = .ok (some (j, selection)) e') :
    e.store.tables.job? jobId = some j ∧ selection.providerIds.Nodup ∧
      selection.providerIds.length = j.requiredMembers := by
  unfold choose at h
  simp only [bind_eq_ok, onStore_eq_ok, Work.demand_eq_ok] at h
  obtain ⟨j', e₁, ⟨_, ⟨found, rfl⟩, rfl⟩, h⟩ := h
  split at h
  · cases (pure_eq_ok.mp h).1
  · unfold propose at h
    simp only [bind_eq_ok, pure_eq_ok, ask_eq_ok] at h
    obtain ⟨_, _, ⟨ranked, e₁, ranks, _, e₂, ⟨rfl, rfl⟩, rfl, rfl⟩, chosen, rfl⟩ := h
    obtain ⟨distinct, keyed₁⟩ := ranking_cases keyed prices ranks
    split at chosen
    · cases chosen
    · next enough =>
      obtain ⟨rfl, rfl⟩ := Prod.mk.inj (Option.some.inj chosen)
      have members : ∀ team ∈ e'.store.tables.activeTeams,
          (team.members.map (·.providerId)).Nodup :=
        fun team hteam => keyed₁.members team (List.mem_filter.mp hteam).1
      obtain ⟨nodup, atMost⟩ := Selection.choose_cases members distinct
      exact ⟨found, nodup, Nat.le_antisymm atMost (Nat.not_lt.mp enough)⟩

/-- A choice of enough different providers is committed and told of, or no table changes and no
choice is answered. -/
theorem commitChoice_cases (idle : e.store.saved = none) (now : Instant)
    {choice : Option (Job × Selection)}
    (fits : ∀ j selection, choice = some (j, selection) →
      selection.providerIds.Nodup ∧ selection.providerIds.length = j.requiredMembers) :
    ((after (commitChoice now choice) e).store.tables = e.store.tables ∧
        ∀ selection e', commitChoice now choice e ≠ .ok (some selection) e') ∨
      ∃ j selection rows s', choice = some (j, selection) ∧
        Selection.Commits e.store.tables j selection now rows ∧
        s'.tables = e.store.tables.staffed j.id rows now ∧
        commitChoice now choice e = .ok (some selection)
          (after (dispatch now [.jobMatched j.id selection.providerIds selection.teamId?])
            { e with store := s' }) := by
  cases choice with
  | none => exact .inl ⟨rfl, fun _ _ never => by cases (pure_eq_ok.mp never).1⟩
  | some choice =>
    obtain ⟨j, selection⟩ := choice
    obtain ⟨distinct, enough⟩ := fits j selection rfl
    have calls : commitChoice now (some (j, selection))
        = onStore (selection.commit j now) >>= fun committed =>
          if committed = true then do
            dispatch now [.jobMatched j.id selection.providerIds selection.teamId?]
            return some selection
          else return none := rfl
    rw [calls]
    cases done : selection.commit j now e.store with
    | error fault s' =>
      rw [after_bind_of_error (onStore_of_error done), bind_of_error (onStore_of_error done)]
      exact .inl ⟨(Work.failsClean_atomic _ _ _ _ idle done).1, fun _ _ never => by cases never⟩
    | ok committed s' =>
      rw [after_bind_of_ok (onStore_of_ok done), bind_of_ok (onStore_of_ok done)]
      obtain ⟨-, ⟨rfl, same⟩ | ⟨rfl, rows, same, commits⟩⟩ :=
        Selection.commit_ok_cases idle distinct enough done
      · exact .inl ⟨same, fun _ _ never => by cases (pure_eq_ok.mp never).1⟩
      · refine .inr ⟨j, selection, rows, s', rfl, commits, same, ?_⟩
        rw [if_pos rfl, bind_of_ok (dispatch_apply now _ _)]
        rfl

/-- A choice of enough different providers is committed, or nothing is done. -/
theorem leads_commitChoice (ready : e.Ready) {choice : Option (Job × Selection)}
    (fits : ∀ j selection, choice = some (j, selection) →
      selection.providerIds.Nodup ∧ selection.providerIds.length = j.requiredMembers) :
    e.Leads now (after (commitChoice now choice) e) := by
  cases choice with
  | none => exact leads_pure ready _
  | some choice =>
    obtain ⟨j, selection⟩ := choice
    obtain ⟨distinct, enough⟩ := fits j selection rfl
    refine leads_bind ready ?_ fun committed e₁ _ _ ready₁ => ?_
    · refine leads_onStore ready (Work.failsClean_atomic _) fun committed s' h => ?_
      obtain ⟨idle, ⟨-, same⟩ | ⟨-, rows, same, commits⟩⟩ :=
        Selection.commit_ok_cases ready.idle distinct enough h
      · exact ⟨same ▸ .refl, idle⟩
      · exact ⟨same ▸ .single commits.calm, idle⟩
    · exact leads_ite (leads_bind ready₁ (leads_dispatch ready₁ _) fun _ _ _ _ ready₂ =>
        leads_pure ready₂ _) (leads_pure ready₁ _)

theorem leads_autoAssign (ready : e.Ready) (jobId : String) :
    e.Leads now (after (autoAssign jobId now) e) := by
  unfold autoAssign
  refine leads_bind ready ((rests_choose ready.quiet jobId).leads ready) ?_
  intro choice e₁ chosen _ ready₁
  refine leads_commitChoice ready₁ fun j selection same => ?_
  subst same
  exact (choose_cases ready.keyed.toRosterKeyed ready.keepsRoster chosen).2

/-- Commits the choice that was made on the engine `view`, older or otherwise different. -/
def commitSeen (view : Engine) (jobId : String) (now : Instant) :
    EngineWork (Option Selection) :=
  match choose jobId now view with
  | .ok choice _ => commitChoice now choice
  | .error fault _ => refuse fault

/-- Who chooses and commits at once commits to what the choice has left. -/
theorem autoAssign_eq (jobId : String) (now : Instant) (view : Engine) :
    autoAssign jobId now view = commitSeen view jobId now (after (choose jobId now) view) := by
  unfold autoAssign commitSeen
  cases chosen : choose jobId now view with
  | ok choice view' => rw [bind_of_ok chosen, after_of_ok chosen]
  | error fault view' =>
    rw [bind_of_error chosen, after_of_error chosen]
    rfl

theorem after_autoAssign (jobId : String) (now : Instant) (e : Engine) :
    after (autoAssign jobId now) e
      = after (commitSeen e jobId now) (after (choose jobId now) e) := by
  unfold after
  rw [autoAssign_eq]
  rfl

/-- A choice is made, then committed and told of; or no table changes and no choice is answered. -/
theorem commitSeen_cases (idle : e.store.saved = none) {view : Engine}
    (keyed : view.store.tables.RosterKeyed) (prices : view.KeepsRoster) (jobId : String)
    (now : Instant) :
    ((after (commitSeen view jobId now) e).store.tables = e.store.tables ∧
        ∀ selection e', commitSeen view jobId now e ≠ .ok (some selection) e') ∨
      ∃ j selection view' rows s', choose jobId now view = .ok (some (j, selection)) view' ∧
        view.store.tables.job? jobId = some j ∧
        Selection.Commits e.store.tables j selection now rows ∧
        s'.tables = e.store.tables.staffed j.id rows now ∧
        commitSeen view jobId now e = .ok (some selection)
          (after (dispatch now [.jobMatched j.id selection.providerIds selection.teamId?])
            { e with store := s' }) := by
  unfold commitSeen
  cases chosen : choose jobId now view with
  | error fault view' => exact .inl ⟨rfl, fun _ _ never => by cases never⟩
  | ok choice view' =>
    have chosenFor : ∀ j selection, choice = some (j, selection) →
        view.store.tables.job? jobId = some j ∧ selection.providerIds.Nodup ∧
          selection.providerIds.length = j.requiredMembers := by
      rintro j selection rfl
      exact choose_cases keyed prices chosen
    obtain nothing | ⟨j, selection, rows, s', rfl, commits, same, told⟩ :=
      commitChoice_cases idle now fun j selection same => (chosenFor j selection same).2
    · exact .inl nothing
    · have found := (chosenFor j selection rfl).1
      exact .inr ⟨j, selection, view', rows, s', rfl, found, commits, same, told⟩

/-- So it is when the choice is made on the engine itself, which looks and changes no table. -/
theorem autoAssign_cases (ready : e.Ready) (jobId : String) (now : Instant) :
    ((after (autoAssign jobId now) e).store.tables = e.store.tables ∧
        ∀ selection e', autoAssign jobId now e ≠ .ok (some selection) e') ∨
      ∃ j selection e₁ rows s', choose jobId now e = .ok (some (j, selection)) e₁ ∧
        e.Rests e₁ ∧ e.store.tables.job? jobId = some j ∧
        Selection.Commits e.store.tables j selection now rows ∧
        s'.tables = e.store.tables.staffed j.id rows now ∧
        autoAssign jobId now e = .ok (some selection)
          (after (dispatch now [.jobMatched j.id selection.providerIds selection.teamId?])
            { e₁ with store := s' }) := by
  have rests : e.Rests (after (choose jobId now) e) := rests_choose ready.quiet jobId
  rw [autoAssign_eq, after_autoAssign, ← rests.store]
  obtain nothing | ⟨j, selection, e₁, rows, s', chosen, found, done⟩ :=
    commitSeen_cases (rests.store ▸ ready.idle) ready.keyed.toRosterKeyed ready.keepsRoster jobId
      now
  · exact .inl nothing
  · rw [after_of_ok chosen] at rests done ⊢
    exact .inr ⟨j, selection, e₁, rows, s', chosen, rests, rests.store ▸ found, done⟩

theorem leads_commitSeen (ready : e.Ready) {view : Engine}
    (keyed : view.store.tables.RosterKeyed) (prices : view.KeepsRoster) (jobId : String) :
    e.Leads now (after (commitSeen view jobId now) e) := by
  unfold commitSeen
  split
  · next choice view' chosen =>
    refine leads_commitChoice ready fun j selection same => ?_
    subst same
    exact (choose_cases keyed prices chosen).2
  · exact leads_refuse ready _

/-! ## Counting a failure -/

/-- Counting never fails. The attempt is counted unless there is no such job, or it is no longer
pending, or it has been changed since. -/
theorem noteFailure_cases {s : Store} (idle : s.saved = none) (jobId : String) (maxRetries : Nat)
    (fallbackTeam : Option String) (now staleBefore : Instant) :
    ∃ events s', Sweep.noteFailure jobId maxRetries fallbackTeam now staleBefore s = .ok events s' ∧
      s'.saved = none ∧ (events = [] ∧ s'.tables = s.tables ∧
          (∀ j, s.tables.job? jobId = some j → j.isPending = true →
            staleBefore.wholeSecond < j.updatedAt.wholeSecond) ∨
        ∃ j, s.tables.job? jobId = some j ∧ j.isPending = true ∧
          j.updatedAt.wholeSecond ≤ staleBefore.wholeSecond ∧
          events = (Sweep.afterFailure j maxRetries fallbackTeam now).2 ∧
          s'.tables = s.tables.saveMatchingState
            (Sweep.afterFailure j maxRetries fallbackTeam now).1 now) := by
  unfold Sweep.noteFailure
  simp only [Work.atomic_eq_ok idle]
  cases found : s.tables.job? jobId with
  | none =>
    refine ⟨[], _, ⟨s.begin, ?_, rfl⟩, rfl, .inl ⟨rfl, rfl, fun j never => by cases never⟩⟩
    rw [bind_of_ok (Work.ask_eq_ok.mpr ⟨found.symm, rfl⟩)]
    rfl
  | some j =>
    by_cases passes :
        (!j.isPending || decide (staleBefore.wholeSecond < j.updatedAt.wholeSecond)) = true
    · refine ⟨[], _, ⟨s.begin, ?_, rfl⟩, rfl, .inl ⟨rfl, rfl, ?_⟩⟩
      · rw [bind_of_ok (Work.ask_eq_ok.mpr ⟨found.symm, rfl⟩)]
        exact congrFun (if_pos passes) _
      · rintro _ ⟨⟩ pending
        simpa [pending] using passes
    · obtain ⟨pending, since⟩ : j.isPending = true ∧
          j.updatedAt.wholeSecond ≤ staleBefore.wholeSecond := by simpa using passes
      refine ⟨_, _, ⟨after (Work.write (Tables.saveMatchingState
        (Sweep.afterFailure j maxRetries fallbackTeam now).1 now)) s.begin, ?_, rfl⟩, rfl,
        .inr ⟨j, rfl, pending, since, rfl, rfl⟩⟩
      rw [bind_of_ok (Work.ask_eq_ok.mpr ⟨found.symm, rfl⟩)]
      exact congrFun (if_neg passes) _

/-- For a failed attempt a team is looked for or not, which changes no table; then the attempt is
counted with the team that was found, and told of. -/
theorem recordFailure_looks (quiet : e.priceSource.IsQuiet) (j : Job) (maxRetries : Nat)
    (now staleBefore : Instant) : ∃ team e₁, e.Rests e₁ ∧
      (∀ id, team = some id → ∃ sent, sent.teamId = id ∧
        matchTeamAt (.ofJob j) j.requiredMembers now e = .ok (some sent) e₁) ∧
      after (Sweep.recordFailure j maxRetries now staleBefore) e = after (do
        let events ← onStore (Sweep.noteFailure j.id maxRetries team now staleBefore)
        dispatch now events) e₁ := by
  unfold Sweep.recordFailure
  split
  · have rests : e.Rests (after (matchTeamAt (.ofJob j) j.requiredMembers now) e) :=
      rests_matchTeamAt quiet _ _
    cases looked : matchTeamAt (.ofJob j) j.requiredMembers now e with
    | ok found e₁ =>
      rw [after_of_ok looked] at rests
      refine ⟨_, e₁, rests, fun id named => ?_, after_bind_of_ok (attempt_of_ok looked)⟩
      obtain ⟨sent, rfl, own⟩ := Option.map_eq_some_iff.mp named
      exact ⟨sent, own, rfl⟩
    | error fault e₁ =>
      rw [after_of_error looked] at rests
      exact ⟨none, e₁, rests, nofun, after_bind_of_ok (attempt_of_error looked)⟩
  · exact ⟨none, e, .refl e, nofun, rfl⟩

/-- What is counted of a failed attempt is told of, and nothing else has changed. The team is one
that was found. -/
theorem recordFailure_notes (idle : e.store.saved = none) (quiet : e.priceSource.IsQuiet) (j : Job)
    (maxRetries : Nat) (now staleBefore : Instant) : ∃ team e₁ events s', e.Rests e₁ ∧
      (∀ id, team = some id → ∃ sent, sent.teamId = id ∧
        matchTeamAt (.ofJob j) j.requiredMembers now e = .ok (some sent) e₁) ∧
      after (Sweep.recordFailure j maxRetries now staleBefore) e
        = after (dispatch now events) { e₁ with store := s' } ∧
      s'.saved = none ∧ (events = [] ∧ s'.tables = e.store.tables ∧
          (∀ k, e.store.tables.job? j.id = some k → k.isPending = true →
            staleBefore.wholeSecond < k.updatedAt.wholeSecond) ∨
        ∃ k, e.store.tables.job? j.id = some k ∧ k.isPending = true ∧
          k.updatedAt.wholeSecond ≤ staleBefore.wholeSecond ∧
          events = (Sweep.afterFailure k maxRetries team now).2 ∧
          s'.tables = e.store.tables.saveMatchingState
            (Sweep.afterFailure k maxRetries team now).1 now) := by
  obtain ⟨team, e₁, rests, found, left⟩ := recordFailure_looks quiet j maxRetries now staleBefore
  obtain ⟨events, s', done, idle', counted⟩ :=
    noteFailure_cases idle j.id maxRetries team now staleBefore
  rw [← rests.store] at done
  refine ⟨team, e₁, events, s', rests, found, ?_, idle', counted⟩
  rw [left, after_bind_of_ok (onStore_of_ok done)]

theorem leads_recordFailure (ready : e.Ready) (j : Job) (maxRetries : Nat)
    (staleBefore : Instant) :
    e.Leads now (after (Sweep.recordFailure j maxRetries now staleBefore) e) := by
  obtain ⟨team, e₁, events, s', rests, -, left, idle, counted⟩ :=
    recordFailure_notes ready.idle ready.quiet j maxRetries now staleBefore
  have calms : Calms now e.store.tables s'.tables := by
    rcases counted with ⟨-, same, -⟩ | ⟨stored, found, pending, -, -, same⟩
    · exact same ▸ .refl
    · have own : stored.id = j.id := (mem_of_find?_key found).2
      exact same ▸ .single (.note (own ▸ found) pending)
  have noted : e.Leads now { e₁ with store := s' } :=
    ⟨calms, idle, rests.clock, rests.config, rests.priceSource⟩
  rw [left]
  exact noted.trans (leads_dispatch (noted.ready ready) events)

/-! ## Calls that are not calm -/

theorem create_failsClean (config : LockConfig) (actor : Actor) (jobId : String)
    (request : LockRequest) (now : Instant) :
    (Locks.create config actor jobId request now).FailsClean := by
  unfold Locks.create
  exact (Work.looks_ofExcept _).bind fun _ => Work.failsClean_atomic _

/-- Making locks takes calm steps, and one that books units when the locks are on a team. -/
theorem createLocks_cases (ready : e.Ready) (actor : Actor) (jobId : String)
    (request : LockRequest) :
    e.Leads e.now (after (createLocks actor jobId request) e) ∨
      (∃ teamId units, request.target = .team teamId units) ∧
        (after (createLocks actor jobId request) e).Ready ∧
        ∃ t u, Calms e.now e.store.tables t ∧ (∀ decided, Step e.now (t, decided) (u, decided)) ∧
          Calms e.now u (after (createLocks actor jobId request) e).store.tables ∧
          (after (createLocks actor jobId request) e).store.tables.slots = u.slots := by
  unfold createLocks
  rw [after_bind_of_ok (get_apply e)]
  cases made : Locks.create e.config.locks actor jobId request e.now e.store with
  | error fault s' =>
    left
    rw [after_bind_of_error (onStore_of_error made)]
    obtain ⟨tables, idle⟩ := create_failsClean _ _ _ _ _ _ _ _ ready.idle made
    exact ⟨by rw [tables], idle, rfl, rfl, rfl⟩
  | ok locks s' =>
    rw [after_bind_of_ok (onStore_of_ok made)]
    -- What comes after the transaction is told of it.
    have tell : ∀ e₁ : Engine, e₁.Ready → e₁.Leads e.now (after (do
        dispatch e.now [.locksCreated jobId (locks.map (·.id)) (Lock.units locks)]
        pure locks) e₁) := fun e₁ ready₁ =>
      leads_bind ready₁ (leads_dispatch ready₁ _) fun _ _ _ _ ready₂ => leads_pure ready₂ _
    unfold Locks.create at made
    simp only [bind_eq_ok, Work.ofExcept_eq_ok] at made
    obtain ⟨_, s, ⟨-, same⟩, h⟩ := made
    subst same
    obtain ⟨s₁, done, rfl⟩ := (Work.atomic_eq_ok ready.idle).mp h
    obtain ⟨-, calms | ⟨teamId, units, target, t, calms, booked⟩⟩ :=
      Locks.createJoined_ok_cases done
    · have lead : e.Leads e.now { e with store := s₁.commit } := ⟨calms, rfl, rfl, rfl, rfl⟩
      exact .inl (lead.trans (tell _ (lead.ready ready)))
    · have ready₁ : Ready { e with store := s₁.commit } :=
        ⟨rfl, (booked []).keyed (calms.keyed ready.keyed), ready.quiet⟩
      have lead := tell _ ready₁
      refine .inr ⟨⟨teamId, units, target⟩, lead.ready ready₁, t, _, calms, booked, lead.calms, ?_⟩
      rw [after_bind_pure]
      obtain ⟨log, frame⟩ := dispatch_frame (e := { e with store := s₁.commit }) e.now
        [.locksCreated jobId (locks.map (·.id)) (Lock.units locks)] rfl
      rw [frame]
      rfl

/-- A promotion that staffs the job is committed, and then told of. -/
theorem promote_eq_some {jobId : String} {p : Promotion} :
    promote jobId now e = .ok (some p) e' ↔ ∃ s',
      Promotion.promote jobId now e.store = .ok (some p) s' ∧
        e' = after (dispatch now [
          .locksPromoted p.jobId p.promotedLockIds p.providerIds p.teamId,
          .jobMatched p.jobId p.providerIds p.teamId]) { e with store := s' } := by
  unfold promote
  cases done : Promotion.promote jobId now e.store with
  | error fault s' =>
    rw [bind_of_error (onStore_of_error done)]
    simp
  | ok answer s' =>
    rw [bind_of_ok (onStore_of_ok done)]
    cases answer with
    | none => simp [pure_eq_ok]
    | some q =>
      dsimp only
      rw [bind_of_ok (dispatch_apply now _ _), pure_eq_ok]
      constructor
      · rintro ⟨same, rfl⟩
        obtain rfl := Option.some.inj same
        exact ⟨s', rfl, rfl⟩
      · rintro ⟨_, same, rfl⟩
        cases same
        exact ⟨rfl, rfl⟩

/-- The locks by which a promotion was decided. -/
def promotedIds (jobId : String) (now : Instant) (e : Engine) : List String :=
  match promote jobId now e with
  | .ok (some p) _ => p.promotedLockIds
  | _ => []

/-- A promotion takes steps by which the locks that it answers decide. -/
theorem promote_cases (ready : e.Ready) (jobId : String) :
    e.Ebbs now (promotedIds jobId now e) (after (promote jobId now) e) := by
  unfold promotedIds
  cases done : Promotion.promote jobId now e.store with
  | error fault s' =>
    have failed : promote jobId now e = .error fault { e with store := s' } := by
      unfold promote
      rw [bind_of_error (onStore_of_error done)]
    rw [after_of_error failed, failed]
    obtain ⟨tables, idle⟩ := Work.failsClean_atomic _ _ _ _ ready.idle done
    show e.Ebbs now [] _
    refine ⟨fun decided => ?_, idle, rfl⟩
    rw [tables, List.append_nil]
  | ok answer s' =>
    obtain ⟨idle, ⟨rfl, tables⟩ | ⟨p, rfl, ebbs⟩⟩ :=
      Promotion.promote_ebbs ready.idle ready.keyed done
    · have vain : promote jobId now e = .ok none { e with store := s' } := by
        unfold promote
        rw [bind_of_ok (onStore_of_ok done)]
        rfl
      rw [after_of_ok vain, vain]
      show e.Ebbs now [] _
      refine ⟨fun decided => ?_, idle, rfl⟩
      rw [tables, List.append_nil]
    · have ebbed : e.Ebbs now p.promotedLockIds { e with store := s' } := ⟨ebbs, idle, rfl⟩
      have staffed : promote jobId now e = .ok (some p) (after (dispatch now [
          .locksPromoted p.jobId p.promotedLockIds p.providerIds p.teamId,
          .jobMatched p.jobId p.providerIds p.teamId]) { e with store := s' }) := by
        unfold promote
        rw [bind_of_ok (onStore_of_ok done)]
        exact bind_of_ok (dispatch_apply now _ _)
      rw [after_of_ok staffed, staffed]
      exact ebbed.leads (leads_dispatch (ebbed.ready ready) _)

end Engine

end Staffing
