import Staffing.Proofs.Operations

/-!
# Runs

A run begins with empty tables and goes from operation to operation: calls on the engine, writes of
providers, sweeps, and another engine that takes over the store. It remembers its operations, each
with the engine that it was made on; a sweep counts as the operations that it is made of.

An operation may commit a choice that was made on other tables than those it is committed to.

* `Operation`, `Operation.after` — the operations and what they leave
* `Operation.steps` — they take steps
* `Sweep.Kind`, `Sweep.Kind.after_eq` — the sweeps, and the operations that they are made of
* `Run`, `Run.promoted`, `Run.IsTimely` — runs, the locks that decided, a clock that never goes back
* `Run.induct`, `Run.holds` — what every operation, what every step keeps holds after every run
-/

namespace Staffing

/-! ## Operations -/

/-- An operation on the engine. -/
inductive Operation where
  | createJob (n : NewJob)
  | cancelJob (actor : Actor) (jobId : String)
  | createTeam (actor : Actor) (n : NewTeam)
  | replaceTeamMembers (actor : Actor) (teamId : String) (members : List Member)
  | ensureSlot (teamId : String) (start stop : Instant)
  | generatePlans (teamId : String) (first last : Day)
  | createLocks (actor : Actor) (jobId : String) (request : LockRequest)
  | confirmLocks (actor : Actor) (jobId : String) (ids : Option (List String))
  | releaseLocks (actor : Actor) (jobId : String) (ids : Option (List String))
  | expireLock (lockId : String) (now : Instant)
  | promote (jobId : String) (now : Instant)
  | autoAssign (jobId : String) (now : Instant)
  /-- The choice was made on the engine `view`, older or otherwise different. -/
  | commitSeen (view : Engine) (jobId : String) (now : Instant)
  /-- An attempt of the retry sweep has failed; `j` is the job as it was listed. -/
  | recordFailure (j : Job) (maxRetries : Nat) (now staleBefore : Instant)
  | insertProvider (p : Provider)
  | replaceSlots (providerId : String) (slots : List WeeklySlot)
  | addTimeOff (providerId : String) (w : Window)
  | setRating (providerId : String) (average : Float) (count : Nat)
  | setTeamActive (teamId : String) (active : Bool)
  /-- Another engine, with a clock, a configuration and outside parties of its own, takes over the
  store. -/
  | serve (next : Engine)

namespace Operation

/-- The engine that an operation leaves, whether it succeeds or fails. -/
def after (e : Engine) : Operation → Engine
  | createJob n => Staffing.after (Engine.createJob n) e
  | cancelJob actor jobId => Staffing.after (Engine.cancelJob actor jobId) e
  | createTeam actor n => Staffing.after (Engine.createTeam actor n) e
  | replaceTeamMembers actor teamId members =>
    Staffing.after (Engine.replaceTeamMembers actor teamId members) e
  | ensureSlot teamId start stop => Staffing.after (Engine.ensureSlot teamId start stop) e
  | generatePlans teamId first last => Staffing.after (Engine.generatePlans teamId first last) e
  | createLocks actor jobId request => Staffing.after (Engine.createLocks actor jobId request) e
  | confirmLocks actor jobId ids => Staffing.after (Engine.confirmLocks actor jobId ids) e
  | releaseLocks actor jobId ids => Staffing.after (Engine.releaseLocks actor jobId ids) e
  | expireLock lockId now => Staffing.after (Engine.expireLock lockId now) e
  | promote jobId now => Staffing.after (Engine.promote jobId now) e
  | autoAssign jobId now => Staffing.after (Engine.autoAssign jobId now) e
  | commitSeen view jobId now => Staffing.after (Engine.commitSeen view jobId now) e
  | recordFailure j maxRetries now staleBefore =>
    Staffing.after (Sweep.recordFailure j maxRetries now staleBefore) e
  | insertProvider p => Staffing.after (Engine.onStore (Store.insertProvider p)) e
  | replaceSlots providerId slots =>
    Staffing.after (Engine.onStore (Store.replaceSlots providerId slots)) e
  | addTimeOff providerId w =>
    Staffing.after (Engine.onStore (Work.run (Tables.addTimeOff providerId w))) e
  | setRating providerId average count =>
    Staffing.after (Engine.onStore (Work.run (Tables.setRating providerId average count))) e
  | setTeamActive teamId active =>
    Staffing.after (Engine.onStore (Work.write (Tables.setTeamActive teamId active))) e
  | serve next => { next with store := e.store }

/-- The instant of an operation that looks at the time. -/
def instant? (e : Engine) : Operation → Option Instant
  | expireLock _ now | promote _ now | autoAssign _ now | commitSeen _ _ now
  | recordFailure _ _ now _ => some now
  | createJob _ | cancelJob .. | createLocks .. | confirmLocks .. | releaseLocks .. => some e.now
  | _ => none

/-- The instant that an operation looks at, if any. -/
theorem eq_of_instant? {op : Operation} {e : Engine} (i : Instant) (h : op.instant? e = some i) :
    i = (op.instant? e).getD e.now := by
  rw [h]
  rfl

/-- The ids of the locks by which an operation decides a promotion. -/
def promoted (e : Engine) : Operation → List String
  | promote jobId now => Engine.promotedIds jobId now e
  | _ => []

/-- What is asked of the parties to an operation: an engine on which a choice was made has unique
keys of providers and teams, also after it has asked for a price, and an engine that takes over gets
prices without changing the store. -/
def IsAdmissible : Operation → Prop
  | commitSeen view _ _ => view.store.tables.RosterKeyed ∧ view.KeepsRoster
  | serve next => next.priceSource.IsQuiet
  | _ => True

variable {e : Engine} {now : Instant}

/-- Does the operation neither make locks on a team nor promote? -/
def IsCalm : Operation → Prop
  | createLocks _ _ ⟨.team _ _, _⟩ => False
  | promote _ _ => False
  | _ => True

/-- A calm operation takes calm steps, at the instant at which it looks at the time. -/
theorem calms {op : Operation} (calm : op.IsCalm) (ready : e.Ready) (admissible : op.IsAdmissible)
    (timed : ∀ i, op.instant? e = some i → i = now) :
    Calms now e.store.tables (op.after e).store.tables ∧ (op.after e).Ready := by
  have ofLeads : e.Leads now (op.after e) →
      Calms now e.store.tables (op.after e).store.tables ∧ (op.after e).Ready :=
    fun lead => ⟨lead.calms, lead.ready ready⟩
  cases op with
  | createJob n =>
    obtain rfl := timed _ rfl
    exact ofLeads (Engine.leads_createJob ready n)
  | cancelJob actor jobId =>
    obtain rfl := timed _ rfl
    exact ofLeads (Engine.leads_cancelJob ready actor jobId)
  | createTeam actor n => exact ofLeads (Engine.leads_createTeam ready actor n)
  | replaceTeamMembers actor teamId members =>
    exact ofLeads (Engine.leads_replaceTeamMembers ready actor teamId members)
  | ensureSlot teamId start stop => exact ofLeads (Engine.leads_ensureSlot ready teamId start stop)
  | generatePlans teamId first last =>
    exact ofLeads (Engine.leads_generatePlans ready teamId first last)
  | createLocks actor jobId request =>
    obtain rfl := timed _ rfl
    obtain lead | ⟨⟨teamId, units, target⟩, -⟩ := Engine.createLocks_cases ready actor jobId request
    · exact ofLeads lead
    · obtain ⟨_, ttl⟩ := request
      obtain rfl : _ = LockRequestTarget.team teamId units := target
      exact calm.elim
  | confirmLocks actor jobId ids =>
    obtain rfl := timed _ rfl
    exact ofLeads (Engine.leads_confirmLocks ready actor jobId ids)
  | releaseLocks actor jobId ids =>
    obtain rfl := timed _ rfl
    exact ofLeads (Engine.leads_releaseLocks ready actor jobId ids)
  | expireLock lockId _ =>
    obtain rfl := timed _ rfl
    exact ofLeads (Engine.leads_expireLock ready lockId)
  | promote jobId _ => exact calm.elim
  | autoAssign jobId _ =>
    obtain rfl := timed _ rfl
    exact ofLeads (Engine.leads_autoAssign ready jobId)
  | commitSeen view jobId _ =>
    obtain rfl := timed _ rfl
    exact ofLeads (Engine.leads_commitSeen ready admissible.1 admissible.2 jobId)
  | recordFailure j maxRetries _ staleBefore =>
    obtain rfl := timed _ rfl
    exact ofLeads (Engine.leads_recordFailure ready j maxRetries staleBefore)
  | insertProvider p =>
    exact ofLeads (Engine.leads_roster ready (Store.insertProvider_does p)
      (Work.failsClean_atomic _))
  | replaceSlots providerId slots =>
    exact ofLeads (Engine.leads_roster ready (Store.replaceSlots_does providerId slots)
      (Work.failsClean_atomic _))
  | addTimeOff providerId w =>
    exact ofLeads (Engine.leads_roster ready (Work.does_run fun _ _ => Tables.addTimeOff_grows)
      (Work.failsClean_run _))
  | setRating providerId average count =>
    exact ofLeads (Engine.leads_roster ready (Work.does_run fun _ _ => Tables.setRating_grows)
      (Work.failsClean_run _))
  | setTeamActive teamId active =>
    exact ofLeads (Engine.leads_roster ready
      (Work.does_write (Tables.setTeamActive_grows teamId active)) (Work.failsClean_write _))
  | serve next => exact ⟨.refl, ready.idle, ready.keyed, admissible⟩

/-- Does the operation make locks on a team? -/
def BooksTeam : Operation → Prop
  | createLocks _ _ ⟨.team _ _, _⟩ => True
  | _ => False

/-- An operation that makes no locks on a team takes steps by which bookings do not rise. -/
theorem ebbs {op : Operation} (still : ¬ op.BooksTeam) (ready : e.Ready)
    (admissible : op.IsAdmissible) (timed : ∀ i, op.instant? e = some i → i = now) :
    (∀ decided, Ebbs now (e.store.tables, decided)
      ((op.after e).store.tables, decided ++ op.promoted e)) ∧ (op.after e).Ready := by
  by_cases calm : op.IsCalm
  · obtain ⟨calms, ready'⟩ := calms calm ready admissible timed
    have none : op.promoted e = [] := by
      cases op with
      | promote => exact calm.elim
      | _ => rfl
    rw [none]
    exact ⟨fun decided => (List.append_nil decided).symm ▸ calms.ebbs decided, ready'⟩
  · cases op with
    | promote jobId i =>
      obtain rfl : i = now := timed _ rfl
      have ebbs : e.Ebbs i (Engine.promotedIds jobId i e) _ := Engine.promote_cases ready jobId
      exact ⟨ebbs.ebbs, ebbs.ready ready⟩
    | createLocks actor jobId request =>
      obtain ⟨target, ttl⟩ := request
      cases target with
      | team => exact absurd trivial still
      | providers => exact absurd trivial calm
    | _ => exact absurd trivial calm

/-- **Every operation takes steps and leaves the engine ready,** whether it succeeds or fails. -/
theorem steps (op : Operation) (ready : e.Ready) (admissible : op.IsAdmissible)
    (timed : ∀ i, op.instant? e = some i → i = now) :
    (∀ decided, Steps now (e.store.tables, decided)
      ((op.after e).store.tables, decided ++ op.promoted e)) ∧ (op.after e).Ready := by
  by_cases books : op.BooksTeam
  · cases op with
    | createLocks actor jobId request =>
      obtain rfl := timed _ rfl
      show (∀ decided, Steps _ _ (_, decided ++ [])) ∧ _
      simp only [List.append_nil]
      obtain lead | ⟨-, ready', t, u, before, booked, later, -⟩ :=
        Engine.createLocks_cases ready actor jobId request
      · exact ⟨lead.calms.steps, lead.ready ready⟩
      · refine ⟨fun decided => ?_, ready'⟩
        exact ((before.steps decided).tail (booked decided)).trans (later.steps decided)
    | _ => exact books.elim
  · obtain ⟨ebbs, ready'⟩ := ebbs books ready admissible timed
    exact ⟨fun decided => Ebbs.steps (ebbs decided), ready'⟩

end Operation

/-! ## Sweeps -/

namespace Operation

/-- The engine that several operations leave, one after the other. -/
def afterAll (operations : List Operation) (e : Engine) : Engine :=
  operations.foldl (fun e op => op.after e) e

/-- Several operations, each with the engine that it is made on. -/
def trace : List Operation → Engine → List (Engine × Operation)
  | [], _ => []
  | op :: rest, e => (e, op) :: trace rest (op.after e)

theorem afterAll_append (first second : List Operation) (e : Engine) :
    afterAll (first ++ second) e = afterAll second (afterAll first e) := by
  unfold afterAll
  rw [List.foldl_append]

theorem trace_append (first second : List Operation) (e : Engine) :
    trace (first ++ second) e = trace first e ++ trace second (afterAll first e) := by
  induction first generalizing e with
  | nil => rfl
  | cons op rest ih =>
    exact congrArg ((e, op) :: ·) (ih (op.after e))

/-- The operations for several items, when `parts` are those for one. -/
def forEach {α : Type} (parts : α → Engine → List Operation) : List α → Engine → List Operation
  | [], _ => []
  | a :: rest, e => parts a e ++ forEach parts rest (afterAll (parts a e) e)

end Operation

namespace Sweep

open Operation (afterAll)

/-- Treating items one by one is the operations for them one by one; that some fail makes no
difference. -/
theorem after_forEach {α : Type} {treat : α → EngineWork Bool}
    {parts : α → Engine → List Operation}
    (each : ∀ a e, after (treat a) e = afterAll (parts a e) e) (items : List α) (r : SweepReport)
    (e : Engine) :
    after (forEach treat items r) e = afterAll (Operation.forEach parts items e) e := by
  induction items generalizing r e with
  | nil => rfl
  | cons a rest ih =>
    obtain ⟨outcome, attempted⟩ :
        ∃ outcome, Engine.attempt (treat a) e = .ok outcome (after (treat a) e) := by
      unfold Engine.attempt after
      cases treat a e with
      | ok b e' => exact ⟨_, rfl⟩
      | error fault e' => exact ⟨_, rfl⟩
    unfold forEach Operation.forEach
    rw [after_bind_of_ok attempted, ih, each, Operation.afterAll_append]

/-- The operations of one attempt of the retry sweep. -/
def retryParts (maxRetries : Nat) (now staleBefore : Instant) (j : Job) (e : Engine) :
    List Operation :=
  match Engine.autoAssign j.id now e with
  | .ok (some _) _ => [.autoAssign j.id now]
  | _ => [.autoAssign j.id now, .recordFailure j maxRetries now staleBefore]

/-- The attempt is counted unless it has matched the job. -/
theorem retryParts_cases (maxRetries : Nat) (now staleBefore : Instant) (j : Job)
    (e : Engine) :
    retryParts maxRetries now staleBefore j e
        = [.autoAssign j.id now, .recordFailure j maxRetries now staleBefore] ∨
      retryParts maxRetries now staleBefore j e = [.autoAssign j.id now] ∧ ∃ selection,
        Engine.autoAssign j.id now e
          = .ok (some selection) ((Operation.autoAssign j.id now).after e) := by
  unfold retryParts
  cases tried : Engine.autoAssign j.id now e with
  | error fault e₁ => exact .inl rfl
  | ok answer e₁ =>
    cases answer with
    | none => exact .inl rfl
    | some selection =>
      have left : (Operation.autoAssign j.id now).after e = e₁ := after_of_ok tried
      exact .inr ⟨rfl, selection, by rw [left]⟩

theorem after_retryOne (maxRetries : Nat) (now staleBefore : Instant) (j : Job) (e : Engine) :
    after (retryOne maxRetries now staleBefore j) e
      = afterAll (retryParts maxRetries now staleBefore j e) e := by
  have noted : ∀ e₁, after (do recordFailure j maxRetries now staleBefore; return false) e₁
      = (Operation.recordFailure j maxRetries now staleBefore).after e₁ :=
    fun e₁ => after_bind_pure _ _ e₁
  -- An attempt that comes to nothing is counted whether it fails or answers that it does.
  have both : ∀ e₁, (Operation.autoAssign j.id now).after e = e₁ →
      after (do recordFailure j maxRetries now staleBefore; return false) e₁
        = afterAll [.autoAssign j.id now, .recordFailure j maxRetries now staleBefore] e := by
    intro e₁ left
    rw [noted, ← left]
    rfl
  unfold retryOne retryParts
  cases tried : Engine.autoAssign j.id now e with
  | ok answer e₁ =>
    rw [after_bind_of_ok (Engine.attempt_of_ok tried)]
    cases answer with
    | some selection => exact (after_of_ok tried).symm
    | none => exact both e₁ (after_of_ok tried)
  | error fault e₁ =>
    rw [after_bind_of_ok (Engine.attempt_of_error tried)]
    exact both e₁ (after_of_error tried)

/-- A sweep that runs on the engine. -/
inductive Kind where
  | retry
  | promotion
  | expiry

/-- The sweep itself. -/
def Kind.sweep (config : SweepConfig) : Kind → Sweep
  | retry => Sweep.retry config
  | promotion => Sweep.promotion
  | expiry => Sweep.expiry config.lockBatch

/-- The operations of one run of a sweep. -/
def Kind.parts (config : SweepConfig) (now : Instant) (e : Engine) : Kind → List Operation
  | retry =>
    let staleBefore := now - config.staleAfter * Instant.minute
    Operation.forEach (retryParts config.maxRetries now staleBefore)
      (e.store.tables.jobsDue now staleBefore config.maxRetries) e
  | promotion =>
    Operation.forEach (fun j _ => [.promote j.id now]) (e.store.tables.promotableJobs now) e
  | expiry =>
    Operation.forEach (fun l _ => [.expireLock l.id now])
      (e.store.tables.expiredLocks now config.lockBatch) e

/-- **A sweep is nothing but its operations.** -/
theorem Kind.after_eq (kind : Kind) (config : SweepConfig) (now : Instant) (e : Engine) :
    after ((kind.sweep config).run now) e = afterAll (kind.parts config now e) e := by
  cases kind with
  | retry => exact after_forEach (after_retryOne config.maxRetries now _) _ _ e
  | promotion =>
    exact after_forEach (fun j e => after_bind_pure _ _ e) _ _ e
  | expiry => exact after_forEach (fun l e => after_bind_pure _ _ e) _ _ e

theorem after_retry (config : SweepConfig) (now : Instant) (e : Engine) :
    let staleBefore := now - config.staleAfter * Instant.minute
    after ((retry config).run now) e
      = afterAll (Operation.forEach (retryParts config.maxRetries now staleBefore)
        (e.store.tables.jobsDue now staleBefore config.maxRetries) e) e :=
  Kind.after_eq .retry config now e

theorem after_promotion (now : Instant) (e : Engine) :
    after (promotion.run now) e
      = afterAll (Operation.forEach (fun j _ => [.promote j.id now])
        (e.store.tables.promotableJobs now) e) e :=
  Kind.after_eq .promotion {} now e

theorem after_expiry (batch : Nat) (now : Instant) (e : Engine) :
    after ((expiry batch).run now) e
      = afterAll (Operation.forEach (fun l _ => [.expireLock l.id now])
        (e.store.tables.expiredLocks now batch) e) e :=
  Kind.after_eq .expiry { lockBatch := batch } now e

theorem mem_forEach {α : Type} {parts : α → Engine → List Operation} {items : List α} {e : Engine}
    {op : Operation} (h : op ∈ Operation.forEach parts items e) :
    ∃ a ∈ items, ∃ e₁, op ∈ parts a e₁ := by
  induction items generalizing e with
  | nil => exact absurd h List.not_mem_nil
  | cons a rest ih =>
    rcases List.mem_append.mp h with first | later
    · exact ⟨a, List.mem_cons_self, e, first⟩
    · obtain ⟨b, hb, e₁, here⟩ := ih later
      exact ⟨b, List.mem_cons_of_mem _ hb, e₁, here⟩

/-- What the operations of a sweep can be. -/
inductive Kind.Part (now : Instant) : Kind → Operation → Prop
  | autoAssign (jobId : String) : Part now .retry (.autoAssign jobId now)
  | recordFailure (j : Job) (maxRetries : Nat) (staleBefore : Instant) :
      Part now .retry (.recordFailure j maxRetries now staleBefore)
  | promote (jobId : String) : Part now .promotion (.promote jobId now)
  | expireLock (lockId : String) : Part now .expiry (.expireLock lockId now)

theorem Kind.part (kind : Kind) (config : SweepConfig) (now : Instant) (e : Engine) :
    ∀ op ∈ kind.parts config now e, kind.Part now op := by
  intro op h
  cases kind with
  | retry =>
    obtain ⟨j, -, e₁, h⟩ := mem_forEach h
    rcases retryParts_cases config.maxRetries now _ j e₁ with parts | ⟨parts, -⟩
    · rw [parts] at h
      rcases List.mem_cons.mp h with rfl | h
      · exact .autoAssign _
      · rw [List.mem_singleton.mp h]
        exact .recordFailure _ _ _
    · rw [parts] at h
      rw [List.mem_singleton.mp h]
      exact .autoAssign _
  | promotion =>
    obtain ⟨j, -, -, h⟩ := mem_forEach h
    rw [List.mem_singleton.mp h]
    exact .promote _
  | expiry =>
    obtain ⟨l, -, -, h⟩ := mem_forEach h
    rw [List.mem_singleton.mp h]
    exact .expireLock _

/-- The operations of a sweep ask nothing of other parties, and make no locks on teams. -/
theorem Kind.parts_cases (kind : Kind) (config : SweepConfig) (now : Instant) (e : Engine) :
    ∀ op ∈ kind.parts config now e, op.IsAdmissible ∧ ¬ op.BooksTeam := by
  intro op h
  cases kind.part config now e op h <;> exact ⟨trivial, id⟩

end Sweep

/-! ## Runs -/

/-- A run from empty tables: the operations so far, each with the engine that it was made on, and
the engine that is left. -/
inductive Run : List (Engine × Operation) → Engine → Prop
  | start {e : Engine} :
      e.store.tables = {} → e.store.saved = none → e.priceSource.IsQuiet → Run [] e
  | operation {past : List (Engine × Operation)} {e : Engine} (op : Operation) :
      Run past e → op.IsAdmissible → Run (past ++ [(e, op)]) (op.after e)
  | sweep {past : List (Engine × Operation)} {e : Engine} (kind : Sweep.Kind)
      (config : SweepConfig) (now : Instant) : Run past e →
      Run (past ++ Operation.trace (kind.parts config now e) e)
        (after ((kind.sweep config).run now) e)

namespace Run

variable {past : List (Engine × Operation)} {e : Engine}

/-- The ids of the locks by which promotions were decided. -/
def promoted (past : List (Engine × Operation)) : List String :=
  past.flatMap fun (e, op) => op.promoted e

theorem promoted_append (past : List (Engine × Operation)) (e : Engine) (op : Operation) :
    promoted (past ++ [(e, op)]) = promoted past ++ op.promoted e := by
  unfold promoted
  rw [List.flatMap_append, List.flatMap_singleton]

/-- The instants of the operations that looked at the time. -/
def instants (past : List (Engine × Operation)) : List Instant :=
  past.filterMap fun (e, op) => op.instant? e

/-- No operation was made at an earlier instant than one before it. -/
def IsTimely (past : List (Engine × Operation)) : Prop := (instants past).Pairwise (· ≤ ·)

instance (past : List (Engine × Operation)) : Decidable (IsTimely past) :=
  inferInstanceAs (Decidable (List.Pairwise _ _))

/-- What every operation keeps, several keep. -/
theorem several {P : List (Engine × Operation) → Engine → Prop}
    (operation : ∀ past e op, P past e → op.IsAdmissible → P (past ++ [(e, op)]) (op.after e))
    {operations : List Operation} (h : P past e) (admissible : ∀ op ∈ operations, op.IsAdmissible) :
    P (past ++ Operation.trace operations e) (Operation.afterAll operations e) := by
  induction operations generalizing past e with
  | nil =>
    show P (past ++ []) e
    rw [List.append_nil]
    exact h
  | cons op rest ih =>
    have next := ih (operation past e op h (admissible op List.mem_cons_self))
      fun o ho => admissible o (List.mem_cons_of_mem _ ho)
    rw [List.append_assoc] at next
    exact next

/-- **What the start has and every operation keeps, every run has;** sweeps are no matter of their
own. -/
theorem induct {P : List (Engine × Operation) → Engine → Prop} (run : Run past e)
    (start : ∀ e : Engine, e.store.tables = {} → e.store.saved = none → e.priceSource.IsQuiet →
      P [] e)
    (operation : ∀ past e op, P past e → op.IsAdmissible → P (past ++ [(e, op)]) (op.after e)) :
    P past e := by
  induction run with
  | start empty idle quiet => exact start _ empty idle quiet
  | operation op _ admissible ih => exact operation _ _ op ih admissible
  | @sweep past e kind config now _ ih =>
    rw [kind.after_eq config now e]
    exact several operation ih fun op hop => (kind.parts_cases config now e op hop).1

/-- What an operation of a run has left the next one has found, or it is what the run has left. -/
theorem after_cases {e₀ : Engine} {op : Operation} (run : Run past e) (made : (e₀, op) ∈ past) :
    op.after e₀ = e ∨ ∃ op', (op.after e₀, op') ∈ past := by
  refine run.induct (P := fun past e => ∀ made ∈ past,
    made.2.after made.1 = e ∨ ∃ op', (made.2.after made.1, op') ∈ past) ?_ ?_ (e₀, op) made
  · exact fun _ _ _ _ _ never => absurd never List.not_mem_nil
  · intro past e op ih _ made hmade
    rcases List.mem_append.mp hmade with before | last
    · rcases ih made before with here | ⟨op', later⟩
      · exact .inr ⟨op, here ▸ List.mem_append_right _ (List.mem_singleton_self _)⟩
      · exact .inr ⟨op', List.mem_append_left _ later⟩
    · obtain rfl := List.mem_singleton.mp last
      exact .inl rfl

/-- **What the start has and every step keeps, every run has.** -/
theorem holds {I : Tables × List String → Prop} (run : Run past e) (start : I ({}, []))
    (keeps : ∀ now p q, p.1.Keyed → I p → Step now p q → I q) :
    e.Ready ∧ I (e.store.tables, promoted past) := by
  refine run.induct (P := fun past e => e.Ready ∧ I (e.store.tables, promoted past)) ?_ ?_
  · intro e empty idle quiet
    refine ⟨⟨idle, ?_, quiet⟩, ?_⟩
    · rw [empty]
      exact .empty
    · rw [empty]
      exact start
  · rintro past e op ⟨ready, h⟩ admissible
    obtain ⟨steps, ready'⟩ := op.steps ready admissible Operation.eq_of_instant?
    refine ⟨ready', ?_⟩
    rw [promoted_append]
    exact Steps.holds (keeps _) (steps (promoted past)) ready.keyed h

theorem ready (run : Run past e) : e.Ready :=
  (run.holds (I := fun _ => True) trivial fun _ _ _ _ _ _ => trivial).1

/-- A run of given operations from an engine that has not been used. -/
theorem of_operations {operations : List Operation} (empty : e.store.tables = {})
    (idle : e.store.saved = none) (quiet : e.priceSource.IsQuiet)
    (admissible : ∀ op ∈ operations, op.IsAdmissible) :
    Run (Operation.trace operations e) (Operation.afterAll operations e) := by
  exact several (P := Run) (fun _ _ op run admissible => run.operation op admissible)
    (.start empty idle quiet) admissible

end Run

/-! ## A small example -/

namespace Sample

/-- Someone who works on Mondays from 8 to 18 o'clock in Berlin. -/
def provider (id : String) : Provider where
  id := id
  displayName := id
  kind := .individual
  active := true
  ecoFriendly := false
  hourlyRate := 25
  ratingAverage := 4
  ratingCount := 1
  services := ["standard"]
  serviceZones := []
  areas := []
  slots := [⟨1, 480, 1080, "Europe/Berlin", true⟩]
  timeOff := []

/-- A job of two hours for one, on a Monday from the given hour of universal time on. -/
def job (hour : Nat) : NewJob where
  clientId := "client"
  service := "standard"
  start := Instant.utc 2026 3 2 hour 0
  stop := Instant.utc 2026 3 2 (hour + 2) 0
  requiredMembers := 1

/-- A team of these providers, in Berlin. -/
def team (ids : List String) : NewTeam where
  name := "team"
  timezone := "Europe/Berlin"
  members := ids.map fun id => { providerId := id }

/-- Someone who may do everything. -/
def admin : Actor := ⟨"admin", .admin⟩

/-- An engine that has not been used. -/
def engine : Engine := {}

end Sample

end Staffing
