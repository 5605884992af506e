import Staffing.Store.Ledger

/-!
# What a unit of work did

A unit of work that succeeded is taken apart: from the result of a sequence come the results of its
parts, and each elementary unit of work says what it answered and what it left.

* `bind_eq_ok` — a sequence succeeds when its parts do, one after the other
* `Work.ask_eq_ok`, `Work.run_eq_ok`, … — the elementary units of work
* `Work.atomic_eq_ok`, `Work.atomic_eq_error` — a transaction of its own
* `Work.collect_ok_cases`, `Work.collect_succeeds` — loops, taken apart and put together
* `after`, `answer?`, `fault?` — the state that is left, whichever way a computation ended; its
  answer, or how it failed
* `Work.FailsClean` — a failure leaves the tables as they were
* `Work.Does` — what a unit of work does to the tables whenever it succeeds
-/

namespace Staffing

variable {ε σ α β : Type}

/-- **A sequence succeeds when its parts do.** -/
theorem bind_eq_ok {w : EStateM ε σ α} {f : α → EStateM ε σ β} {s s' : σ} {b : β} :
    (w >>= f) s = .ok b s' ↔ ∃ a s₁, w s = .ok a s₁ ∧ f a s₁ = .ok b s' := by
  show EStateM.bind w f s = _ ↔ _
  unfold EStateM.bind
  cases w s with
  | ok a s₁ => simp [and_assoc]
  | error e s₁ => simp

theorem bind_of_ok {w : EStateM ε σ α} {f : α → EStateM ε σ β} {s s₁ : σ} {a : α}
    (h : w s = .ok a s₁) : (w >>= f) s = f a s₁ := by
  show EStateM.bind w f s = _
  unfold EStateM.bind
  rw [h]

theorem bind_of_error {w : EStateM ε σ α} {f : α → EStateM ε σ β} {s s₁ : σ} {e : ε}
    (h : w s = .error e s₁) : (w >>= f) s = .error e s₁ := by
  show EStateM.bind w f s = _
  unfold EStateM.bind
  rw [h]

theorem bind_eq_error {w : EStateM ε σ α} {f : α → EStateM ε σ β} {s s' : σ} {e : ε} :
    (w >>= f) s = .error e s' ↔
      w s = .error e s' ∨ ∃ a s₁, w s = .ok a s₁ ∧ f a s₁ = .error e s' := by
  show EStateM.bind w f s = _ ↔ _
  unfold EStateM.bind
  cases w s with
  | ok a s₁ => simp [and_assoc]
  | error e₁ s₁ => simp

theorem pure_apply (a : α) (s : σ) : (pure a : EStateM ε σ α) s = .ok a s := rfl

theorem pure_eq_ok {a b : α} {s s' : σ} :
    (pure a : EStateM ε σ α) s = .ok b s' ↔ b = a ∧ s' = s := by
  rw [pure_apply, EStateM.Result.ok.injEq, eq_comm, @eq_comm _ s]

theorem Window.checked_eq_ok {start stop : Instant} {w : Window} :
    Window.checked start stop = .ok w ↔ start < stop ∧ w = ⟨start, stop⟩ := by
  unfold Window.checked Window.make?
  by_cases h : start < stop
  · simp [h, eq_comm]
  · simp [h]

/-! ## The state that is left -/

/-- The state that is left, whichever way a computation ended. -/
def after (w : EStateM ε σ α) (s : σ) : σ :=
  match w s with
  | .ok _ s' => s'
  | .error _ s' => s'

theorem after_of_ok {w : EStateM ε σ α} {s s' : σ} {a : α} (h : w s = .ok a s') :
    after w s = s' := by
  unfold after
  rw [h]

theorem after_of_error {w : EStateM ε σ α} {s s' : σ} {e : ε} (h : w s = .error e s') :
    after w s = s' := by
  unfold after
  rw [h]

theorem after_bind_of_ok {w : EStateM ε σ α} {f : α → EStateM ε σ β} {s s₁ : σ} {a : α}
    (h : w s = .ok a s₁) : after (w >>= f) s = after (f a) s₁ := by
  unfold after
  rw [bind_of_ok h]

theorem after_bind_of_error {w : EStateM ε σ α} {f : α → EStateM ε σ β} {s s₁ : σ} {e : ε}
    (h : w s = .error e s₁) : after (w >>= f) s = s₁ := by
  unfold after
  rw [bind_of_error h]

theorem after_bind_pure (w : EStateM ε σ α) (f : α → β) (s : σ) :
    after (w >>= fun a => pure (f a)) s = after w s := by
  cases h : w s with
  | ok a s₁ =>
    rw [after_bind_of_ok h, after_of_ok h]
    rfl
  | error e s₁ => rw [after_bind_of_error h, after_of_error h]

/-- What a computation answers, if it does not fail. -/
def answer? (w : EStateM ε σ α) (s : σ) : Option α :=
  match w s with
  | .ok a _ => some a
  | .error _ _ => none

theorem answer?_eq_some {w : EStateM ε σ α} {s : σ} {a : α} :
    answer? w s = some a ↔ w s = .ok a (after w s) := by
  unfold answer? after
  cases w s <;> simp

/-- How a computation fails, if it does. -/
def fault? (w : EStateM ε σ α) (s : σ) : Option ε :=
  match w s with
  | .ok _ _ => none
  | .error fault _ => some fault

theorem fault?_eq_some {w : EStateM ε σ α} {s : σ} {fault : ε} :
    fault? w s = some fault ↔ w s = .error fault (after w s) := by
  unfold fault? after
  cases w s <;> simp

namespace Work

variable {s s' : Store}

/-! ## Elementary units of work -/

theorem ask_eq_ok {question : Tables → α} {a : α} :
    ask question s = .ok a s' ↔ a = question s.tables ∧ s' = s := by
  unfold ask
  rw [EStateM.Result.ok.injEq, eq_comm, @eq_comm _ s]

theorem write_eq_ok {f : Tables → Tables} {u : Unit} :
    write f s = .ok u s' ↔ s' = { s with tables := f s.tables } := by
  unfold write
  rw [EStateM.Result.ok.injEq, @eq_comm _ s']
  simp

theorem run_eq_ok {f : Statement} {u : Unit} :
    run f s = .ok u s' ↔ ∃ t, f s.tables = .ok t ∧ s' = { s with tables := t } := by
  unfold run
  cases f s.tables with
  | ok t => simp [eq_comm]
  | error fault => simp

theorem refuse_eq_ok {fault : Fault} {a : α} : refuse fault s = .ok a s' ↔ False := by
  simp [refuse]

theorem refuse_bind {fault : Fault} {f : α → Work β} :
    (refuse fault >>= f) s = .error fault s := rfl

/-- A check in front of a unit of work. -/
theorem guard_eq_ok {c : Prop} [Decidable c] {fault : Fault} {f : α → Work β} {w : Work β} {b : β} :
    (if c then refuse fault >>= f else w) s = .ok b s' ↔ ¬ c ∧ w s = .ok b s' := by
  by_cases h : c
  · simp [h, refuse_bind]
  · simp [h]

theorem ofExcept_eq_ok {x : Except Fault α} {a : α} :
    ofExcept x s = .ok a s' ↔ x = .ok a ∧ s' = s := by
  cases x with
  | ok b => simp [ofExcept, eq_comm]
  | error fault => simp [ofExcept, refuse]

theorem found_eq_ok {entity : Entity} {id : String} {x : Option α} {a : α} :
    found entity id x s = .ok a s' ↔ x = some a ∧ s' = s := by
  cases x with
  | some b => simp [found, eq_comm]
  | none => simp [found, refuse]

theorem demand_eq_ok {entity : Entity} {id : String} {question : Tables → Option α} {a : α} :
    demand entity id question s = .ok a s' ↔ question s.tables = some a ∧ s' = s :=
  found_eq_ok

/-- The store after an id was drawn. -/
theorem draw_eq_ok {kind : IdKind} {id : String} (h : draw kind s = .ok id s') :
    s'.tables = s.tables ∧ s'.saved = s.saved := by
  unfold draw at h
  injection h with _ hs
  subst hs
  exact ⟨rfl, rfl⟩

theorem readRow_eq_ok {isReadable : α → Bool} {question : Tables → Option α} {a : Option α} :
    Store.readRow isReadable question s = .ok a s'
      ↔ a = question s.tables ∧ (∀ r, question s.tables = some r → isReadable r) ∧ s' = s := by
  unfold Store.readRow
  cases question s.tables with
  | none => simp [@eq_comm _ none, @eq_comm _ s]
  | some r =>
    by_cases h : isReadable r = true
    · simp [h, @eq_comm _ (some r), @eq_comm _ s]
    · simp [h]

/-! ## Transactions -/

/-- A transaction of its own that succeeds. -/
theorem atomic_eq_ok (idle : s.saved = none) {w : Work α} {a : α} :
    atomic w s = .ok a s' ↔ ∃ s₁, w s.begin = .ok a s₁ ∧ s' = s₁.commit := by
  unfold atomic
  rw [idle]
  cases w s.begin with
  | ok b s₁ => simp [and_assoc, eq_comm]
  | error fault s₁ => simp

/-- A transaction of its own that fails leaves the tables as they were. -/
theorem atomic_eq_error (idle : s.saved = none) {w : Work α} {fault : Fault} :
    atomic w s = .error fault s'
      ↔ ∃ s₁, w s.begin = .error fault s₁ ∧ s' = s₁.rollbackTo s.tables := by
  unfold atomic
  rw [idle]
  cases w s.begin with
  | ok b s₁ => simp
  | error fault' s₁ => simp [and_assoc, eq_comm]

/-- Inside an open transaction a unit of work just runs. -/
theorem atomic_of_open {t : Tables} (h : s.saved = some t) (w : Work α) : atomic w s = w s := by
  unfold atomic
  rw [h]

/-- Work that only changes the tables does the same as a transaction. -/
theorem atomic_of_apply {w : Work α} {f : Tables → Tables} {a : α}
    (h : ∀ s' : Store, s'.tables = s.tables → w s' = .ok a { s' with tables := f s'.tables }) :
    atomic w s = .ok a { s with tables := f s.tables } := by
  cases saved : s.saved with
  | none =>
    refine (atomic_eq_ok saved).mpr ⟨_, h s.begin rfl, ?_⟩
    unfold Store.commit Store.begin
    rw [← saved]
  | some t =>
    rw [atomic_of_open saved, ← saved]
    exact h s rfl

/-- A transaction of its own that fails leaves nothing behind but ids that are used up. -/
theorem atomic_error_cases (idle : s.saved = none) {w : Work α} {fault : Fault}
    (h : atomic w s = .error fault s') : s'.tables = s.tables ∧ s'.saved = none := by
  obtain ⟨s₁, -, rfl⟩ := (atomic_eq_error idle).mp h
  exact ⟨rfl, rfl⟩

/-! ## What a unit of work does -/

/-- Whenever `w` succeeds, the tables before and after are related by `R`, and a transaction is
open after it if one was before. -/
def Does (R : Tables → Tables → Prop) (w : Work α) : Prop :=
  ∀ s a s', w s = .ok a s' → R s.tables s'.tables ∧ s'.saved = s.saved

section Does

variable {R : Tables → Tables → Prop}

theorem Does.mono {R' : Tables → Tables → Prop} (weaker : ∀ t t', R t t' → R' t t') {w : Work α}
    (hw : Does R w) : Does R' w :=
  fun s a s' h => ⟨weaker _ _ (hw s a s' h).1, (hw s a s' h).2⟩

theorem does_pure (refl : ∀ t, R t t) (a : α) : Does R (pure a) := by
  intro s b s' h
  obtain ⟨-, rfl⟩ := pure_eq_ok.mp h
  exact ⟨refl _, rfl⟩

theorem does_write {f : Tables → Tables} (hf : ∀ t, R t (f t)) : Does R (write f) := by
  intro s u s' h
  rw [write_eq_ok.mp h]
  exact ⟨hf s.tables, rfl⟩

theorem does_run {f : Statement} (hf : ∀ t t', f t = .ok t' → R t t') : Does R (run f) := by
  intro s u s' h
  obtain ⟨t', done, rfl⟩ := run_eq_ok.mp h
  exact ⟨hf _ _ done, rfl⟩

theorem does_bind (trans : ∀ t u v, R t u → R u v → R t v) {w : Work α} {f : α → Work β}
    (hw : Does R w) (hf : ∀ a, Does R (f a)) : Does R (w >>= f) := by
  intro s b s' h
  obtain ⟨a, s₁, first, second⟩ := bind_eq_ok.mp h
  obtain ⟨r₁, saved₁⟩ := hw _ _ _ first
  obtain ⟨r₂, saved₂⟩ := hf a _ _ _ second
  exact ⟨trans _ _ _ r₁ r₂, saved₂.trans saved₁⟩

/-- A check in front of a unit of work. -/
theorem does_guard {c : Prop} [Decidable c] {fault : Fault} {f : α → Work β} {w : Work β}
    (hw : Does R w) : Does R (if c then refuse fault >>= f else w) :=
  fun s b s' h => hw s b s' (guard_eq_ok.mp h).2

theorem does_ite {c : Prop} [Decidable c] {v w : Work α} (hv : Does R v) (hw : Does R w) :
    Does R (if c then v else w) := by
  split
  · exact hv
  · exact hw

theorem does_atomic {w : Work α} (hw : Does R w) : Does R (atomic w) := by
  intro s a s' h
  cases saved : s.saved with
  | none =>
    obtain ⟨s₁, done, rfl⟩ := (atomic_eq_ok saved).mp h
    exact ⟨(hw _ _ _ done).1, rfl⟩
  | some t =>
    rw [atomic_of_open saved] at h
    rw [← saved]
    exact hw _ _ _ h

theorem does_each (refl : ∀ t, R t t) (trans : ∀ t u v, R t u → R u v → R t v)
    {w : α → Work Unit} (hw : ∀ a, Does R (w a)) (items : List α) : Does R (each w items) := by
  induction items with
  | nil => exact does_pure refl ()
  | cons a rest ih => exact does_bind trans (hw a) fun _ => ih

theorem does_draw (refl : ∀ t, R t t) (kind : IdKind) : Does R (draw kind) := by
  intro s id s' h
  obtain ⟨tables, saved⟩ := draw_eq_ok h
  exact ⟨tables.symm ▸ refl _, saved⟩

theorem does_collect (refl : ∀ t, R t t) (trans : ∀ t u v, R t u → R u v → R t v)
    {w : α → Work β} (hw : ∀ a, Does R (w a)) (items : List α) : Does R (collect w items) := by
  induction items with
  | nil => exact does_pure refl []
  | cons a rest ih =>
    exact does_bind trans (hw a) fun _ => does_bind trans ih fun _ => does_pure refl _

end Does

/-! ## Loops -/

/-- A loop of writes is the writes one after the other. -/
theorem each_eq_ok {w : α → Work Unit} {f : α → Tables → Tables} {items : List α}
    (hw : ∀ a ∈ items, ∀ s u s', w a s = .ok u s' → s'.tables = f a s.tables ∧ s'.saved = s.saved)
    {u : Unit} (h : each w items s = .ok u s') :
    s'.tables = items.foldl (fun t a => f a t) s.tables ∧ s'.saved = s.saved := by
  induction items generalizing s with
  | nil =>
    obtain ⟨-, rfl⟩ := pure_eq_ok.mp h
    exact ⟨rfl, rfl⟩
  | cons a rest ih =>
    obtain ⟨_, s₁, first, second⟩ := bind_eq_ok.mp h
    obtain ⟨tables₁, saved₁⟩ := hw a List.mem_cons_self _ _ _ first
    obtain ⟨tables, saved⟩ := ih (fun b hb => hw b (List.mem_cons_of_mem _ hb)) second
    rw [List.foldl_cons, ← tables₁]
    exact ⟨tables, saved.trans saved₁⟩

/-- Writes that cannot fail, one for each item, are one change of the tables. -/
theorem each_write (f : α → Tables → Tables) (items : List α) (s : Store) :
    each (fun a => write (f a)) items s
      = .ok () { s with tables := items.foldl (fun t a => f a t) s.tables } := by
  induction items generalizing s with
  | nil => rfl
  | cons a rest ih => exact ih { s with tables := f a s.tables }

/-- A loop over items with different keys, each of which is ready when the loop begins: treating one
leaves the others ready. -/
theorem collect_ok_cases {key : α → String} {Ready : Tables → α → Prop}
    {R : Tables → Tables → Prop} (refl : ∀ t, R t t) (trans : ∀ t u v, R t u → R u v → R t v)
    {w : α → Work β}
    (hw : ∀ a s b s', Ready s.tables a → w a s = .ok b s' →
      R s.tables s'.tables ∧ s'.saved = s.saved ∧
        ∀ c, key c ≠ key a → Ready s.tables c → Ready s'.tables c)
    {items : List α} (nodup : (items.map key).Nodup) (ready : ∀ a ∈ items, Ready s.tables a)
    {bs : List β} (h : collect w items s = .ok bs s') :
    R s.tables s'.tables ∧ s'.saved = s.saved ∧
      ∀ c, key c ∉ items.map key → Ready s.tables c → Ready s'.tables c := by
  induction items generalizing s bs with
  | nil =>
    obtain ⟨-, rfl⟩ := pure_eq_ok.mp h
    exact ⟨refl _, rfl, fun _ _ isReady => isReady⟩
  | cons a rest ih =>
    obtain ⟨b, s₁, first, h⟩ := bind_eq_ok.mp h
    obtain ⟨bs, s₂, others, h⟩ := bind_eq_ok.mp h
    obtain ⟨-, rfl⟩ := pure_eq_ok.mp h
    obtain ⟨new, nodupRest⟩ := List.nodup_cons.mp nodup
    obtain ⟨r₁, saved₁, keeps₁⟩ := hw a _ _ _ (ready a List.mem_cons_self) first
    have differ : ∀ c ∈ rest, key c ≠ key a := fun c hc same => new (same ▸ List.mem_map_of_mem hc)
    obtain ⟨r₂, saved₂, keeps₂⟩ := ih nodupRest
      (fun c hc => keeps₁ c (differ c hc) (ready c (List.mem_cons_of_mem _ hc))) others
    refine ⟨trans _ _ _ r₁ r₂, saved₂.trans saved₁, fun c hc isReady => ?_⟩
    rw [List.map_cons, List.mem_cons, not_or] at hc
    exact keeps₂ c hc.2 (keeps₁ c hc.1 isReady)

/-- A loop that answers nothing is one of which the answers are not looked at. -/
theorem collect_of_each {w : α → Work Unit} {items : List α} {u : Unit}
    (h : each w items s = .ok u s') : ∃ bs, collect w items s = .ok bs s' := by
  induction items generalizing s with
  | nil => exact ⟨[], by rw [← (pure_eq_ok.mp h).2]; rfl⟩
  | cons a rest ih =>
    obtain ⟨b, s₁, first, others⟩ := bind_eq_ok.mp h
    obtain ⟨bs, collected⟩ := ih others
    refine ⟨b :: bs, bind_eq_ok.mpr ⟨b, s₁, first, ?_⟩⟩
    exact bind_eq_ok.mpr ⟨bs, s', collected, rfl⟩

/-- The answers of a loop have the keys of its items. -/
theorem collect_answers {γ : Type} {key : α → γ} {key' : β → γ} {w : α → Work β}
    (hw : ∀ a s b s', w a s = .ok b s' → key' b = key a) {items : List α} {bs : List β}
    (h : collect w items s = .ok bs s') : bs.map key' = items.map key := by
  induction items generalizing s s' bs with
  | nil =>
    obtain ⟨rfl, -⟩ := pure_eq_ok.mp h
    rfl
  | cons a rest ih =>
    obtain ⟨b, s₁, first, h⟩ := bind_eq_ok.mp h
    obtain ⟨bs, s₂, others, h⟩ := bind_eq_ok.mp h
    obtain ⟨rfl, -⟩ := pure_eq_ok.mp h
    rw [List.map_cons, List.map_cons, hw a _ _ _ first, ih others]

/-- The same for a loop that answers nothing. -/
theorem each_ok_cases {key : α → String} {Ready : Tables → α → Prop} {R : Tables → Tables → Prop}
    (refl : ∀ t, R t t) (trans : ∀ t u v, R t u → R u v → R t v) {w : α → Work Unit}
    (hw : ∀ a s b s', Ready s.tables a → w a s = .ok b s' →
      R s.tables s'.tables ∧ s'.saved = s.saved ∧
        ∀ c, key c ≠ key a → Ready s.tables c → Ready s'.tables c)
    {items : List α} (nodup : (items.map key).Nodup) (ready : ∀ a ∈ items, Ready s.tables a)
    {u : Unit} (h : each w items s = .ok u s') :
    R s.tables s'.tables ∧ s'.saved = s.saved ∧
      ∀ c, key c ∉ items.map key → Ready s.tables c → Ready s'.tables c := by
  obtain ⟨bs, collected⟩ := collect_of_each h
  exact collect_ok_cases refl trans hw nodup ready collected

/-- A loop succeeds when each of its items does, on whatever those before it have left. -/
theorem collect_succeeds {I : Tables → Prop} {w : α → Work β} {items : List α}
    (hw : ∀ a ∈ items, ∀ s, I s.tables → ∃ b s', w a s = .ok b s' ∧ I s'.tables)
    (h : I s.tables) : ∃ bs s', collect w items s = .ok bs s' ∧ I s'.tables := by
  induction items generalizing s with
  | nil => exact ⟨[], s, rfl, h⟩
  | cons a rest ih =>
    obtain ⟨b, s₁, first, h₁⟩ := hw a List.mem_cons_self s h
    obtain ⟨bs, s', others, h'⟩ := ih (fun c hc => hw c (List.mem_cons_of_mem _ hc)) h₁
    refine ⟨b :: bs, s', bind_eq_ok.mpr ⟨b, s₁, first, ?_⟩, h'⟩
    exact bind_eq_ok.mpr ⟨bs, s', others, rfl⟩

/-- The same for a loop that answers nothing. -/
theorem each_succeeds {I : Tables → Prop} {w : α → Work Unit} {items : List α}
    (hw : ∀ a ∈ items, ∀ s, I s.tables → ∃ s', w a s = .ok () s' ∧ I s'.tables)
    (h : I s.tables) : ∃ s', each w items s = .ok () s' ∧ I s'.tables := by
  induction items generalizing s with
  | nil => exact ⟨s, rfl, h⟩
  | cons a rest ih =>
    obtain ⟨s₁, first, h₁⟩ := hw a List.mem_cons_self s h
    obtain ⟨s', others, h'⟩ := ih (fun c hc => hw c (List.mem_cons_of_mem _ hc)) h₁
    exact ⟨s', bind_eq_ok.mpr ⟨(), s₁, first, others⟩, h'⟩

/-! ## Failures -/

/-- A failure leaves the tables as they were. -/
def FailsClean (w : Work α) : Prop :=
  ∀ s fault s', s.saved = none → w s = .error fault s' →
    s'.tables = s.tables ∧ s'.saved = none

/-- A unit of work that only looks at the store. -/
def Looks (w : Work α) : Prop := ∀ s, after w s = s

theorem failsClean_atomic (w : Work α) : FailsClean (atomic w) :=
  fun _ _ _ idle h => atomic_error_cases idle h

theorem Looks.failsClean {w : Work α} (hw : Looks w) : FailsClean w := by
  intro s fault s' idle h
  rw [← after_of_error h, hw s]
  exact ⟨rfl, idle⟩

theorem Looks.does {R : Tables → Tables → Prop} {w : Work α} (hw : Looks w) (refl : ∀ t, R t t) :
    Does R w := by
  intro s a s' h
  obtain rfl : s' = s := (after_of_ok h).symm.trans (hw s)
  exact ⟨refl _, rfl⟩

/-- What only looks may come before. -/
theorem Looks.bind {w : Work α} {f : α → Work β} (hw : Looks w) (hf : ∀ a, FailsClean (f a)) :
    FailsClean (w >>= f) := by
  intro s fault s' idle h
  cases first : w s with
  | ok a s₁ =>
    rw [bind_of_ok first] at h
    obtain rfl : s₁ = s := (after_of_ok first).symm.trans (hw s)
    exact hf a _ _ _ idle h
  | error fault₁ s₁ =>
    rw [bind_of_error first] at h
    obtain ⟨-, rfl⟩ := EStateM.Result.error.inj h
    exact hw.failsClean _ _ _ idle first

/-- A check in front of a unit of work. -/
theorem failsClean_guard {c : Prop} [Decidable c] {fault : Fault} {f : α → Work β} {w : Work β}
    (hw : FailsClean w) : FailsClean (if c then refuse fault >>= f else w) := by
  split
  · intro s fault' s' idle h
    rw [refuse_bind] at h
    obtain ⟨-, rfl⟩ := EStateM.Result.error.inj h
    exact ⟨rfl, idle⟩
  · exact hw

theorem looks_ask (question : Tables → α) : Looks (ask question) := fun _ => rfl

theorem looks_ofExcept (x : Except Fault α) : Looks (ofExcept x) := by
  intro s
  cases x <;> rfl

theorem looks_refuse (fault : Fault) : Looks (refuse fault : Work α) := fun _ => rfl

theorem looks_found (entity : Entity) (id : String) (x : Option α) :
    Looks (found entity id x) := by
  intro s
  cases x <;> rfl

theorem looks_demand (entity : Entity) (id : String) (question : Tables → Option α) :
    Looks (demand entity id question) := fun s => looks_found entity id (question s.tables) s

theorem looks_readRow (isReadable : α → Bool) (question : Tables → Option α) :
    Looks (Store.readRow isReadable question) := by
  intro s
  unfold Store.readRow after
  by_cases h : (question s.tables).all isReadable = true
  · simp [h]
  · simp [h]

theorem failsClean_run (f : Statement) : FailsClean (run f) := by
  intro s fault s' idle h
  unfold run at h
  split at h
  · cases h
  · obtain ⟨-, rfl⟩ := EStateM.Result.error.inj h
    exact ⟨rfl, idle⟩

theorem failsClean_write (f : Tables → Tables) : FailsClean (write f) := by
  intro s fault s' _ h
  cases h

theorem failsClean_draw (kind : IdKind) : FailsClean (draw kind) := by
  intro s fault s' _ h
  cases h

end Work

end Staffing
