import Staffing.Engine.Sweeps
import Staffing.Proofs.Keys

/-!
# What the engine did

A call on the engine that took nothing but calm steps, one after the other, whichever way it ended.

* `PriceSource.IsQuiet` — asking for a price leaves the store alone
* `Engine.Ready` — no transaction is open, keys are unique, prices are quiet
* `Engine.Leads`, `Engine.Ebbs` — what calls do that take calm steps only; that promote
* `Engine.leads_bind`, `Engine.leads_onStore`, … — how such calls are put together
* `Engine.Rests`, `Engine.rests_choose` — looking for candidates changes no table
-/

namespace Staffing

/-- Asking for a price leaves the store alone. -/
def PriceSource.IsQuiet (p : PriceSource) : Prop := ∀ n q s, (p n q s).2 = s

namespace Engine

/-- Between calls: no transaction is open, keys are unique, and asking for a price leaves the store
alone. -/
structure Ready (e : Engine) : Prop where
  idle : e.store.saved = none
  keyed : e.store.tables.Keyed
  quiet : e.priceSource.IsQuiet

/-- The tables went through calm steps, and no transaction was left open. -/
structure Leads (now : Instant) (e e' : Engine) : Prop where
  calms : Calms now e.store.tables e'.store.tables
  idle : e'.store.saved = none
  clock : e'.now = e.now
  config : e'.config = e.config
  priceSource : e'.priceSource = e.priceSource

variable {now : Instant} {e e' e'' : Engine} {α β : Type}

theorem Leads.refl (ready : e.Ready) : e.Leads now e := ⟨.refl, ready.idle, rfl, rfl, rfl⟩

theorem Leads.trans (h : e.Leads now e') (h' : e'.Leads now e'') : e.Leads now e'' where
  calms := Relation.ReflTransGen.trans h.calms h'.calms
  idle := h'.idle
  clock := h'.clock.trans h.clock
  config := h'.config.trans h.config
  priceSource := h'.priceSource.trans h.priceSource

theorem Leads.ready (h : e.Leads now e') (ready : e.Ready) : e'.Ready where
  idle := h.idle
  keyed := h.calms.keyed ready.keyed
  quiet := h.priceSource ▸ ready.quiet

/-- The tables went through steps by which bookings did not rise and promotions were decided by the
locks `ids`, and no transaction was left open. -/
structure Ebbs (now : Instant) (ids : List String) (e e' : Engine) : Prop where
  ebbs : ∀ decided, Staffing.Ebbs now (e.store.tables, decided) (e'.store.tables, decided ++ ids)
  idle : e'.store.saved = none
  priceSource : e'.priceSource = e.priceSource

theorem Ebbs.leads {ids : List String} (h : e.Ebbs now ids e') (h' : e'.Leads now e'') :
    e.Ebbs now ids e'' where
  ebbs := fun decided => (h.ebbs decided).trans (h'.calms.ebbs _)
  idle := h'.idle
  priceSource := h'.priceSource.trans h.priceSource

theorem Ebbs.ready {ids : List String} (h : e.Ebbs now ids e') (ready : e.Ready) : e'.Ready where
  idle := h.idle
  keyed := (Ebbs.steps (h.ebbs [])).keyed ready.keyed
  quiet := h.priceSource ▸ ready.quiet

/-! ## Putting calls together -/

/-- The second part runs when the first has succeeded, on the engine that it left. -/
theorem leads_bind {w : EngineWork α} {f : α → EngineWork β} (ready : e.Ready)
    (hw : e.Leads now (after w e))
    (hf : ∀ a e₁, w e = .ok a e₁ → e.Leads now e₁ → e₁.Ready → e₁.Leads now (after (f a) e₁)) :
    e.Leads now (after (w >>= f) e) := by
  cases first : w e with
  | ok a e₁ =>
    rw [after_of_ok first] at hw
    rw [after_bind_of_ok first]
    exact hw.trans (hf a e₁ first hw (hw.ready ready))
  | error fault e₁ =>
    rw [after_of_error first] at hw
    rw [after_bind_of_error first]
    exact hw

theorem get_apply (e : Engine) : (get : EngineWork Engine) e = .ok e e := rfl

theorem clock_apply (e : Engine) : clock e = .ok e.now e := rfl

theorem ofExcept_apply (a : α) (e : Engine) : ofExcept (.ok a) e = .ok a e := rfl

theorem leads_pure (ready : e.Ready) (a : α) :
    e.Leads now (after (pure a : EngineWork α) e) := .refl ready

theorem leads_refuse (ready : e.Ready) (fault : Fault) :
    e.Leads now (after (refuse fault : EngineWork α) e) := .refl ready

theorem ofExcept_eq_ok {x : Except Fault α} {a : α} :
    ofExcept x e = .ok a e' ↔ x = .ok a ∧ e' = e := by
  cases x with
  | ok b => simp [ofExcept, eq_comm]
  | error fault => simp [ofExcept, refuse]

theorem leads_ofExcept (ready : e.Ready) (x : Except Fault α) :
    e.Leads now (after (ofExcept x) e) := by
  cases x <;> exact .refl ready

/-- A check in front of a call. -/
theorem leads_guard {c : Prop} [Decidable c] {fault : Fault} {f : α → EngineWork β}
    {w : EngineWork β} (ready : e.Ready) (hw : ¬ c → e.Leads now (after w e)) :
    e.Leads now (after (if c then refuse fault >>= f else w) e) := by
  by_cases h : c
  · rw [if_pos h]
    exact .refl ready
  · rw [if_neg h]
    exact hw h

/-- Either of two calls. -/
theorem leads_ite {c : Prop} [Decidable c] {v w : EngineWork α}
    (hv : e.Leads now (after v e)) (hw : e.Leads now (after w e)) :
    e.Leads now (after (if c then v else w) e) := by
  split
  · exact hv
  · exact hw

theorem ask_eq_ok {question : Tables → α} {a : α} :
    ask question e = .ok a e' ↔ a = question e.store.tables ∧ e' = e := by
  unfold ask
  rw [EStateM.Result.ok.injEq, eq_comm, @eq_comm _ e]

theorem leads_ask (ready : e.Ready) (question : Tables → α) :
    e.Leads now (after (ask question) e) := .refl ready

theorem onStore_eq_ok {w : Work α} {a : α} :
    onStore w e = .ok a e' ↔ ∃ s, w e.store = .ok a s ∧ e' = { e with store := s } := by
  unfold onStore
  cases w e.store with
  | ok b s => simp [and_assoc, eq_comm]
  | error fault s => simp

theorem onStore_of_ok {w : Work α} {a : α} {s : Store} (h : w e.store = .ok a s) :
    onStore w e = .ok a { e with store := s } := onStore_eq_ok.mpr ⟨s, h, rfl⟩

theorem onStore_of_error {w : Work α} {fault : Fault} {s : Store}
    (h : w e.store = .error fault s) : onStore w e = .error fault { e with store := s } := by
  unfold onStore
  rw [h]

theorem after_onStore (w : Work α) (e : Engine) :
    after (onStore w) e = { e with store := after w e.store } := by
  unfold after onStore
  cases w e.store <;> rfl

theorem attempt_of_ok {w : EngineWork α} {a : α} (h : w e = .ok a e') :
    attempt w e = .ok (.ok a) e' := by
  unfold attempt
  rw [h]

theorem attempt_of_error {w : EngineWork α} {fault : Fault} (h : w e = .error fault e') :
    attempt w e = .ok (.error fault) e' := by
  unfold attempt
  rw [h]

/-- A unit of work that fails clean and whose success takes calm steps. -/
theorem leads_onStore {w : Work α} (ready : e.Ready) (clean : w.FailsClean)
    (calm : ∀ a s', w e.store = .ok a s' →
      Calms now e.store.tables s'.tables ∧ s'.saved = none) :
    e.Leads now (after (onStore w) e) := by
  rw [after_onStore]
  cases done : w e.store with
  | ok a s' =>
    rw [after_of_ok done]
    obtain ⟨calms, idle⟩ := calm a s' done
    exact ⟨calms, idle, rfl, rfl, rfl⟩
  | error fault s' =>
    rw [after_of_error done]
    obtain ⟨tables, idle⟩ := clean _ _ _ ready.idle done
    exact ⟨by rw [tables], idle, rfl, rfl, rfl⟩

theorem leads_demand {entity : Entity} {id : String} {question : Tables → Option α}
    (ready : e.Ready) : e.Leads now (after (onStore (Work.demand entity id question)) e) := by
  refine leads_onStore ready (Work.looks_demand _ _ _).failsClean fun a s' h => ?_
  obtain ⟨-, rfl⟩ := Work.demand_eq_ok.mp h
  exact ⟨.refl, ready.idle⟩

theorem leads_dispatch (ready : e.Ready) (events : List Event) :
    e.Leads now (after (dispatch now events) e) := by
  induction events generalizing e with
  | nil => exact .refl ready
  | cons event rest ih =>
    refine leads_bind ready ?_ fun _ e₁ _ _ ready₁ => ih ready₁
    exact ⟨.single .log, ready.idle, rfl, rfl, rfl⟩

/-- Telling of events never fails. -/
theorem dispatch_apply (now : Instant) (events : List Event) (e : Engine) :
    dispatch now events e = .ok () (after (dispatch now events) e) := by
  have told : ∃ e', dispatch now events e = .ok () e' := by
    induction events generalizing e with
    | nil => exact ⟨e, rfl⟩
    | cons event rest ih => exact ih _
  obtain ⟨e', h⟩ := told
  rw [after_of_ok h, h]

/-- Telling of events changes the log alone. -/
theorem dispatch_frame {t : Tables} (now : Instant) (events : List Event) (h : e.store.tables = t) :
    ∃ log, (after (dispatch now events) e).store.tables = { t with log } := by
  induction events generalizing e t with
  | nil => exact ⟨t.log, h⟩
  | cons event rest ih =>
    subst h
    obtain ⟨log, frame⟩ := ih (e := after (dispatchOne now event) e) rfl
    exact ⟨log, frame⟩

/-! ## Looking -/

/-- Nothing has changed but what the engine remembers of weights and prices. -/
structure Rests (e e' : Engine) : Prop where
  store : e'.store = e.store
  clock : e'.now = e.now
  config : e'.config = e.config
  priceSource : e'.priceSource = e.priceSource

theorem Rests.refl (e : Engine) : e.Rests e := ⟨rfl, rfl, rfl, rfl⟩

theorem Rests.leads (h : e.Rests e') (ready : e.Ready) : e.Leads now e' where
  calms := h.store ▸ .refl
  idle := h.store ▸ ready.idle
  clock := h.clock
  config := h.config
  priceSource := h.priceSource

/-- Of two parts that look, the second runs when the first has succeeded. -/
theorem rests_bind {w : EngineWork α} {f : α → EngineWork β} (hw : e.Rests (after w e))
    (hf : ∀ a e₁, w e = .ok a e₁ → e.Rests e₁ → e₁.Rests (after (f a) e₁)) :
    e.Rests (after (w >>= f) e) := by
  cases first : w e with
  | ok a e₁ =>
    rw [after_of_ok first] at hw
    rw [after_bind_of_ok first]
    have later := hf a e₁ first hw
    exact ⟨later.store.trans hw.store, later.clock.trans hw.clock, later.config.trans hw.config,
      later.priceSource.trans hw.priceSource⟩
  | error fault e₁ =>
    rw [after_of_error first] at hw
    rw [after_bind_of_error first]
    exact hw

theorem rests_ofExcept (x : Except Fault α) : e.Rests (after (ofExcept x) e) := by
  cases x <;> exact .refl e

theorem rests_demand (entity : Entity) (id : String) (question : Tables → Option α) :
    e.Rests (after (onStore (Work.demand entity id question)) e) := by
  rw [after_onStore, Work.looks_demand]
  exact .refl e

theorem rests_priceCeiling (quiet : e.priceSource.IsQuiet) (criteria : Criteria) :
    e.Rests (after (priceCeiling criteria) e) := by
  unfold priceCeiling after
  cases criteria.priceCeiling with
  | some c => exact .refl e
  | none => exact ⟨quiet _ _ _, rfl, rfl, rfl⟩

theorem rests_ranking (quiet : e.priceSource.IsQuiet) (criteria : Criteria) :
    e.Rests (after (ranking criteria now) e) := by
  unfold ranking
  refine rests_bind (rests_ofExcept _) fun _ e₁ _ rests₁ => ?_
  refine rests_bind (.refl e₁) fun _ e₂ _ rests₂ => ?_
  have quiet₂ : e₂.priceSource.IsQuiet := by
    rw [rests₂.priceSource, rests₁.priceSource]
    exact quiet
  refine rests_bind (rests_priceCeiling quiet₂ criteria) fun _ e₃ _ _ => ?_
  exact rests_bind ⟨rfl, rfl, rfl, rfl⟩ fun _ e₄ _ _ => .refl e₄

theorem rests_matchTeamAt (quiet : e.priceSource.IsQuiet) (criteria : Criteria) (required : Nat) :
    e.Rests (after (matchTeamAt criteria required now) e) := by
  unfold matchTeamAt
  refine rests_bind (rests_ofExcept _) fun _ e₁ _ rests₁ => ?_
  have quiet₁ : e₁.priceSource.IsQuiet := rests₁.priceSource ▸ quiet
  refine rests_bind (rests_ranking quiet₁ criteria) fun _ e₂ _ _ => ?_
  exact rests_bind (.refl e₂) fun _ e₃ _ _ => .refl e₃

theorem rests_choose (quiet : e.priceSource.IsQuiet) (jobId : String) :
    e.Rests (after (choose jobId now) e) := by
  unfold choose
  refine rests_bind (rests_demand _ _ _) fun j e₁ _ rests₁ => ?_
  have quiet₁ : e₁.priceSource.IsQuiet := rests₁.priceSource ▸ quiet
  split
  · exact .refl e₁
  · refine rests_bind ?_ fun _ e₂ _ _ => .refl e₂
    unfold propose
    refine rests_bind (rests_ranking quiet₁ _) fun _ e₂ _ _ => ?_
    exact rests_bind (.refl e₂) fun _ e₃ _ _ => .refl e₃

end Engine

end Staffing
