import Staffing.Pricing
import Staffing.Ranking.Filter
import Staffing.Settings.WeightCache
import Staffing.Store.Work

/-!
# The engine

The engine joins the store, the configuration, the clock and the outside parties: a source of
weights, a source of prices and a notifier.

A source of prices is asked between reading the candidates and committing a choice. What other
connections do to the tables meanwhile is part of its answer, so that a choice can be committed to
other tables than it was made on.

* `Engine` — the state
* `EngineWork` — what runs on it and may fail
* `Engine.onStore` — a unit of work of the store
* `Engine.attempt` — a failure as an answer
* `Engine.dispatch` — events go into the log and to the notifier
-/

namespace Staffing

/-- What a price is asked for. -/
structure PriceQuery where
  surface : Option Float
  hours : Float
  eco : Bool

/-- A source of prices: asked for the `n`-th time, counted from 0, it answers a ceiling or none and
leaves the store as other connections have changed it. -/
abbrev PriceSource := Nat → PriceQuery → Store → Option Float × Store

/-- A source of weights: asked for the `n`-th time, counted from 0, with the tables as another
connection sees them. -/
abbrev WeightSource := Nat → Tables → Load

/-- The prices of a rate card; none for a job without a length. -/
def PriceSource.ofRates (r : RateCard) : PriceSource := fun _ q s =>
  match r.ceiling q.surface q.hours q.eco with
  | .ok ceiling => (some ceiling, s)
  | .error _ => (none, s)

/-- No prices. -/
def PriceSource.none : PriceSource := fun _ _ s => (.none, s)

/-- The weights that stand in the settings. -/
def WeightSource.setting : WeightSource := fun _ t => Load.ofSetting (t.setting? "scoring_weights")

/-- No weights but those of the configuration. -/
def WeightSource.none : WeightSource := fun _ _ => .nothing

/-- The engine's state. -/
structure Engine where
  store : Store := {}
  config : Config := {}
  now : Instant := 0
  cache : WeightCache := {}
  /-- How often the weights were read. -/
  loads : Nat := 0
  weightSource : WeightSource := .none
  /-- How often a price was asked for. -/
  quotes : Nat := 0
  priceSource : PriceSource := .none
  /-- The events that the notifier was given, oldest first. -/
  notices : List Event := []

instance : Inhabited Engine := ⟨{}⟩

/-- What runs on an engine and may fail. -/
abbrev EngineWork := EStateM Fault Engine

namespace Engine

/-- An answer from the tables. -/
def ask {α : Type} (question : Tables → α) : EngineWork α := fun e =>
  .ok (question e.store.tables) e

/-- A unit of work of the store. -/
def onStore {α : Type} (w : Work α) : EngineWork α := fun e =>
  match w e.store with
  | .ok a s => .ok a { e with store := s }
  | .error fault s => .error fault { e with store := s }

/-- Fails. -/
def refuse {α : Type} (fault : Fault) : EngineWork α := fun e => .error fault e

/-- A value, or a failure. -/
def ofExcept {α : Type} : Except Fault α → EngineWork α
  | .ok a => fun e => .ok a e
  | .error fault => refuse fault

/-- A failure as an answer; what was written before it stays. -/
def attempt {α : Type} (w : EngineWork α) : EngineWork (Except Fault α) := fun e =>
  match w e with
  | .ok a e' => .ok (.ok a) e'
  | .error fault e' => .ok (.error fault) e'

/-- The current instant. -/
def clock : EngineWork Instant := fun e => .ok e.now e

/-- The weights in force. -/
def weights : EngineWork Weights := fun e =>
  let asked := (e.cache.valid? e.now).isNone
  let (w, cache) := e.cache.current (e.config.scoring.weightsTtl * Instant.second)
    e.config.scoring.weights (e.weightSource e.loads e.store.committed) e.now
  .ok w { e with cache, loads := if asked then e.loads + 1 else e.loads }

/-- The most that a job may cost: as the criteria say, or else as the source of prices says. -/
def priceCeiling (criteria : Criteria) : EngineWork (Option Float) := fun e =>
  match criteria.priceCeiling with
  | some c => .ok (some c) e
  | none =>
    let query : PriceQuery := ⟨criteria.surface, criteria.window.hours, criteria.ecoRequired⟩
    let (ceiling, store) := e.priceSource e.quotes query e.store
    .ok ceiling { e with store, quotes := e.quotes + 1 }

/-- Puts one event into the log and hands it to the notifier. -/
def dispatchOne (now : Instant) (event : Event) : EngineWork Unit := fun e =>
  .ok () { e with
    store := { e.store with
      tables := e.store.tables.appendLog (some event.jobId) (.event event) now }
    notices := e.notices ++ [event] }

/-- Puts events into the log and hands them to the notifier. -/
def dispatch (now : Instant) : List Event → EngineWork Unit
  | [] => pure ()
  | event :: rest => do
    dispatchOne now event
    dispatch now rest

end Engine

end Staffing
