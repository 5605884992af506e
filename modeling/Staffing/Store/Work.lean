import Staffing.Store.Ids
import Staffing.Tables.Journal

/-!
# Units of work

A store is the tables, the number of ids drawn so far and, while a transaction is open, the tables
as they were when it began. Those are what another connection sees.

A unit of work reads and writes a store and may fail. What it wrote before it failed stays, unless
it runs as a transaction of its own.

* `Store.begin`, `Store.commit`, `Store.rollbackTo` — a transaction, step by step
* `Work` — units of work
* `Work.atomic` — runs a unit of work as a transaction, or inside the one that is open
* `Work.ask`, `Work.write`, `Work.run` — a question, a write that cannot fail, one that can
* `Work.draw` — a new id; a rolled back transaction does not give it back
-/

namespace Staffing

/-- The tables, how many ids were drawn, and the tables at the beginning of an open transaction. -/
structure Store where
  tables : Tables := {}
  serial : Nat := 0
  saved : Option Tables := none
  deriving Inhabited

/-- The tables as another connection sees them. -/
def Store.committed (s : Store) : Tables := s.saved.getD s.tables

namespace Store

/-- The store with a transaction open. -/
def begin (s : Store) : Store := { s with saved := some s.tables }

/-- The store without a transaction; what it wrote stays. -/
def commit (s : Store) : Store := { s with saved := none }

/-- The store without a transaction and with the tables `t`. -/
def rollbackTo (t : Tables) (s : Store) : Store := { s with tables := t, saved := none }

end Store

/-- A unit of work: it reads and writes a store and may fail. -/
abbrev Work := EStateM Fault Store

namespace Work

/-- An answer from the tables. -/
def ask {α : Type} (question : Tables → α) : Work α := fun s => .ok (question s.tables) s

/-- A write that cannot fail. -/
def write (f : Tables → Tables) : Work Unit := fun s => .ok () { s with tables := f s.tables }

/-- A write that may be refused. -/
def run (f : Statement) : Work Unit := fun s =>
  match f s.tables with
  | .ok t => .ok () { s with tables := t }
  | .error fault => .error fault s

/-- Fails. -/
def refuse {α : Type} (fault : Fault) : Work α := fun s => .error fault s

/-- A value, or a failure. -/
def ofExcept {α : Type} : Except Fault α → Work α
  | .ok a => fun s => .ok a s
  | .error fault => refuse fault

/-- The record that was looked for; without one the work fails. -/
def found {α : Type} (entity : Entity) (id : String) : Option α → Work α
  | some a => fun s => .ok a s
  | none => refuse (.notFound entity id)

/-- The record that a question finds; without one the work fails. -/
def demand {α : Type} (entity : Entity) (id : String) (question : Tables → Option α) : Work α :=
  fun s => found entity id (question s.tables) s

/-- A new id. -/
def draw (kind : IdKind) : Work String := fun s =>
  let used := kind.used s.tables
  let serial := freeSerial kind.text used used.length s.serial
  .ok (idText kind.text serial) { s with serial := serial + 1 }

/-- Runs `w` as a transaction: when it fails the tables are as before. Inside an open transaction
`w` just runs, and what it wrote before it failed stays. -/
def atomic {α : Type} (w : Work α) : Work α := fun s =>
  match s.saved with
  | some _ => w s
  | none =>
    match w s.begin with
    | .ok a s' => .ok a s'.commit
    | .error fault s' => .error fault (s'.rollbackTo s.tables)

/-- Runs one unit of work for each item, in order. -/
def each {α : Type} (w : α → Work Unit) : List α → Work Unit
  | [] => pure ()
  | a :: rest => do
    w a
    each w rest

/-- Runs one unit of work for each item, in order, and collects the answers. -/
def collect {α β : Type} (w : α → Work β) : List α → Work (List β)
  | [] => pure []
  | a :: rest => do
    let b ← w a
    let bs ← collect w rest
    pure (b :: bs)

end Work

end Staffing
