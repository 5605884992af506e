/-!
# JSON values

A JSON value as its text gives it: an object keeps the order of its fields and a repeated field,
and a number knows whether it was written as an integer. A surrogate that stands alone makes a
string ill formed, and an object too if it stands in the name of a field: no reader takes such a
value, but it does no harm in a field that nobody reads.

* `Json` — the values
* `Json.text?`, `Json.natBelow?`, … — a value as a value of a Lean type, if it is one
* `Json.ofOption`, `Json.ofList`, … — a value of a Lean type as a value
* `Json.admissible` — nested at most 127 deep, well formed, and no number beyond the floats
-/

namespace Staffing

/-- A JSON value. -/
inductive Json where
  | null
  | bool (b : Bool)
  | int (n : Int)
  | float (x : Float)
  | text (s : String)
  | list (items : List Json)
  | record (fields : List (String × Json))
  | illFormed
  deriving Inhabited

namespace Json

/-! ## Values of Lean types -/

/-- The text of a JSON string. -/
def text? : Json → Option String
  | text s => some s
  | _ => none

/-- The truth value of `true` or `false`. -/
def bool? : Json → Option Bool
  | bool b => some b
  | _ => none

/-- An integer from `low` up to and including `high`. -/
def intIn? (low high : Int) : Json → Option Int
  | int n => if low ≤ n ∧ n ≤ high then some n else none
  | _ => none

/-- An integer of 64 bits with a sign. -/
def int64? : Json → Option Int := intIn? (-0x8000000000000000) 0x7FFFFFFFFFFFFFFF

/-- A natural number below `bound`. -/
def natBelow? (bound : Nat) (v : Json) : Option Nat := (v.intIn? 0 (bound - 1)).map Int.toNat

/-- A natural number of 32 bits. -/
def nat32? : Json → Option Nat := natBelow? UInt32.size

/-- A natural number of 64 bits. -/
def nat64? : Json → Option Nat := natBelow? UInt64.size

/-- A finite number. -/
def float? : Json → Option Float
  | int n => some (Float.ofInt n)
  | float x => if x.isInf || x.isNaN then none else some x
  | _ => none

/-- The items of a JSON array, each read by `item`. -/
def list? {α : Type} (item : Json → Option α) : Json → Option (List α)
  | list items => items.mapM item
  | _ => none

/-- `null` as no value, and anything else as `value` reads it. -/
def optional? {α : Type} (value : Json → Option α) : Json → Option (Option α)
  | null => some none
  | v => (value v).map some

/-- The value of a field of an object. -/
def field? (v : Json) (name : String) : Option Json :=
  match v with
  | record fields => fields.lookup name
  | _ => none

/-! ## Building values -/

/-- `null`, or the value's JSON. -/
def ofOption {α : Type} (f : α → Json) : Option α → Json
  | some a => f a
  | none => null

/-- An array of the values' JSON. -/
def ofList {α : Type} (f : α → Json) (items : List α) : Json := list (items.map f)

/-- A natural number. -/
def ofNat (n : Nat) : Json := int n

/-- An array of texts. -/
def texts (items : List String) : Json := ofList text items

/-- A text that may be missing. -/
def optionalText (s : Option String) : Json := ofOption text s

/-! ## Limits -/

mutual

/-- How deep arrays and objects are nested. -/
def depth : Json → Nat
  | list items => 1 + depthOfItems items
  | record fields => 1 + depthOfFields fields
  | _ => 0

/-- The greatest depth in a list of values. -/
def depthOfItems : List Json → Nat
  | [] => 0
  | v :: rest => max v.depth (depthOfItems rest)

/-- The greatest depth in a list of fields. -/
def depthOfFields : List (String × Json) → Nat
  | [] => 0
  | (_, v) :: rest => max v.depth (depthOfFields rest)

end

mutual

/-- Are all numbers finite and all strings and names well formed? -/
def sound : Json → Bool
  | float x => !(x.isInf || x.isNaN)
  | list items => soundItems items
  | record fields => soundFields fields
  | illFormed => false
  | _ => true

/-- Are all values of a list sound? -/
def soundItems : List Json → Bool
  | [] => true
  | v :: rest => v.sound && soundItems rest

/-- Are the values of all fields sound? -/
def soundFields : List (String × Json) → Bool
  | [] => true
  | (_, v) :: rest => v.sound && soundFields rest

end

/-- A value that is read in whole: nested at most 127 deep, well formed, with finite numbers. -/
def admissible (v : Json) : Bool := v.depth ≤ 127 && v.sound

end Json

end Staffing
