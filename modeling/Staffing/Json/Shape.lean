import Staffing.Json.Value

/-!
# Records in JSON

How a structure is filled from JSON. A structure is given as an object, whose unknown fields are
passed over and whose known ones occur at most once, or as an array of its fields in order. A kind
of value with alternatives is given as an object with the alternative's name in one field, its tag,
or as an array whose first item is that name.

* `Json.Field` — the name of a field, how a value fills it and what stands for an absent one
* `Json.fill?` — fills a structure
* `Json.tagged?` — takes the tag off
* `Json.alternative?` — the name of the alternative that a tag stands for
* `Json.choice?` — a name out of a fixed set
-/

namespace Staffing.Json

/-- A field of a structure that is being filled. -/
structure Field (σ : Type) where
  name : String
  /-- Puts a value into the structure. -/
  put : Json → σ → Option σ
  /-- May an object leave the field out? -/
  optionalInObject : Bool
  /-- May an array end before the field? -/
  optionalInArray : Bool

/-- A field that keeps its default when it is absent. -/
def Field.defaulted {σ α : Type} (name : String) (read : Json → Option α) (set : α → σ → σ) :
    Field σ where
  name := name
  put v s := (read v).map (set · s)
  optionalInObject := true
  optionalInArray := true

/-- A field that has to be there. -/
def Field.required {σ α : Type} (name : String) (read : Json → Option α) (set : α → σ → σ) :
    Field σ :=
  { Field.defaulted name read set with optionalInObject := false, optionalInArray := false }

/-- A field that an object may leave out, and that may be `null`. -/
def Field.nullable {σ α : Type} (name : String) (read : Json → Option α)
    (set : Option α → σ → σ) : Field σ :=
  { Field.defaulted name (Json.optional? read) set with optionalInArray := false }

/-- Fills each field with its value; a field without one stays as it is, if it may. -/
def fillEach {σ : Type} (mayStay : Field σ → Bool) : List (Field σ × Option Json) → σ → Option σ
  | [], s => some s
  | (f, some v) :: rest, s => do fillEach mayStay rest (← f.put v s)
  | (f, none) :: rest, s => if mayStay f then fillEach mayStay rest s else none

/-- Fills a structure from an object or an array. -/
def fill? {σ : Type} (fields : List (Field σ)) (start : σ) : Json → Option σ
  | record given =>
    if fields.all fun f => (given.filter (·.1 == f.name)).length ≤ 1 then
      fillEach (·.optionalInObject) (fields.map fun f => (f, given.lookup f.name)) start
    else none
  | list items =>
    if items.length ≤ fields.length then
      fillEach (·.optionalInArray) (fields.mapIdx fun i f => (f, items[i]?)) start
    else none
  | _ => none

/-- The value of the field `tag`, and the value without that field. -/
def tagged? (tag : String) : Json → Option (Json × Json)
  | record given => do
    let [(_, v)] := given.filter (·.1 == tag) | none
    some (v, record (given.filter (·.1 != tag)))
  | list (v :: rest) => some (v, list rest)
  | _ => none

/-- The alternative that a tag stands for: the tag is its name or its position among `names`. -/
def alternative? (names : List String) : Json → Option String
  | text name => some name
  | int n => if 0 ≤ n then names[n.toNat]? else none
  | _ => none

/-- A name out of a fixed set: the name itself, or an object that holds nothing under it, which is
`null` or an empty object. -/
def choice? {α : Type} (ofText? : String → Option α) : Json → Option α
  | text name => ofText? name
  | record [(name, null)] => ofText? name
  | record [(name, record [])] => ofText? name
  | _ => none

end Staffing.Json
