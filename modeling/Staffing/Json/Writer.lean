import Staffing.Json.Value
import Staffing.Number.Shortest

/-!
# Writing JSON

* `Json.compact` — without white space
* `Json.pretty` — one item or field a line, indented by two blanks
* `Json.sorted` — the fields of every object in the order of their names

A quote, a backslash and the control characters are escaped; all else is written as it is.
-/

namespace Staffing.Json

/-- A hexadecimal digit. -/
def hexDigit (n : Nat) : Char := Char.ofNat (if n < 10 then 48 + n else 87 + n)

/-- A character inside a JSON string. -/
def escapeChar (c : Char) : List Char :=
  match c with
  | '"' => ['\\', '"']
  | '\\' => ['\\', '\\']
  | '\n' => ['\\', 'n']
  | '\r' => ['\\', 'r']
  | '\t' => ['\\', 't']
  | c =>
    if c.toNat = 8 then ['\\', 'b']
    else if c.toNat = 12 then ['\\', 'f']
    else if c.toNat < 0x20 then
      ['\\', 'u', '0', '0', hexDigit (c.toNat / 16), hexDigit (c.toNat % 16)]
    else [c]

/-- A text as a JSON string. -/
def quoted (s : String) : String := "\"" ++ String.ofList (s.toList.flatMap escapeChar) ++ "\""

/-- A value that is neither an array nor an object. -/
def scalar : Json → String
  | bool true => "true"
  | bool false => "false"
  | int n => toString n
  | float x => Decimal.jsonText x
  | text s => quoted s
  | _ => "null"

mutual

/-- The value without white space. -/
def compact : Json → String
  | list items => "[" ++ ",".intercalate (compactItems items) ++ "]"
  | record fields => "\x7b" ++ ",".intercalate (compactFields fields) ++ "\x7d"
  | v => scalar v

/-- Each of a list of values. -/
def compactItems : List Json → List String
  | [] => []
  | v :: rest => v.compact :: compactItems rest

/-- Each of a list of fields. -/
def compactFields : List (String × Json) → List String
  | [] => []
  | (name, v) :: rest => (quoted name ++ ":" ++ v.compact) :: compactFields rest

end

/-- Lines between two brackets, the inner ones indented below `indent`. -/
def block (indent opening closing : String) (lines : List String) : String :=
  opening ++ "\n" ++ ",\n".intercalate (lines.map (indent ++ "  " ++ ·)) ++ "\n" ++ indent
    ++ closing

mutual

/-- The value over several lines; `indent` stands in front of its last line. -/
def prettyFrom (indent : String) : Json → String
  | list [] => "[]"
  | list (v :: rest) => block indent "[" "]" (prettyItems (indent ++ "  ") (v :: rest))
  | record [] => "\x7b\x7d"
  | record (f :: rest) => block indent "\x7b" "\x7d" (prettyFields (indent ++ "  ") (f :: rest))
  | v => scalar v

/-- Each of a list of values. -/
def prettyItems (indent : String) : List Json → List String
  | [] => []
  | v :: rest => prettyFrom indent v :: prettyItems indent rest

/-- Each of a list of fields. -/
def prettyFields (indent : String) : List (String × Json) → List String
  | [] => []
  | (name, v) :: rest => (quoted name ++ ": " ++ prettyFrom indent v) :: prettyFields indent rest

end

/-- The value over several lines. -/
def pretty (v : Json) : String := prettyFrom "" v

mutual

/-- The value with the fields of every object in the order of their names. -/
def sorted : Json → Json
  | list items => list (sortedItems items)
  | record fields => record ((sortedFields fields).mergeSort fun a b => a.1 ≤ b.1)
  | v => v

/-- Each of a list of values, sorted inside. -/
def sortedItems : List Json → List Json
  | [] => []
  | v :: rest => v.sorted :: sortedItems rest

/-- Each of a list of fields, sorted inside. -/
def sortedFields : List (String × Json) → List (String × Json)
  | [] => []
  | (name, v) :: rest => (name, v.sorted) :: sortedFields rest

end

end Staffing.Json
