import Staffing.Json.Value
import Staffing.Number.Literal

/-!
# Reading JSON

A text is one JSON value with white space around it. An integer that fits 64 bits is an `int`;
`-0`, a longer integer and every number with a point or an exponent is a `float`, infinite when it
is too large. An escape needs its four digits and no more: a surrogate without its other half makes
the string `illFormed`, or the object whose field it names.

* `Json.parse?` — the value of a text, if it is JSON

Each reader takes the characters still to be read and returns those it left. The loops run on
fuel: every step reads a character, so the length of the text is enough.
-/

namespace Staffing.Json

/-- A reader takes characters and gives a value and the characters behind it. -/
abbrev Reader (α : Type) := List Char → Option (α × List Char)

/-- Is it white space in JSON? -/
def isSpace (c : Char) : Bool := c == ' ' || c == '\t' || c == '\n' || c == '\r'

/-- The characters behind the white space. -/
def skip (cs : List Char) : List Char := cs.dropWhile isSpace

/-- The value of a hexadecimal digit. -/
def hexValue (c : Char) : Option Nat :=
  if '0' ≤ c ∧ c ≤ '9' then some (c.toNat - 48)
  else if 'a' ≤ c ∧ c ≤ 'f' then some (c.toNat - 87)
  else if 'A' ≤ c ∧ c ≤ 'F' then some (c.toNat - 55)
  else none

/-- Four hexadecimal digits. -/
def fourHex : Reader Nat
  | a :: b :: c :: d :: rest => do
    let n := (← hexValue a) * 4096 + (← hexValue b) * 256 + (← hexValue c) * 16 + (← hexValue d)
    some (n, rest)
  | _ => none

/-- The character behind `\u`, and none for a surrogate that stands alone. A high surrogate takes
the low one behind it along. -/
def unicodeEscape : Reader (Option Char) := fun cs => do
  let (unit, rest) ← fourHex cs
  if 0xDC00 ≤ unit ∧ unit ≤ 0xDFFF then some (none, rest)
  else if 0xD800 ≤ unit ∧ unit ≤ 0xDBFF then
    match rest with
    | '\\' :: 'u' :: more => do
      let (low, more) ← fourHex more
      if 0xDC00 ≤ low ∧ low ≤ 0xDFFF then
        some (some (Char.ofNat (0x10000 + (unit - 0xD800) * 0x400 + (low - 0xDC00))), more)
      else some (none, rest)
    | _ => some (none, rest)
  else some (some (Char.ofNat unit), rest)

/-- The character of an escape, behind its backslash. -/
def escaped : Reader (Option Char)
  | '"' :: rest => some (some '"', rest)
  | '\\' :: rest => some (some '\\', rest)
  | '/' :: rest => some (some '/', rest)
  | 'b' :: rest => some (some (Char.ofNat 8), rest)
  | 'f' :: rest => some (some (Char.ofNat 12), rest)
  | 'n' :: rest => some (some '\n', rest)
  | 'r' :: rest => some (some '\r', rest)
  | 't' :: rest => some (some '\t', rest)
  | 'u' :: rest => unicodeEscape rest
  | _ => none

/-- The text of a string up to its closing quote, and none for an ill-formed one; `acc` holds the
characters read, last first. -/
def stringBody : Nat → List (Option Char) → Reader (Option String)
  | 0, _, _ => none
  | _ + 1, _, [] => none
  | _ + 1, acc, '"' :: rest => some ((acc.reverse.mapM id).map String.ofList, rest)
  | fuel + 1, acc, '\\' :: rest => do
    let (c, rest) ← escaped rest
    stringBody fuel (c :: acc) rest
  | fuel + 1, acc, c :: rest =>
    if c.toNat < 0x20 then none else stringBody fuel (some c :: acc) rest

/-- The decimal digits in front. -/
def digits (cs : List Char) : List Nat × List Char :=
  ((cs.takeWhile Char.isDigit).map fun c => c.toNat - 48, cs.dropWhile Char.isDigit)

/-- The number that a list of digits writes. -/
def ofDigits (ds : List Nat) : Nat := ds.foldl (fun n d => n * 10 + d) 0

/-- The part behind a point: none when there is no point, and at least one digit else. -/
def fraction : Reader (List Nat)
  | '.' :: rest =>
    match digits rest with
    | ([], _) => none
    | (ds, rest) => some (ds, rest)
  | cs => some ([], cs)

/-- The exponent: none when there is no `e`, and a sign with at least one digit else. -/
def exponent : Reader (Option Int)
  | c :: rest =>
    if c == 'e' || c == 'E' then
      let (negative, rest) :=
        match rest with
        | '-' :: rest => (true, rest)
        | '+' :: rest => (false, rest)
        | rest => (false, rest)
      match digits rest with
      | ([], _) => none
      | (ds, rest) => some (some (if negative then -(ofDigits ds : Int) else ofDigits ds), rest)
    else some (none, c :: rest)
  | [] => some (none, [])

/-- A number behind its sign. A zero in front stands alone. -/
def number (negative : Bool) (cs : List Char) : Option (Json × List Char) := do
  let (whole, rest) := digits cs
  if whole.isEmpty ∨ (whole.head? = some 0 ∧ 1 < whole.length) then none
  else
    let (behindPoint, rest) ← fraction rest
    let (power, rest) ← exponent rest
    let n := ofDigits whole
    let isInt := behindPoint.isEmpty && power.isNone &&
      (if negative then 0 < n && n ≤ 0x8000000000000000 else n < UInt64.size)
    if isInt then some (int (if negative then -(n : Int) else n), rest)
    else some (float (Literal.toFloat ⟨negative, whole, behindPoint, power.getD 0⟩), rest)

/-- The rest behind a fixed word. -/
def word (w : List Char) (v : Json) (cs : List Char) : Option (Json × List Char) :=
  if w.isPrefixOf cs then some (v, cs.drop w.length) else none

/-- The fields of an object all of whose names are well formed. -/
def namedFields? (fields : List (Option String × Json)) : Option (List (String × Json)) :=
  fields.mapM fun (name, v) => name.map (·, v)

mutual

/-- A value; white space may stand in front of it. -/
def value : Nat → Reader Json
  | 0, _ => none
  | fuel + 1, cs =>
    match skip cs with
    | '{' :: rest =>
      match skip rest with
      | '}' :: rest => some (record [], rest)
      | rest => do
        let (fields, rest) ← members fuel rest
        some ((namedFields? fields).elim illFormed record, rest)
    | '[' :: rest =>
      match skip rest with
      | ']' :: rest => some (list [], rest)
      | rest => do
        let (items, rest) ← elements fuel rest
        some (list items, rest)
    | '"' :: rest => do
      let (s, rest) ← stringBody (rest.length + 1) [] rest
      some (s.elim illFormed text, rest)
    | '-' :: rest => number true rest
    | 't' :: rest => word ['r', 'u', 'e'] (bool true) rest
    | 'f' :: rest => word ['a', 'l', 's', 'e'] (bool false) rest
    | 'n' :: rest => word ['u', 'l', 'l'] null rest
    | rest => number false rest

/-- The items of an array, up to its closing bracket. -/
def elements : Nat → Reader (List Json)
  | 0, _ => none
  | fuel + 1, cs => do
    let (v, rest) ← value fuel cs
    match skip rest with
    | ',' :: rest => do
      let (items, rest) ← elements fuel rest
      some (v :: items, rest)
    | ']' :: rest => some ([v], rest)
    | _ => none

/-- The fields of an object, up to its closing brace. -/
def members : Nat → Reader (List (Option String × Json))
  | 0, _ => none
  | fuel + 1, cs =>
    match skip cs with
    | '"' :: rest => do
      let (name, rest) ← stringBody (rest.length + 1) [] rest
      match skip rest with
      | ':' :: rest => do
        let (v, rest) ← value fuel rest
        match skip rest with
        | ',' :: rest => do
          let (fields, rest) ← members fuel rest
          some ((name, v) :: fields, rest)
        | '}' :: rest => some ([(name, v)], rest)
        | _ => none
      | _ => none
    | _ => none

end

/-- The value that a text writes, if it is JSON and nothing else. -/
def parse? (s : String) : Option Json := do
  let cs := s.toList
  let (v, rest) ← value (cs.length + 1) cs
  if (skip rest).isEmpty then some v else none

end Staffing.Json
