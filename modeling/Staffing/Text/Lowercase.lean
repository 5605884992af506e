import Staffing.Text.Blank
import Staffing.Text.CaseTable

/-!
# Lower-casing

Full Unicode lower-casing of a text, and the weaker ASCII kind.

* `Text.lower` — every letter by its own lower-case form; `İ` becomes two characters; `Σ` becomes
  `ς` at the end of a word and `σ` elsewhere
* `Text.asciiLower` — the letters `A` to `Z` only
* `Text.contains` — one text somewhere inside another
-/

namespace Staffing.Text

/-- The lower-case form of a character, the end of a word apart. -/
def lowerChar (c : Char) : List Char :=
  if c.toNat < 0x80 then [c.toLower]
  else if c.toNat = 0x130 then ['i', Char.ofNat 0x307]
  else
    match lowercaseRuns.find? (·.holds c.toNat) with
    | some run => [Char.ofNat (c.toNat + run.shift).toNat]
    | none => [c]

/-- Does one of the ranges hold the character? -/
def inRanges (ranges : List (Nat × Nat)) (c : Char) : Bool :=
  ranges.any fun r => r.1 ≤ c.toNat && c.toNat ≤ r.2

/-- Is there a letter with case, before anything else but ignorable signs? -/
def startsCased (cs : List Char) : Bool :=
  match cs.dropWhile (inRanges caseIgnorableRanges) with
  | [] => false
  | c :: _ => inRanges casedRanges c

/-- Lower-cases `cs`, where `before` stands in front of it, the nearest character first. -/
def lowerFrom (before : List Char) : List Char → List Char
  | [] => []
  | c :: rest =>
    let here :=
      if c = 'Σ' then
        if startsCased before && !startsCased rest then ['ς'] else ['σ']
      else lowerChar c
    here ++ lowerFrom (c :: before) rest

/-- The text in lower case. -/
def lower (s : String) : String := String.ofList (lowerFrom [] s.toList)

/-- The text with `A` to `Z` in lower case. -/
def asciiLower (s : String) : String := String.ofList (s.toList.map Char.toLower)

/-- Does `needle` stand somewhere in `hay`? -/
def containsChars (needle : List Char) : List Char → Bool
  | [] => needle.isEmpty
  | c :: rest => needle.isPrefixOf (c :: rest) || containsChars needle rest

/-- Does `needle` stand somewhere in `hay`? -/
def contains (hay needle : String) : Bool := containsChars needle.toList hay.toList

/-- It does so if it is what lies between a beginning and an end of `hay`. -/
theorem containsChars_iff {needle hay : List Char} :
    containsChars needle hay = true ↔ needle <:+: hay := by
  induction hay with
  | nil => simp [containsChars]
  | cons c rest ih =>
    simp [containsChars, ih, List.infix_cons_iff]

end Staffing.Text
