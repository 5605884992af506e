/-!
# White space

The characters with the Unicode property `White_Space`, and cutting them off both ends of a text.

* `Text.isBlank` — the property
* `Text.trim` — the text from its first to its last other character
-/

namespace Staffing.Text

/-- Is it white space in Unicode? -/
def isBlank (c : Char) : Bool :=
  let n := c.toNat
  (0x09 ≤ n && n ≤ 0x0D) || n == 0x20 || n == 0x85 || n == 0xA0 || n == 0x1680 ||
    (0x2000 ≤ n && n ≤ 0x200A) || n == 0x2028 || n == 0x2029 || n == 0x202F || n == 0x205F ||
    n == 0x3000

/-- The characters from the first that is not white space to the last. -/
def trimChars (cs : List Char) : List Char :=
  ((cs.dropWhile isBlank).reverse.dropWhile isBlank).reverse

/-- The text without the white space at its ends. -/
def trim (s : String) : String := String.ofList (trimChars s.toList)

end Staffing.Text
