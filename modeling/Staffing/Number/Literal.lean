/-!
# Reading decimal literals

A decimal literal is read by collecting its digits into a whole number of 64 bits and scaling that
by a power of ten in one float operation. A digit that no longer fits is dropped; before the point
it still counts for the scale. The result is exact rounding for literals of up to 15 digits, and
at most a unit away for longer ones.

* `Literal.significand` — the digits that fit
* `Literal.scale` — the significand times a power of ten, infinite when that is too large
* `Literal.toFloat` — the value of a literal
-/

namespace Staffing

/-- The parts of a decimal literal: `-whole.fraction e exponent`. -/
structure Literal where
  negative : Bool
  whole : List Nat
  fraction : List Nat
  exponent : Int
  deriving Repr

namespace Literal

/-- Appends digits to `n` while the result fits into 64 bits, and returns those left over. -/
def significand (n : Nat) : List Nat → Nat × List Nat
  | [] => (n, [])
  | d :: rest => if n * 10 + d < UInt64.size then significand (n * 10 + d) rest else (n, d :: rest)

/-- `x * 10 ^ e`. Below the range of powers that a float holds, it is divided by the least such
power first; two such steps bring every significand to zero. -/
def scale : Nat → Float → Int → Float
  | 0, x, _ => x
  | steps + 1, x, e =>
    if e.natAbs ≤ 308 then
      let power := Float.ofScientific 1 false e.natAbs
      if 0 ≤ e then x * power else x / power
    else if x == 0 then x
    else if 0 ≤ e then 1 / 0
    else scale steps (x / 1e308) (e + 308)

/-- The value of a literal, infinite when it is too large. -/
def toFloat (l : Literal) : Float :=
  let (n, wholeRest) := significand 0 l.whole
  let (m, fractionRest) := significand n l.fraction
  let e : Int := l.exponent + wholeRest.length - (l.fraction.length - fractionRest.length : Nat)
  let magnitude := scale 4 (Float.ofNat m) e
  if l.negative then -magnitude else magnitude

end Literal

end Staffing
