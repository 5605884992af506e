/-!
# Whole numbers with the precision of a float

A float keeps the 53 highest bits of a whole number. What lies below them is rounded to the
nearest, and a tie goes to the even neighbour.

* `roundTo` — the nearest multiple of a unit
* `significant` — the nearest whole number of 53 significant bits
* `significantSum` — the sum of two whole numbers, when both and the sum are kept as floats
-/

namespace Staffing

/-- The multiple of `unit` that is nearest to `n`; a tie goes to the even multiple. -/
def roundTo (unit n : Nat) : Nat :=
  let below := n / unit
  let rest := n % unit
  unit * (if 2 * rest < unit ∨ (2 * rest = unit ∧ below % 2 = 0) then below else below + 1)

/-- The number of 53 significant bits that is nearest to `n`. -/
def significant (n : Nat) : Nat := roundTo (Nat.pow 2 (n.log2 - 52)) n

/-- An integer whose magnitude is rounded to 53 significant bits. -/
def significantInt (n : Int) : Int := n.sign * significant n.natAbs

/-- The sum of two integers that are kept as floats, kept as a float. -/
def significantSum (a b : Int) : Int := significantInt (significantInt a + significantInt b)

example : significant 0x7FFFFFFFFFFFFFFF = 0x8000000000000000 := by decide +kernel
example : significant 0x20000000000001 = 0x20000000000000 := by decide +kernel
example : significant 0x20000000000003 = 0x20000000000004 := by decide +kernel

end Staffing
