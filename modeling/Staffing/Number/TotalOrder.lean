/-!
# The total order of floats

Floats are sorted by the total order of IEEE 754, which places every bit pattern: the negative
ones by falling magnitude, then the positive ones by rising magnitude. `-0.0` comes before `0.0`,
and not-a-number after infinity.

* `totalKey` — an integer whose order is that order
* `unitClamp`, `atMostOne` — bounds that let not-a-number through, or not
-/

namespace Staffing

/-- The place of a float in the total order: its magnitude bits, and below zero for a set sign. -/
def totalKey (x : Float) : Int :=
  let bits := x.toBits.toNat
  if bits < 0x8000000000000000 then (bits : Int) else 0x7FFFFFFFFFFFFFFF - (bits : Int)

example : totalKey (-0.0) < totalKey 0.0 := by decide +kernel
example : totalKey (-1.5) < totalKey (-0.5) := by decide +kernel

/-- `x` moved into the interval from 0 to 1; not-a-number stays. -/
def unitClamp (x : Float) : Float := if x < 0 then 0 else if x > 1 then 1 else x

/-- `x`, and 1 when it is greater or not a number. -/
def atMostOne (x : Float) : Float := if x < 1 then x else 1

end Staffing
