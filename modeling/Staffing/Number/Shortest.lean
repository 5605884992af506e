/-!
# Shortest decimals

The decimal with the fewest digits that reads back as a given float, and of those the nearest. Two
of them can be equally near: the format that is written decides which one it takes.

A positive finite float is `m * 2 ^ q`. The reals that round to it reach half a unit of `m` up,
and half a unit down, or a quarter when `m` is the least of its binade; the ends belong to them
when `m` is even. On the grid of decimals with a given number of digits the two neighbours of the
float are tested: if a point of the grid reads back, so does one of those two.

* `Decimal.shortest` — that decimal, in exact integer arithmetic
* `Decimal.plainText` — without an exponent, however large or small; a tie goes up
* `Decimal.jsonText` — with an exponent outside `1e-5` to `1e16`; a tie goes to the even digit
-/

namespace Staffing

/-- `digits * 10 ^ exponent`. -/
structure Decimal where
  digits : Nat
  exponent : Int
  deriving DecidableEq, Repr

namespace Decimal

/-- A fraction of natural numbers. -/
structure Ratio where
  num : Nat
  den : Nat

/-- `n * base ^ e` as a fraction. -/
def Ratio.scaled (n base : Nat) (e : Int) : Ratio :=
  if 0 ≤ e then ⟨n * Nat.pow base e.toNat, 1⟩ else ⟨n, Nat.pow base (-e).toNat⟩

/-- The order of fractions. -/
def Ratio.le (a b : Ratio) : Bool := a.num * b.den ≤ b.num * a.den

/-- The strict order of fractions. -/
def Ratio.lt (a b : Ratio) : Bool := a.num * b.den < b.num * a.den

/-- The greatest `p` with `10 ^ p ≤ r`, for a positive fraction. -/
def Ratio.magnitude (r : Ratio) : Int :=
  if r.den ≤ r.num then ((toString (r.num / r.den)).length : Int) - 1
  else
    let l := (toString (r.den / r.num)).length
    if r.den ≤ r.num * Nat.pow 10 (l - 1) then -((l : Int) - 1) else -(l : Int)

/-- The least significand with all 53 bits. -/
def fullSignificand : Nat := 0x10000000000000

/-- The bits of a positive finite float as a whole number, times a power of two. -/
def parts (x : Float) : Nat × Int :=
  let bits := x.toBits.toNat
  let biased : Nat := bits / fullSignificand % 0x800
  let fraction : Nat := bits % fullSignificand
  if biased = 0 then (fraction, -1074) else (fraction + fullSignificand, (biased : Int) - 1075)

/-- The reals that round to a float, and whether the ends are among them. -/
structure Rounding where
  low : Ratio
  high : Ratio
  closed : Bool

/-- Does the fraction round to the float? -/
def Rounding.holds (i : Rounding) (r : Ratio) : Bool :=
  if i.closed then i.low.le r && r.le i.high else i.low.lt r && r.lt i.high

/-- The reals that round to `m * 2 ^ q`, in quarters of a unit. -/
def rounding (m : Nat) (q : Int) : Rounding where
  low := Ratio.scaled (4 * m - (if m = fullSignificand ∧ -1074 < q then 1 else 2)) 2 (q - 2)
  high := Ratio.scaled (4 * m + 2) 2 (q - 2)
  closed := m % 2 = 0

/-- Which of two equally near decimals is taken. -/
inductive Tie where
  | toEven
  | up
  deriving DecidableEq, Repr

/-- Does a tie between `below` and its successor go to the successor? -/
def Tie.takesNext (t : Tie) (below : Nat) : Bool :=
  match t with
  | toEven => below % 2 == 1
  | up => true

/-- The decimal on the grid `10 ^ e` that is nearest to `r` and rounds to the float. -/
def onGrid (t : Tie) (i : Rounding) (r : Ratio) (e : Int) : Option Decimal :=
  let unit := Ratio.scaled 1 10 e
  let below := r.num * unit.den / (r.den * unit.num)
  let at_ (n : Nat) : Ratio := ⟨n * unit.num, unit.den⟩
  let lowFits := i.holds (at_ below)
  let highFits := i.holds (at_ (below + 1))
  let twice : Ratio := ⟨2 * r.num, r.den⟩
  let middle := at_ (2 * below + 1)
  let preferHigh := middle.lt twice || (middle.le twice && t.takesNext below)
  match lowFits, highFits with
  | true, true => some ⟨if preferHigh then below + 1 else below, e⟩
  | true, false => some ⟨below, e⟩
  | false, true => some ⟨below + 1, e⟩
  | false, false => none

/-- Moves the zeros at the end of the digits into the exponent. -/
def trimZeros : Nat → Decimal → Decimal
  | 0, d => d
  | n + 1, d =>
    if d.digits ≠ 0 ∧ d.digits % 10 = 0 then trimZeros n ⟨d.digits / 10, d.exponent + 1⟩ else d

/-- The shortest decimal that reads back as the positive finite float `x`. -/
def shortest (t : Tie) (x : Float) : Decimal :=
  let (m, q) := parts x
  if m = 0 then ⟨0, 0⟩
  else
    let r := Ratio.scaled m 2 q
    let i := rounding m q
    let top := r.magnitude
    match (List.range 17).findSome? fun n : Nat => onGrid t i r (top - n) with
    | some d => trimZeros 20 d
    | none => ⟨m, 0⟩

/-! ## Text -/

/-- A run of zeros. -/
def zeros (n : Nat) : String := String.ofList (List.replicate n '0')

/-- The digits with a point `places` from the right. -/
def pointed (digits : String) (places : Nat) : String :=
  if digits.length ≤ places then "0." ++ zeros (places - digits.length) ++ digits
  else
    let whole := digits.length - places
    String.ofList (digits.toList.take whole) ++ "." ++ String.ofList (digits.toList.drop whole)

/-- The decimal without an exponent and without needless zeros. -/
def positional (d : Decimal) : String :=
  if 0 ≤ d.exponent then toString d.digits ++ (if d.digits = 0 then "" else zeros d.exponent.toNat)
  else pointed (toString d.digits) (-d.exponent).toNat

/-- Is the float below zero, or minus zero? -/
def isNegative (x : Float) : Bool := 0x8000000000000000 ≤ x.toBits.toNat

/-- A float without an exponent: `-1.5`, `-0`, `inf`, `NaN`. -/
def plainText (x : Float) : String :=
  if x.isNaN then "NaN"
  else
    let magnitude := if x.isInf then "inf" else positional (shortest .up x.abs)
    if isNegative x then "-" ++ magnitude else magnitude

/-- A float as JSON writes it: always with a point or an exponent, and `null` when it is not
finite. -/
def jsonText (x : Float) : String :=
  if x.isNaN || x.isInf then "null"
  else
    let d := shortest .toEven x.abs
    let digits := toString d.digits
    let point : Int := digits.length + d.exponent
    let magnitude :=
      if d.digits = 0 then "0.0"
      else if 0 ≤ d.exponent ∧ point ≤ 16 then positional d ++ ".0"
      else if -5 < point ∧ point ≤ 16 then positional d
      else
        let mantissa := if digits.length = 1 then digits else pointed digits (digits.length - 1)
        mantissa ++ "e" ++ toString (point - 1)
    if isNegative x then "-" ++ magnitude else magnitude

end Decimal

end Staffing
