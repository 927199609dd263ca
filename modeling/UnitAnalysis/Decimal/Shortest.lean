/-!
# The shortest decimal of a double

A finite positive double is `m · 2 ^ q`. The reals that round to it form an interval, whose ends
belong to it exactly when `m` is even. Of the decimals in that interval, `Decimal.shortest` takes
one with the fewest digits, and of two such neighbours the nearer one. Everything is exact
arithmetic on natural numbers: the value and both ends are kept over one common denominator.
-/

set_option autoImplicit false

namespace UnitAnalysis

/-- The positive decimal `digits · 10 ^ power`. -/
structure Decimal where
  /-- The digits as a whole number. -/
  digits : Nat
  /-- The power of ten. -/
  power : Int
  deriving DecidableEq, Repr, Inhabited

namespace Decimal

/-- A finite positive double with the interval of reals that round to it, over one denominator. -/
structure Rounding where
  /-- The lower end. -/
  low : Nat
  /-- The double itself. -/
  mid : Nat
  /-- The upper end. -/
  high : Nat
  /-- The common denominator. -/
  den : Nat
  /-- Whether the ends round to the double too. -/
  isClosed : Bool

/-- The number of bits of a fraction. -/
def fractionBits : Nat := 52

/-- The double with the given biased exponent and fraction. The gap below a power of two is half of
the gap above it, unless the next lower double is subnormal. -/
def rounding (exponent fraction : Nat) : Rounding :=
  let m := if exponent = 0 then fraction else fraction + Nat.pow 2 fractionBits
  let q : Int := (max exponent 1 : Nat) - 1075
  let below := if fraction = 0 ∧ 1 < exponent then 1 else 2
  let unit := Nat.pow 2 (q - 2).toNat
  { low := (4 * m - below) * unit, mid := 4 * m * unit, high := (4 * m + 2) * unit,
    den := Nat.pow 2 (2 - q).toNat, isClosed := m % 2 = 0 }

/-- Whether `d · 10 ^ power` rounds to the double. -/
def Rounding.holds (r : Rounding) (d : Nat) (power : Int) : Bool :=
  let x := d * r.den * Nat.pow 10 power.toNat
  let unit := Nat.pow 10 (-power).toNat
  if r.isClosed then decide (r.low * unit ≤ x ∧ x ≤ r.high * unit)
  else decide (r.low * unit < x ∧ x < r.high * unit)

/-- The decimal of the grid with step `10 ^ power` that stands for the double, if its two neighbours
on that grid include one. -/
def Rounding.onGrid (r : Rounding) (power : Int) : Option Nat :=
  let num := r.mid * Nat.pow 10 (-power).toNat
  let den := r.den * Nat.pow 10 power.toNat
  let d := num / den
  match r.holds d power, r.holds (d + 1) power with
  | true, true => if 2 * (num % den) ≤ den then some d else some (d + 1)
  | true, false => some d
  | false, true => some (d + 1)
  | false, false => none

/-- The least power of ten above the double, counted from `power` up. -/
def Rounding.topPower (r : Rounding) (power : Int) : (fuel : Nat) → Int
  | 0 => power
  | fuel + 1 =>
    if r.mid * Nat.pow 10 (-power).toNat < r.den * Nat.pow 10 power.toNat then power
    else r.topPower (power + 1) fuel

/-- The first grid from `power` down that holds a decimal for the double. -/
def Rounding.search (r : Rounding) (power : Int) : (fuel : Nat) → Decimal
  | 0 => ⟨0, 0⟩
  | fuel + 1 =>
    match r.onGrid power with
    | some d => if d = 0 then r.search (power - 1) fuel else ⟨d, power⟩
    | none => r.search (power - 1) fuel

/-- Moves the zeros at the end of the digits into the power. -/
def dropZeros (d : Decimal) : (fuel : Nat) → Decimal
  | 0 => d
  | fuel + 1 =>
    if d.digits % 10 = 0 ∧ d.digits ≠ 0 then dropZeros ⟨d.digits / 10, d.power + 1⟩ fuel else d

/-- A shortest decimal that reads back as the double with the given biased exponent and fraction.
Seventeen digits always do. -/
def shortest (exponent fraction : Nat) : Decimal :=
  let r := rounding exponent fraction
  dropZeros (r.search (r.topPower (-330) 700 - 1) 18) 18

end Decimal

end UnitAnalysis
