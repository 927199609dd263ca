import UnitAnalysis.Json.Basic

/-!
# The value of a written number

A number without fraction and exponent is whole when it lies between the least signed and the
greatest unsigned 64-bit number; `-0` is not whole, since a whole number has no negative zero. Every
other number is a double. It is found from the leading digits that fit into 64 bits, taken as a
whole number and scaled once by a power of ten; a double that would be infinite is refused.
-/

set_option autoImplicit false

namespace UnitAnalysis.Json

/-- A number as it is written: its sign, its digits before and after the point, and its exponent. -/
structure Numeral where
  /-- Whether a minus sign stands before it. -/
  isNegative : Bool
  /-- The digits before the point. -/
  whole : List Nat
  /-- The digits after the point, when there is one. -/
  fraction : Option (List Nat)
  /-- The exponent, when there is one. -/
  exponent : Option Int
  deriving Repr

namespace Numeral

/-- The greatest number of 64 bits. -/
def maxWord : Nat := Nat.pow 2 64 - 1

/-- The leading digits of a number, read as far as they fit into 64 bits. -/
structure Leading where
  /-- The digits as a whole number. -/
  significand : Nat := 0
  /-- The power of ten by which the significand is to be scaled. -/
  scale : Int := 0
  /-- Whether a digit did not fit. -/
  isFull : Bool := false
  deriving Repr

/-- Takes one more digit before the point. One that does not fit only raises the scale. -/
def Leading.pushWhole (l : Leading) (d : Nat) : Leading :=
  if l.isFull || decide (maxWord < l.significand * 10 + d) then
    { l with scale := l.scale + 1, isFull := true }
  else { l with significand := l.significand * 10 + d }

/-- Takes one more digit after the point. One that does not fit is dropped with all after it. -/
def Leading.pushFraction (l : Leading) (d : Nat) : Leading :=
  if l.isFull || decide (maxWord < l.significand * 10 + d) then { l with isFull := true }
  else { l with significand := l.significand * 10 + d, scale := l.scale - 1 }

/-- The leading digits of a number; a point gives the digits after it another chance to fit. -/
def leading (n : Numeral) : Leading :=
  let whole := n.whole.foldl Leading.pushWhole {}
  (n.fraction.getD []).foldl Leading.pushFraction { whole with isFull := false }

/-- The greatest power of ten that a double can hold. -/
def maxPower : Nat := 308

/-- Scales a double by a power of ten. A power that no double holds is applied in parts of
`maxPower`; after `parts` of them nothing is left of any 64-bit number. -/
def scaled (x : Float) (power : Int) : (parts : Nat) → Option Float
  | 0 => some (x * 0)
  | parts + 1 =>
    if power.natAbs ≤ maxPower then
      let unit := Float.ofScientific 1 false power.natAbs
      if power < 0 then some (x / unit)
      else if (x * unit).isInf then none else some (x * unit)
    else if x == 0 then some x
    else if 0 ≤ power then none
    else scaled (x / Float.ofScientific 1 false maxPower) (power + maxPower) parts

/-- The magnitude of a number as a double; there is none when it would be infinite. -/
def magnitude (n : Numeral) : Option Float :=
  let l := n.leading
  scaled l.significand.toUInt64.toFloat (l.scale + n.exponent.getD 0) 4

/-- The value of a number. -/
def value (n : Numeral) : Json :=
  let l := n.leading
  let asFloat := match n.magnitude with
    | some x => Json.float (if n.isNegative then -x else x)
    | none => Json.unreadable
  if n.fraction.isSome || n.exponent.isSome || l.scale != 0 then asFloat
  else if !n.isNegative then .int l.significand
  else if l.significand = 0 ∨ Nat.pow 2 63 < l.significand then asFloat
  else .int (-l.significand)

end Numeral

end UnitAnalysis.Json
