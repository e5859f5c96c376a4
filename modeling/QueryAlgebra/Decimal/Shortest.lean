/-
This file finds the decimal of fewest digits that still denotes a given binary number.
-/
import QueryAlgebra.Decimal.Binary64

namespace QueryAlgebra

/-- The decimal denotes its digits times ten to the exponent. -/
structure Decimal where
  digits : Nat
  exponent : Int
deriving DecidableEq, Repr

/-- A value halfway between two decimals takes the upper one or the even one. -/
inductive Tie where
  | up
  | even
deriving DecidableEq, Repr

/-- The bounds of the numbers that round to `x`, in quarters of its last binary place. -/
def Binary64.lowerBound (x : Binary64) : Nat :=
  if fractionField x.bits = 0 ∧ 1 < exponentField x.bits then 4 * x.significand - 1
  else 4 * x.significand - 2

def Binary64.upperBound (x : Binary64) : Nat := 4 * x.significand + 2

/-- A bound itself rounds to `x` when the significand of `x` is even. -/
def Binary64.within (x : Binary64) (scale point : Nat) : Bool :=
  if x.significand % 2 = 0 then
    x.lowerBound * scale ≤ point && point ≤ x.upperBound * scale
  else x.lowerBound * scale < point && point < x.upperBound * scale

def Tie.choose (tie : Tie) (below : Nat) : Nat :=
  match tie with
  | .up => below + 1
  | .even => if below % 2 = 0 then below else below + 1

/-- The multiple of ten to the `place` nearest to `x`, if it rounds to `x`.
Values are compared as multiples of a common unit. -/
def Binary64.nearestAt (x : Binary64) (tie : Tie) (place : Int) : Option Nat :=
  let unit := Nat.pow 10 place.toNat * Nat.pow 2 (2 - x.exponent).toNat
  let scale := Nat.pow 2 (x.exponent - 2).toNat * Nat.pow 10 (-place).toNat
  let value := 4 * x.significand * scale
  let below := value / unit
  match x.within scale (below * unit), x.within scale ((below + 1) * unit) with
  | true, true =>
      if value - below * unit < (below + 1) * unit - value then some below
      else if (below + 1) * unit - value < value - below * unit then some (below + 1)
      else some (tie.choose below)
  | true, false => some below
  | false, true => some (below + 1)
  | false, false => none

/-- No multiple of ten to a greater place rounds to `x`.
The factor is the decimal logarithm of two, rounded up. -/
def Binary64.firstPlace (x : Binary64) : Int :=
  (x.significand.log2 + 1 + x.exponent) * 30103 / 100000 + 1

/-- The coarsest grid of decimals with a point that rounds to `x` gives the fewest digits.
Seventeen digits suffice, and the first of them is found at most two places down. -/
def Binary64.shortest (x : Binary64) (tie : Tie) : Decimal :=
  if x.significand = 0 then ⟨0, 0⟩
  else
    ((List.range 20).findSome? fun (step : Nat) =>
      let place := x.firstPlace - step
      (x.nearestAt tie place).map fun digits => ⟨digits, place⟩).getD ⟨0, 0⟩

end QueryAlgebra
