/-
This file writes binary numbers as decimal text.
-/
import QueryAlgebra.Decimal.Shortest

namespace QueryAlgebra

/-- A layout fixes what a format decides about the text of a number. -/
structure NumberLayout where
  tie : Tie
  /-- Decimal exponents of the first digit that are written without an exponent part. -/
  positional : Int → Bool
  /-- Whole numbers end in a fraction of one zero. -/
  wholeFraction : Bool

def zeros (count : Nat) : String := String.ofList (List.replicate count '0')

/-- The digits have `point` places before the decimal point. -/
def NumberLayout.positionalText (layout : NumberLayout) (digits : List Char) (point : Int) :
    String :=
  if digits.length ≤ point then
    String.ofList digits ++ zeros (point - digits.length).toNat ++
      (if layout.wholeFraction then ".0" else "")
  else if 0 < point then
    String.ofList (digits.take point.toNat) ++ "." ++ String.ofList (digits.drop point.toNat)
  else "0." ++ zeros (-point).toNat ++ String.ofList digits

/-- The sign of the exponent is always written. -/
def scientificText (digits : List Char) (exponent : Int) : String :=
  String.ofList (digits.take 1) ++
    (if digits.length ≤ 1 then "" else "." ++ String.ofList (digits.drop 1)) ++
    (if exponent < 0 then "e-" else "e+") ++ toString exponent.natAbs

/-- A negative zero keeps its sign. -/
def NumberLayout.text (layout : NumberLayout) (x : Binary64) : String :=
  let decimal := x.shortest layout.tie
  let digits := Nat.toDigits 10 decimal.digits
  let point := decimal.exponent + digits.length
  (if x.negative then "-" else "") ++
    if layout.positional (point - 1) then layout.positionalText digits point
    else scientificText digits (point - 1)

end QueryAlgebra
