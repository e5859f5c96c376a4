/-
This file defines the finite binary floating-point numbers of 64 bits.
-/
namespace QueryAlgebra

def exponentField (bits : UInt64) : Nat := bits.toNat / Nat.pow 2 52 % Nat.pow 2 11

def fractionField (bits : UInt64) : Nat := bits.toNat % Nat.pow 2 52

/-- The infinities and the patterns that are no number have the greatest exponent field. -/
structure Binary64 where
  bits : UInt64
  finite : exponentField bits ≠ 2047
deriving DecidableEq, Repr

def Binary64.ofBits? (bits : UInt64) : Option Binary64 :=
  if finite : exponentField bits ≠ 2047 then some ⟨bits, finite⟩ else none

def Binary64.negative (x : Binary64) : Bool := x.bits.toNat / Nat.pow 2 63 == 1

/-- The absolute value is the significand times two to the exponent. -/
def Binary64.significand (x : Binary64) : Nat :=
  if exponentField x.bits = 0 then fractionField x.bits
  else fractionField x.bits + Nat.pow 2 52

def Binary64.exponent (x : Binary64) : Int :=
  if exponentField x.bits = 0 then -1074 else exponentField x.bits - 1075

/-- The two zeros are one value. -/
instance : BEq Binary64 :=
  ⟨fun x y => x.bits == y.bits || (x.significand == 0 && y.significand == 0)⟩

end QueryAlgebra
