/-
This file writes UUIDs and reads their four spellings. Readers differ in the case that they allow
the scheme of a URN, so a comparison is told which reader to use.
-/
namespace QueryAlgebra

structure Uuid where
  value : BitVec 128
deriving DecidableEq, Repr

/-- The value has 32 lower-case hexadecimal digits, the most significant first. -/
def Uuid.hexDigits (uuid : Uuid) : List Char :=
  (List.range 32).map fun index =>
    Nat.digitChar (uuid.value.toNat / Nat.pow 16 (31 - index) % 16)

def Uuid.hexText (uuid : Uuid) : String := String.ofList uuid.hexDigits

/-- The digits stand in groups of eight, four, four, four and twelve. -/
def hyphenated (digits : List Char) : List Char :=
  digits.take 8 ++ '-' :: (digits.drop 8).take 4 ++ '-' :: (digits.drop 12).take 4 ++
    '-' :: (digits.drop 16).take 4 ++ '-' :: digits.drop 20

def Uuid.text (uuid : Uuid) : String := String.ofList (hyphenated uuid.hexDigits)

/-- Hexadecimal digits are read in either case. -/
def hexValue? (c : Char) : Option Nat :=
  if '0' ≤ c ∧ c ≤ '9' then some (c.toNat - '0'.toNat)
  else if 'a' ≤ c ∧ c ≤ 'f' then some (c.toNat - 'a'.toNat + 10)
  else if 'A' ≤ c ∧ c ≤ 'F' then some (c.toNat - 'A'.toNat + 10)
  else none

def Uuid.ofSimple? (text : List Char) : Option Uuid :=
  if text.length = 32 then do
    let digits ← text.mapM hexValue?
    return ⟨BitVec.ofNat 128 (digits.foldl (fun value digit => 16 * value + digit) 0)⟩
  else none

/-- The four hyphens are skipped where the groups end. -/
def Uuid.ofHyphenated? (text : List Char) : Option Uuid :=
  let digits := text.take 8 ++ (text.drop 9).take 4 ++ (text.drop 14).take 4 ++
    (text.drop 19).take 4 ++ text.drop 24
  if text = hyphenated digits then Uuid.ofSimple? digits else none

/-- A reader tells the UUID that a text spells, if it takes the text for a spelling. -/
abbrev UuidReader := List Char → Option Uuid

/-- The spellings are told apart by their length. The scheme of a URN has small letters. -/
def Uuid.ofText? : UuidReader := fun text =>
  if text.length = 32 then Uuid.ofSimple? text
  else if text.length = 36 then Uuid.ofHyphenated? text
  else if text.length = 38 ∧ text.head? = some (Char.ofNat 0x7b) ∧
      text.getLast? = some (Char.ofNat 0x7d) then
    Uuid.ofHyphenated? text.tail.dropLast
  else if text.length = 45 ∧ text.take 9 = "urn:uuid:".toList then
    Uuid.ofHyphenated? (text.drop 9)
  else none

/-- This reader takes the scheme of a URN in either case too. -/
def Uuid.ofTextInAnyCase? : UuidReader := fun text => Uuid.ofText? (text.map Char.toLower)

end QueryAlgebra
