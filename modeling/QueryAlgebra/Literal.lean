/-
This file defines the values that an attribute can be compared with.
-/
import QueryAlgebra.Calendar
import QueryAlgebra.Document.Text
import QueryAlgebra.Uuid

namespace QueryAlgebra

/-- A decimal keeps the text it was given. -/
inductive Literal where
  | null
  | bool (value : Bool)
  | int (value : Int)
  | float (value : Binary64)
  | infinity (negative : Bool)
  | string (value : String)
  | decimal (text : String)
  | date (value : Date)
  | time (value : TimeOfDay)
  | datetime (day : Date) (clock : TimeOfDay)
  | uuid (value : Uuid)
  | list (items : List Literal)
  | document (value : Document)
deriving Repr

/-- An infinity has no SQL spelling. -/
def Literal.isNull : Literal → Bool
  | .null | .infinity _ => true
  | _ => false

/-- A number is written without an exponent and whole numbers without a fraction. -/
def literalLayout : NumberLayout where
  tie := .up
  positional := fun _ => true
  wholeFraction := false

def Literal.text : Literal → String
  | .null | .infinity _ => "NULL"
  | .bool true => "TRUE"
  | .bool false => "FALSE"
  | .int value => toString value
  | .float value => literalLayout.text value
  | .string value | .decimal value => value
  | .date value => value.text
  | .time value => value.text
  | .datetime day clock => day.text ++ " " ++ clock.text
  | .uuid value => value.text
  | .list items => "[" ++ ", ".intercalate (itemTexts items) ++ "]"
  | .document value => value.text
where
  itemTexts : List Literal → List String
    | [] => []
    | item :: rest => item.text :: itemTexts rest

/-- A control character is shown by a short form or by its code in braces. -/
def escapeShown (c : Char) : List Char :=
  match c with
  | '"' => ['\\', '"']
  | '\\' => ['\\', '\\']
  | '\n' => ['\\', 'n']
  | '\r' => ['\\', 'r']
  | '\t' => ['\\', 't']
  | '\x00' => ['\\', '0']
  | _ =>
      if c.toNat < 32 ∨ c.toNat = 127 then
        "\\u\x7b".toList ++ Nat.toDigits 16 c.toNat ++ [Char.ofNat 0x7d]
      else [c]

def shownString (text : String) : String :=
  "\"" ++ String.ofList (text.toList.flatMap escapeShown) ++ "\""

/-- The kind of a value stands before its text. -/
def Literal.shown : Literal → String
  | .null => "Null"
  | .string value => "String(" ++ shownString value ++ ")"
  | literal => kind literal ++ "(" ++ literal.text ++ ")"
where
  kind : Literal → String
    | .null => "Null"
    | .bool _ => "Bool"
    | .int _ => "Int"
    | .float _ | .infinity _ => "Float"
    | .string _ => "String"
    | .decimal _ => "Decimal"
    | .date _ => "Date"
    | .time _ => "Time"
    | .datetime _ _ => "DateTime"
    | .uuid _ => "Uuid"
    | .list _ => "List"
    | .document _ => "Json"

/-- The integer is rounded to 53 binary digits, a half to the even neighbour. -/
def Binary64.ofNat? (n : Nat) : Option Binary64 :=
  if n = 0 then Binary64.ofBits? 0
  else
    let size := n.log2
    let unit := Nat.pow 2 (size - 52)
    let kept := n * Nat.pow 2 (52 - size) / unit
    let lost := n % unit
    let rounded :=
      if unit < 2 * lost ∨ (unit = 2 * lost ∧ kept % 2 = 1) then kept + 1 else kept
    Binary64.ofBits?
      (UInt64.ofNat ((size + 1023) * Nat.pow 2 52 + (rounded - Nat.pow 2 52)))

/-- Integers beyond 64 signed bits become floating-point numbers. -/
def Literal.ofInt (n : Int) : Literal :=
  if -Nat.pow 2 63 ≤ n ∧ n < Nat.pow 2 63 then .int n
  else (Binary64.ofNat? n.natAbs).elim .null .float

/-- Bits that denote no finite number become null. -/
def Literal.ofBits (bits : UInt64) : Literal := (Binary64.ofBits? bits).elim .null .float

/-- An array becomes a list and an object stays a document. -/
def Literal.ofDocument : Document → Literal
  | .null => .null
  | .bool value => .bool value
  | .int value => .ofInt value
  | .float value => .float value
  | .string value => .string value
  | .array items => .list (ofItems items)
  | .object members => .document (.object members)
where
  ofItems : List Document → List Literal
    | [] => []
    | item :: rest => Literal.ofDocument item :: ofItems rest

/-- Values of different kinds differ, and the two zeros are one value. -/
def Literal.same : Literal → Literal → Bool
  | .null, .null => true
  | .bool first, .bool second => first == second
  | .int first, .int second => first == second
  | .float first, .float second => first == second
  | .infinity first, .infinity second => first == second
  | .string first, .string second => first == second
  | .decimal first, .decimal second => first == second
  | .date first, .date second => first == second
  | .time first, .time second => first == second
  | .datetime day clock, .datetime otherDay otherClock => day == otherDay && clock == otherClock
  | .uuid first, .uuid second => first == second
  | .list first, .list second => sameItems first second
  | .document first, .document second => first == second
  | _, _ => false
where
  sameItems : List Literal → List Literal → Bool
    | [], [] => true
    | first :: rest, second :: others => first.same second && sameItems rest others
    | _, _ => false

instance : BEq Literal := ⟨Literal.same⟩

end QueryAlgebra
