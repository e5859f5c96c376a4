/-
This file writes JSON documents as compact text.
-/
import QueryAlgebra.Decimal.Layout
import QueryAlgebra.Document

namespace QueryAlgebra

/-- Control characters below the blank have a short form or four hexadecimal digits. -/
def escapeJson (c : Char) : List Char :=
  match c with
  | '"' => ['\\', '"']
  | '\\' => ['\\', '\\']
  | '\x08' => ['\\', 'b']
  | '\x0c' => ['\\', 'f']
  | '\n' => ['\\', 'n']
  | '\r' => ['\\', 'r']
  | '\t' => ['\\', 't']
  | _ =>
      if c.toNat < 32 then
        ['\\', 'u', '0', '0', Nat.digitChar (c.toNat / 16), Nat.digitChar (c.toNat % 16)]
      else [c]

def jsonString (text : String) : String :=
  "\"" ++ String.ofList (text.toList.flatMap escapeJson) ++ "\""

/-- A number keeps a fraction, and an exponent is written below -5 and above 15. -/
def documentLayout : NumberLayout where
  tie := .even
  positional := fun exponent => -5 ≤ exponent && exponent ≤ 15
  wholeFraction := true

def Document.text : Document → String
  | .null => "null"
  | .bool true => "true"
  | .bool false => "false"
  | .int value => toString value
  | .float value => documentLayout.text value
  | .string value => jsonString value
  | .array items => "[" ++ ",".intercalate (itemTexts items) ++ "]"
  | .object members => "\x7b" ++ ",".intercalate (memberTexts members) ++ "\x7d"
where
  itemTexts : List Document → List String
    | [] => []
    | item :: rest => item.text :: itemTexts rest
  memberTexts : List (String × Document) → List String
    | [] => []
    | member :: rest => (jsonString member.1 ++ ":" ++ member.2.text) :: memberTexts rest

end QueryAlgebra
