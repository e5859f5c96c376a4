/-
This file compares an attribute, or a place inside a JSON document, with a value.
-/
import QueryAlgebra.Heading
import QueryAlgebra.Literal

namespace QueryAlgebra

/-- The left side of a comparison. -/
inductive Operand where
  | column (name : String)
  | path (name place : String)
deriving DecidableEq, Repr

def Operand.text : Operand → String
  | .column name => quoteName name
  | .path name place =>
      "JSON_VALUE(" ++ quoteName name ++ ", '$." ++ escapeWith escapePath place ++ "')"

/-- The right side of a comparison. -/
inductive Comparand where
  | absent
  | bare (text : String)
  | bytes (uuid : Uuid)
  | doubleQuoted (text : String)
  | singleQuoted (text : String)
deriving DecidableEq, Repr

def Comparand.text : Comparand → String
  | .absent => " IS NULL"
  | .bare text => "=" ++ text
  | .bytes uuid => "=X'" ++ uuid.hexText ++ "'"
  | .doubleQuoted text => "=" ++ quoteDouble text
  | .singleQuoted text => "=" ++ quoteSingle text

structure Comparison where
  operand : Operand
  comparand : Comparand
deriving DecidableEq, Repr

def Comparison.text (comparison : Comparison) : String :=
  comparison.operand.text ++ comparison.comparand.text

/-- The first dot of a key separates the attribute from a document path. -/
def splitPath (key : String) : String × Option String :=
  let name := String.ofList (key.toList.takeWhile (· != '.'))
  match key.toList.dropWhile (· != '.') with
  | [] => (name, none)
  | _ :: path => (name, some (String.ofList path))

/-- Only a JSON attribute has places inside it. -/
def Attribute.operand? (attr : Attribute) : Option String → Except Fault Operand
  | none => .ok (.column attr.name)
  | some path =>
      if attr.domain = .json then .ok (.path attr.name path)
      else .error (.restriction (.notDocument attr.name))

/-- A UUID attribute holds bytes, so every spelling of a UUID becomes one literal.
The reader decides what is a spelling. -/
def Attribute.uuidComparand? (attr : Attribute) (value : Literal)
    (read : UuidReader := Uuid.ofTextInAnyCase?) : Except Fault Comparand :=
  match value with
  | .uuid uuid => .ok (.bytes uuid)
  | .string text =>
      match read (trimBlanks text.toList) with
      | some uuid => .ok (.bytes uuid)
      | none => .error (.uuid attr.name text)
  | other => .error (.uuid attr.name other.text)

/-- Numbers and truth values are written bare and all other values between quotes. -/
def Literal.comparand (value : Literal) : Comparand :=
  match value with
  | .bool _ | .int _ | .float _ => .bare value.text
  | .null | .infinity _ => .absent
  | _ => .doubleQuoted value.text

def Literal.isObject : Literal → Bool
  | .document value => value.isObject
  | _ => false

/-- An object is compared with the text of the place that a path leads to. -/
def Attribute.comparand? (attr : Attribute) (path : Option String) (value : Literal)
    (read : UuidReader := Uuid.ofTextInAnyCase?) : Except Fault Comparand :=
  if path.isSome && value.isObject then .ok (.singleQuoted value.text)
  else if value.isNull then .ok .absent
  else if attr.domain = .uuid then attr.uuidComparand? value read
  else .ok value.comparand

def Heading.compare? (heading : Heading) (key : String) (value : Literal)
    (read : UuidReader := Uuid.ofTextInAnyCase?) : Except Fault Comparison :=
  match heading.get? (splitPath key).1 with
  | none => .error (.unknownAttribute (splitPath key).1)
  | some attr => do
      let operand ← attr.operand? (splitPath key).2
      let comparand ← attr.comparand? (splitPath key).2 value read
      return ⟨operand, comparand⟩

end QueryAlgebra
