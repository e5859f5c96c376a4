/-
This file defines JSON documents and their equality.
-/
import QueryAlgebra.Decimal.Binary64

namespace QueryAlgebra

/-- The members of an object are sorted by name and every name occurs once. -/
inductive Document where
  | null
  | bool (value : Bool)
  | int (value : Int)
  | float (value : Binary64)
  | string (value : String)
  | array (items : List Document)
  | object (members : List (String × Document))
deriving Repr

def Document.isObject : Document → Bool
  | .object _ => true
  | _ => false

/-- A member replaces an earlier one of the same name. -/
def insertMember (name : String) (value : Document) :
    List (String × Document) → List (String × Document)
  | [] => [(name, value)]
  | member :: rest =>
      if name < member.1 then (name, value) :: member :: rest
      else if name = member.1 then (name, value) :: rest
      else member :: insertMember name value rest

def Document.ofMembers (members : List (String × Document)) : Document :=
  .object (members.foldl (fun sorted member => insertMember member.1 member.2 sorted) [])

/-- An integer never equals a floating-point number. -/
def Document.same : Document → Document → Bool
  | .null, .null => true
  | .bool first, .bool second => first == second
  | .int first, .int second => first == second
  | .float first, .float second => first == second
  | .string first, .string second => first == second
  | .array first, .array second => sameItems first second
  | .object first, .object second => sameMembers first second
  | _, _ => false
where
  sameItems : List Document → List Document → Bool
    | [], [] => true
    | first :: rest, second :: others => first.same second && sameItems rest others
    | _, _ => false
  sameMembers : List (String × Document) → List (String × Document) → Bool
    | [], [] => true
    | first :: rest, second :: others =>
        first.1 == second.1 && first.2.same second.2 && sameMembers rest others
    | _, _ => false

instance : BEq Document := ⟨Document.same⟩

end QueryAlgebra
