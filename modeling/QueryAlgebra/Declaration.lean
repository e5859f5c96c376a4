/-
This file declares base tables and follows their foreign keys.
-/
import QueryAlgebra.Heading

namespace QueryAlgebra

/-- A reference brings the key of another table, with pairs of new and old names.
It holds the heading of that table, or the fault that the table has instead. -/
inductive ColumnDeclaration where
  | primary (name : String) (domain : Domain)
  | secondary (name : String) (domain : Domain)
  | nullable (name : String) (domain : Domain)
  | hidden (name : String) (domain : Domain)
  | reference (parent : Except HeadingFault Heading) (inKey : Bool)
      (renames : List (String × String))

structure TableDeclaration where
  schema : String
  table : String
  columns : List ColumnDeclaration

def TableDeclaration.fullName (declaration : TableDeclaration) : String :=
  quoteName declaration.schema ++ "." ++ quoteName declaration.table

/-- A key attribute that is declared here originates here. -/
def originOf (schema table name : String) : String := schema ++ "." ++ table ++ "." ++ name

/-- Two references to one origin become one attribute, any other repetition is a clash. -/
def declareAttribute (table : String) (attrs : List Attribute) (attr : Attribute) :
    Except HeadingFault (List Attribute) :=
  match attrs.find? (·.name = attr.name) with
  | none => .ok (attrs ++ [attr])
  | some existing =>
      if existing.lineage.isSome && existing.lineage == attr.lineage then
        .ok (attrs.map fun other =>
          if other.name = attr.name then { other with inKey := other.inKey || attr.inKey }
          else other)
      else .error (.clash attr.name table)

/-- An inherited attribute keeps its origin under any name. -/
def Attribute.inherited (origin : Attribute) (inKey : Bool) (renames : List (String × String)) :
    Attribute :=
  { origin with
    name := ((renames.find? (·.2 = origin.name)).map Prod.fst).getD origin.name
    inKey := inKey
    nullable := false
    expression := none
    hidden := false }

/-- The attributes that a column brings, in the order in which they are declared. -/
def ColumnDeclaration.attributes? (schema table : String) :
    ColumnDeclaration → Except HeadingFault (List Attribute)
  | .primary name domain =>
      .ok [{ Attribute.plain name domain with
        inKey := true, lineage := some (originOf schema table name) }]
  | .secondary name domain => .ok [Attribute.plain name domain]
  | .nullable name domain => .ok [{ Attribute.plain name domain with nullable := true }]
  | .hidden name domain => .ok [{ Attribute.plain name domain with hidden := true }]
  | .reference (.error fault) _ _ => .error (.parent fault)
  | .reference (.ok heading) inKey renames =>
      .ok ((heading.visible.filter (·.inKey)).map (·.inherited inKey renames))

def ColumnDeclaration.declare (schema table : String) (attrs : List Attribute)
    (column : ColumnDeclaration) : Except HeadingFault (List Attribute) := do
  (← column.attributes? schema table).foldlM (declareAttribute table) attrs

/-- Columns are declared in order and the first fault ends the declaration. -/
def TableDeclaration.heading? (declaration : TableDeclaration) :
    Except HeadingFault Heading := do
  let declare := ColumnDeclaration.declare declaration.schema declaration.table
  Heading.ofAttributes? (← declaration.columns.foldlM declare [])

/-- The columns of another table's key are declared from its heading. -/
def TableDeclaration.referenceTo (parent : TableDeclaration) (inKey : Bool)
    (renames : List (String × String)) : ColumnDeclaration :=
  .reference parent.heading? inKey renames

end QueryAlgebra
