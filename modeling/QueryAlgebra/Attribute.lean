/-
This file defines the attributes of a relation.
-/
import QueryAlgebra.Statement.SelectItem
import QueryAlgebra.Text.Blank

namespace QueryAlgebra

/-- A domain groups the declared types whose values are compared in the same way. -/
inductive Domain where
  | int
  | float
  | decimal
  | bool
  | string
  | date
  | time
  | datetime
  | uuid
  | json
  | blob
deriving DecidableEq, Repr

/-- The word before the first parenthesis or blank decides, except for UUID columns. -/
def Domain.ofDeclaration (declared : String) : Domain :=
  let text := (trim declared).toLower
  if text = "uuid" ∨ text = "binary(16)" then .uuid
  else
    match String.ofList (text.toList.takeWhile fun c => c != '(' && c != ' ') with
    | "tinyint" => if "tinyint(1)".toList.isPrefixOf text.toList then .bool else .int
    | "smallint" | "mediumint" | "int" | "integer" | "bigint" => .int
    | "bool" | "boolean" => .bool
    | "float" | "double" | "real" => .float
    | "decimal" | "numeric" => .decimal
    | "char" | "varchar" | "text" | "tinytext" | "mediumtext" | "longtext" | "enum" => .string
    | "date" => .date
    | "time" => .time
    | "datetime" | "timestamp" => .datetime
    | "json" => .json
    | _ => .blob

/-- The lineage names the table attribute from which values originate.
An attribute with an expression is no column of the relation that it is read from. -/
structure Attribute where
  name : String
  inKey : Bool
  domain : Domain
  nullable : Bool
  lineage : Option String
  expression : Option String
  hidden : Bool
deriving DecidableEq, Repr

def Attribute.plain (name : String) (domain : Domain) : Attribute where
  name := name
  inKey := false
  domain := domain
  nullable := false
  lineage := none
  expression := none
  hidden := false

/-- Nothing is known of a computed value. -/
def Attribute.computed (name expression : String) : Attribute :=
  { Attribute.plain name .blob with nullable := true, expression := some expression }

def Attribute.derived (attr : Attribute) : Bool := attr.expression.isSome

/-- An attribute that is renamed again keeps its first expression. -/
def Attribute.renamed (attr : Attribute) (name : String) : Attribute :=
  { attr with name := name, expression := some (attr.expression.getD (quoteName attr.name)) }

/-- Outside a subquery every attribute is a column. -/
def Attribute.asColumn (attr : Attribute) : Attribute := { attr with expression := none }

def Attribute.item (attr : Attribute) : SelectItem := ⟨attr.name, attr.expression⟩

end QueryAlgebra
