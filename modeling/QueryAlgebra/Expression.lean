/-
This file defines the expressions of the algebra and the restrictions placed on them.
-/
import QueryAlgebra.Declaration
import QueryAlgebra.Literal
import QueryAlgebra.NameSet
import QueryAlgebra.Session

namespace QueryAlgebra

/-- Every possible row over its attributes. -/
structure UniversalSet where
  attributes : List String
deriving DecidableEq, Repr

def UniversalSet.ofNames (names : List String) : UniversalSet := ⟨names.map trim⟩

mutual

/-- A semijoin keeps the rows that have a partner in another expression. -/
inductive Restriction where
  | constant (value : Bool)
  | raw (sql : String)
  | mapping (pairs : List (String × Literal))
  | record (members : List (String × Document))
  | disjunction (items : List Restriction)
  | conjunction (items : List Restriction)
  | negation (restriction : Restriction)
  | semijoin (partner : Expression) (checked : Bool)
  | universal (set : UniversalSet)

inductive Operator where
  | table (name : String)
  | join (left right : Expression) (keepAll : Bool)
  | projection (source : Expression)
  | grouping (source : Expression)
  | union (left right : Expression)
  | subquery (inner : Expression)

/-- The columns are those of the FROM clause, hidden ones included.
The restricting attributes are those that the restrictions mention. -/
structure Expression where
  session : Session
  operator : Operator
  heading : Heading
  columns : Heading
  restrictions : List Restriction
  restricting : NameSet
  distinct : Bool

end

/-- An expression without restrictions. -/
def Expression.plain (session : Session) (operator : Operator) (heading columns : Heading) :
    Expression where
  session := session
  operator := operator
  heading := heading
  columns := columns
  restrictions := []
  restricting := NameSet.empty
  distinct := false

def Operator.isGrouping : Operator → Bool
  | .grouping _ => true
  | _ => false

/-- The FROM clause alone does not reproduce the expression. -/
def Expression.needsSubquery (e : Expression) : Bool :=
  e.operator.isGrouping || e.distinct || e.heading.hasDerived

/-- A subquery turns derived attributes into columns and drops the hidden ones. -/
def Expression.asSubquery (e : Expression) : Expression :=
  let heading := e.heading.asColumns.visiblePart
  Expression.plain e.session (.subquery e) heading heading

/-- A base table of a session. -/
def Expression.ofTable (session : Session) (declaration : TableDeclaration) :
    Except Fault Expression := do
  let heading ← declaration.heading?.mapError .heading
  return Expression.plain session (.table declaration.fullName) heading heading

end QueryAlgebra
