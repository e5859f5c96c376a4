/-
This file defines SQL statements as trees.
-/
import QueryAlgebra.Comparison
import QueryAlgebra.Session
import QueryAlgebra.Statement.SelectItem

namespace QueryAlgebra

/-- A statement selects every column of what it reads from, or the listed entries. -/
inductive SelectList where
  | all
  | items (entries : List SelectItem)
deriving DecidableEq, Repr

mutual

/-- A truth value that only the database knows. -/
inductive Formula where
  | raw (sql : String)
  | comparison (comparison : Comparison)
  | negation (formula : Formula)
  | conjunction (formulas : List Formula)
  | disjunction (formulas : List Formula)
  | membership (columns : List String) (negated : Bool) (statement : Statement)
  | existence (negated : Bool) (statement : Statement)

/-- A constant truth value is known without the database. -/
inductive Condition where
  | constant (value : Bool)
  | formula (inner : Formula)

/-- What a statement reads from. -/
inductive Relation where
  | table (name : String)
  | join (left right : Relation) (keepAll : Bool)
  | derived (statement : Statement) (name : Alias)
  | union (left right : Statement) (name : Alias)

/-- The filter holds for rows and the second one for groups of rows. -/
structure Statement where
  distinct : Bool
  list : SelectList
  origin : Relation
  filter : Condition
  groups : List String
  groupFilter : Condition

end

def Condition.isConstant (value : Bool) : Condition → Bool
  | .constant other => value == other
  | .formula _ => false

def Condition.formula? : Condition → Option Formula
  | .constant _ => none
  | .formula inner => some inner

def Formula.negatedWhen (negated : Bool) (formula : Formula) : Formula :=
  if negated then .negation formula else formula

/-- A conjunction is false with a false member, and true members do not matter. -/
def Condition.conjunction (negated : Bool) (conditions : List Condition) : Condition :=
  if conditions.any (Condition.isConstant false) then .constant negated
  else
    match conditions.filterMap Condition.formula? with
    | [] => .constant !negated
    | formulas => .formula (Formula.negatedWhen negated (.conjunction formulas))

/-- A disjunction is true with a true member, and false members do not matter. -/
def Condition.disjunction (negated : Bool) (conditions : List Condition) : Condition :=
  if conditions.any (Condition.isConstant true) then .constant !negated
  else
    match conditions.filterMap Condition.formula? with
    | [] => .constant negated
    | formulas => .formula (Formula.negatedWhen negated (.disjunction formulas))

end QueryAlgebra
