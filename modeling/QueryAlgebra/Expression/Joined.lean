/-
This file joins expressions.
-/
import QueryAlgebra.Expression.Conjunction
import QueryAlgebra.Heading.Joined

namespace QueryAlgebra

/-- A heading determines another one that has its key among the attributes of the first. -/
def Heading.determines (first second : Heading) : Bool :=
  second.primaryKey.all first.names.contains

/-- The determining operand lends its key, and otherwise both keys are needed. -/
def Heading.joinKey (left right : Heading) : List String :=
  if left.determines right then left.primaryKey
  else if right.determines left then right.primaryKey
  else left.primaryKey ++ right.primaryKey.filter (!left.primaryKey.contains ·)

/-- A join reads its operands directly only where they equate no further column. -/
def Expression.joinOperand (e : Expression) (overlapping : Bool) : Expression :=
  if overlapping || e.needsSubquery || !e.restrictions.isEmpty then e.asSubquery else e

/-- Columns that both sides have and the headings do not share would be equated too. -/
def Expression.overlaps (left right : Expression) : Bool :=
  let common := right.heading.common left.heading
  left.columns.allNames.any fun name =>
    right.columns.allNames.contains name && !common.contains name

mutual

/-- A projection and a grouping have the FROM clause of their source, which can be a bare join. -/
def Operator.readsFromJoin : Operator → Bool
  | .join .. => true
  | .projection source | .grouping source => source.readsFromJoin
  | .table _ | .union .. | .subquery _ => false

def Expression.readsFromJoin : Expression → Bool
  | ⟨_, operator, _, _, _, _, _⟩ => operator.readsFromJoin

end

/-- A join keeps all rows of the left side if asked to.
Enforced, this needs a left side that determines the right one. -/
structure JoinMode where
  keepAll : Bool
  checked : Bool
  enforced : Bool
deriving DecidableEq, Repr

/-- Two expressions are joined on the attributes that they share by name. -/
def Expression.joinAs (left right : Expression) (mode : JoinMode) :
    Except Fault Expression := do
  if !left.session.same right.session then .error (.join .differentSessions)
  if mode.checked then left.heading.homologous right.heading
  if mode.keepAll && mode.enforced && !left.heading.determines right.heading then
    .error .undetermined
  let key := left.heading.joinKey right.heading
  let overlapping := left.overlaps right
  let left := left.joinOperand overlapping
  let right := right.joinOperand overlapping
  let heading ← left.heading.join right.heading key
  let columns ← left.columns.join right.columns []
  return { Expression.plain left.session (.join left right mode.keepAll) heading columns with
    restrictions := extendRestrictions left.restrictions right.restrictions
    restricting := left.restricting.union right.restricting }

def Expression.joinEnforced (left right : Expression) (keepAll checked : Bool) :
    Except Fault Expression :=
  left.joinAs right ⟨keepAll, checked, true⟩

/-- The session decides whether origins are compared. -/
def Expression.join (left right : Expression) : Except Fault Expression :=
  left.joinEnforced right false left.session.config.semanticCheck

def Expression.leftJoin (left right : Expression) : Except Fault Expression :=
  left.joinEnforced right true left.session.config.semanticCheck

end QueryAlgebra
