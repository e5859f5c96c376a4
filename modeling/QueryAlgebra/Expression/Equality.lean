/-
This file compares expressions and restrictions.
-/
import QueryAlgebra.Expression

namespace QueryAlgebra

def sameMapping : List (String × Literal) → List (String × Literal) → Bool
  | [], [] => true
  | first :: rest, second :: others =>
      first.1 == second.1 && first.2 == second.2 && sameMapping rest others
  | _, _ => false

mutual

def Restriction.same : Restriction → Restriction → Bool
  | .constant first, .constant second => first == second
  | .raw first, .raw second => first == second
  | .mapping first, .mapping second => sameMapping first second
  | .record first, .record second => Document.object first == Document.object second
  | .disjunction first, .disjunction second => sameRestrictions first second
  | .conjunction first, .conjunction second => sameRestrictions first second
  | .negation first, .negation second => first.same second
  | .semijoin first checked, .semijoin second checked' =>
      first.same second && checked == checked'
  | .universal first, .universal second => first == second
  | _, _ => false

def sameRestrictions : List Restriction → List Restriction → Bool
  | [], [] => true
  | first :: rest, second :: others => first.same second && sameRestrictions rest others
  | _, _ => false

def Operator.same : Operator → Operator → Bool
  | .table first, .table second => first == second
  | .join left right keepAll, .join left' right' keepAll' =>
      left.same left' && right.same right' && keepAll == keepAll'
  | .projection first, .projection second => first.same second
  | .grouping first, .grouping second => first.same second
  | .union left right, .union left' right' => left.same left' && right.same right'
  | .subquery first, .subquery second => first.same second
  | _, _ => false

/-- What follows from the other parts is not compared. -/
def Expression.same : Expression → Expression → Bool
  | ⟨session, operator, heading, _, restrictions, _, distinct⟩, other =>
      session.same other.session && operator.same other.operator &&
        heading == other.heading && sameRestrictions restrictions other.restrictions &&
        distinct == other.distinct

end

instance : BEq Restriction := ⟨Restriction.same⟩

instance : BEq Expression := ⟨Expression.same⟩

end QueryAlgebra
