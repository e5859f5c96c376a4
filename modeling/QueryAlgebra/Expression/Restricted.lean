/-
This file restricts expressions.
-/
import QueryAlgebra.Expression.Sql

namespace QueryAlgebra

/-- A restriction may mention visible attributes only. -/
def Expression.validate (e : Expression) (restriction : Restriction) :
    Except Fault Compiled := do
  let scope : Scope := ⟨e.heading, e.session, e.session.config.semanticCheck⟩
  let compiled ← (restriction.compile scope false).fresh
  match compiled.columns.toList.find? (!e.heading.contains ·) with
  | some missing => .error (.unknownAttribute missing)
  | none => .ok compiled

/-- The restriction and the columns that it mentions are recorded. -/
def Expression.record (e : Expression) (restriction : Restriction) (mentioned : NameSet) :
    Expression :=
  { e with
    restrictions := appendRestriction e.restrictions restriction
    restricting := e.restricting.union mentioned }

/-- Derived attributes are restricted behind a subquery, groups in their own clause. -/
def Expression.restrict (e : Expression) (restriction : Restriction) :
    Except Fault Expression := do
  let compiled ← e.validate restriction
  if compiled.condition.isConstant true then return e
  else if !e.operator.isGrouping && e.heading.hasDerived then
    return e.asSubquery.record restriction compiled.columns
  else return e.record restriction compiled.columns

/-- Without a subquery no derived attribute may be mentioned, except on groups. -/
def Expression.restrictDirectly (e : Expression) (restriction : Restriction) :
    Except Fault Expression := do
  let compiled ← e.validate restriction
  if compiled.condition.isConstant true then return e
  else if e.operator.isGrouping then return e.record restriction compiled.columns
  else
    match compiled.columns.toList.find? e.heading.derived.contains with
    | some name => .error (.derived name)
    | none => return e.record restriction compiled.columns

/-- Subtraction keeps the rows that do not satisfy the restriction. -/
def Expression.subtract (e : Expression) (restriction : Restriction) :
    Except Fault Expression :=
  e.restrict (.negation restriction)

end QueryAlgebra
