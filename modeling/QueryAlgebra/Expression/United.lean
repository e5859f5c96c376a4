/-
This file unites expressions.
-/
import QueryAlgebra.Expression

namespace QueryAlgebra

def sortedNames (names : List String) : List String :=
  names.mergeSort fun first second => decide (first ≤ second)

/-- The operands of a union have the same attributes and all of them are in the key. -/
def Expression.union (left right : Expression) : Except Fault Expression := do
  if !left.session.same right.session then .error (.join .differentSessions)
  let leftNames := sortedNames left.heading.names
  let rightNames := sortedNames right.heading.names
  if leftNames ≠ rightNames then
    .error (.union (.differentAttributes leftNames rightNames))
  if !left.heading.secondary.isEmpty then
    .error (.union (.secondaryAttributes left.heading.secondary))
  if !right.heading.secondary.isEmpty then
    .error (.union (.secondaryAttributes right.heading.secondary))
  let heading := left.heading.asColumns.visiblePart
  return Expression.plain left.session (.union left right) heading heading

end QueryAlgebra
