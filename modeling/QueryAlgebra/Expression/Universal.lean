/-
This file combines universal sets with expressions.
-/
import QueryAlgebra.Expression.Grouped
import QueryAlgebra.Expression.Projected

namespace QueryAlgebra

/-- The combinations of the attributes of the set that occur in the expression. -/
def UniversalSet.restrictBy (set : UniversalSet) (e : Expression) :
    Except Fault Expression :=
  if set.attributes.isEmpty then .error (.universal .withoutAttributes)
  else e.projectItems (set.attributes.map ProjectionItem.named) Renames.empty false

/-- An infinite set joins nothing. -/
def UniversalSet.join (_ : UniversalSet) (_ : Expression) : Except Fault Expression :=
  .error (.universal .join)

/-- The rows of the group are aggregated for each combination of the attributes. -/
def UniversalSet.aggregate (set : UniversalSet) (group : Expression)
    (renames : List (String × String)) (keepAll : Bool) : Except Fault Expression :=
  if keepAll then .error (.universal .keepAllRows)
  else group.groupOver set.attributes (Renames.ofList renames)

/-- Nothing can be taken from an infinite set. -/
def UniversalSet.subtract (_ : UniversalSet) (_ : Restriction) :
    Except Fault UniversalSet :=
  .error (.universal .complement)

end QueryAlgebra
