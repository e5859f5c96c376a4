/-
This file aggregates expressions.
-/
import QueryAlgebra.Expression.Joined
import QueryAlgebra.Heading.Selection

namespace QueryAlgebra

/-- The partner of an aggregation lends only the attributes that are listed by name. -/
def Heading.lends (base : Heading) (items : List ProjectionItem) (name : String) : Bool :=
  base.primaryKey.contains name || base.secondary.contains name || items.contains (.named name)

def Expression.grouped (source : Expression) (heading : Heading) : Expression :=
  Expression.plain source.session (.grouping source) heading heading

/-- Each row of the base gets the values computed from its partners in the group. -/
def Expression.aggregateItems (base group : Expression) (items : List ProjectionItem)
    (renames : Renames) (keepAll : Bool) : Except Fault Expression := do
  let joined ← base.joinAs group ⟨keepAll, base.session.config.semanticCheck, false⟩
  let key := base.heading.primaryKey
  let keyed ← joined.heading.rekey key
  let selection ← keyed.selection items renames key
  let selected := selection.selected.filter (base.heading.lends items)
  let heading ← keyed.project selected renames none
  return joined.grouped heading

def Expression.aggregate (base group : Expression) (entries : List String)
    (renames : List (String × String)) (keepAll : Bool) : Except Fault Expression :=
  base.aggregateItems group (entries.map ProjectionItem.ofText) (Renames.ofList renames) keepAll

/-- The rows are grouped on a key, and an empty key makes one group of all rows. -/
def Expression.groupOver (e : Expression) (key : List String) (renames : Renames) :
    Except Fault Expression := do
  let source := if e.needsSubquery then e.asSubquery else e
  let heading ← source.heading.project key renames (some key)
  return source.grouped heading

end QueryAlgebra
