/-
This file projects expressions.
-/
import QueryAlgebra.Expression
import QueryAlgebra.Heading.Selection

namespace QueryAlgebra

/-- The attributes of the source that are still there after a projection. -/
def Heading.retained (heading : Heading) (selected : List String) (renames : Renames) :
    List String :=
  selected ++ (heading.renamings renames).filterMap (·.2.source?)

/-- Without the whole key of the source, rows can coincide and are made distinct.
A restriction on a dropped attribute stays behind in a subquery. -/
def Expression.projectItems (e : Expression) (items : List ProjectionItem) (renames : Renames)
    (keepKey : Bool) : Except Fault Expression := do
  let key := e.heading.primaryKey
  let selection ← e.heading.selection items renames (if keepKey then key else [])
  let retained := e.heading.retained selection.selected renames
  let distinct := !keepKey && !key.all retained.contains
  let dropped := e.heading.names.filter (!selection.selected.contains ·)
  let restrictionLost := e.restricting.toList.any dropped.contains
  let wrapped := distinct || e.needsSubquery || restrictionLost
  let source := if wrapped then e.asSubquery else e
  let projected ← source.heading.project selection.selected renames none
  let heading ← if keepKey then .ok projected else projected.rekey projected.names
  let result := Expression.plain source.session (.projection source) heading source.columns
  if wrapped then return { result with distinct := distinct }
  else
    return { result with
      distinct := distinct
      restrictions := source.restrictions
      restricting := source.restricting }

/-- The key is kept and entries are written as text. -/
def Expression.project (e : Expression) (entries : List String)
    (renames : List (String × String)) : Except Fault Expression :=
  e.projectItems (entries.map ProjectionItem.ofText) (Renames.ofList renames) true

end QueryAlgebra
