/-
This file defines the entries of a SELECT list.
-/
import QueryAlgebra.Text.Quoted

namespace QueryAlgebra

/-- An entry without an expression selects the column of its name. -/
structure SelectItem where
  name : String
  expression : Option String
deriving DecidableEq, Repr

def SelectItem.text (item : SelectItem) : String :=
  match item.expression with
  | some expression => expression ++ " AS " ++ quoteName item.name
  | none => quoteName item.name

end QueryAlgebra
