/-
This file writes expressions as SQL text under the configuration of their session.
-/
import QueryAlgebra.Rendering
import QueryAlgebra.Statement.Text

namespace QueryAlgebra

/-- A rendering that shares its aliases with no other. -/
def Rendering.fresh {α : Type} (rendering : Rendering α) : Except Fault α :=
  (rendering.run AliasCount.zero).1

def Expression.sql (e : Expression) (fields : Option (List String)) : Except Fault String :=
  ((e.statement e.session.config.semanticCheck fields).fresh).map
    (Statement.text e.session.config)

/-- An expression that has no statement shows the error instead. -/
def Expression.display (e : Expression) : String :=
  match e.sql none with
  | .ok text => text
  | .error fault => "<" ++ fault.message ++ ">"

/-- One row of an answer. -/
structure Row where
  members : List (String × Document)

def Row.get? (row : Row) (name : String) : Option Document :=
  (row.members.find? (·.1 = name)).map Prod.snd

def Row.document (row : Row) : Document := .object row.members

/-- A session renders statements and is connected to no database. -/
def Expression.fetch (e : Expression) : Except Fault (List Row) := do
  let _ ← e.sql none
  .error .disconnected

end QueryAlgebra
