/-
This file defines database sessions and the aliases that they give to derived tables.
-/
namespace QueryAlgebra

/-- The semantic check compares origins where the caller does not decide. -/
structure Config where
  semanticCheck : Bool
  subqueryLabel : String
  unionLabel : String
deriving DecidableEq, Repr

def Config.strict : Config := ⟨true, "_s", "_u"⟩

def Config.permissive : Config := { Config.strict with semanticCheck := false }

/-- Sessions are told apart by their number alone. -/
structure Session where
  number : Nat
  config : Config
deriving DecidableEq, Repr

def Session.same (first second : Session) : Bool := first.number == second.number

/-- Subqueries and unions are counted apart. -/
inductive AliasKind where
  | subquery
  | union
deriving DecidableEq, Repr

structure Alias where
  kind : AliasKind
  number : Nat
deriving DecidableEq, Repr

def Config.label (config : Config) : AliasKind → String
  | .subquery => config.subqueryLabel
  | .union => config.unionLabel

/-- The number is written in hexadecimal. -/
def Alias.text (config : Config) (derived : Alias) : String :=
  "`" ++ config.label derived.kind ++ String.ofList (Nat.toDigits 16 derived.number) ++ "`"

/-- The counts of the aliases that have been given. -/
structure AliasCount where
  subqueries : Nat
  unions : Nat
deriving DecidableEq, Repr

def AliasCount.zero : AliasCount := ⟨0, 0⟩

def AliasCount.next (count : AliasCount) : AliasKind → Alias × AliasCount
  | .subquery =>
      (⟨.subquery, count.subqueries + 1⟩, { count with subqueries := count.subqueries + 1 })
  | .union => (⟨.union, count.unions + 1⟩, { count with unions := count.unions + 1 })

end QueryAlgebra
