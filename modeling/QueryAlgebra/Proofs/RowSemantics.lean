/-
This file reads expressions as lists of rows over given tables.
Restrictions keep any rows, and computed or aggregated values are arbitrary.
-/
import Mathlib.Data.List.Perm.Subperm
import Mathlib.Data.List.Forall2
import Mathlib.Data.List.Pairwise
import QueryAlgebra.Proofs.Reachability

namespace QueryAlgebra

/-- A row of an answer gives every name a value or null. -/
abbrev Tuple (Value : Type) := String → Option Value

variable {Value : Type}

def Tuple.Agree (names : List String) (row other : Tuple Value) : Prop :=
  ∀ name ∈ names, row name = other name

/-- No two rows have the same values under all of the names. -/
def Keyed (names : List String) (rows : List (Tuple Value)) : Prop :=
  rows.Pairwise fun row other => ¬ Tuple.Agree names row other

/-- Tables hold rows that their declared keys tell apart.
Databases differ in whether a natural join equates nulls. -/
structure Database (Value : Type) where
  rows : Session → TableDeclaration → List (Tuple Value)
  keyed : ∀ session declaration heading, declaration.heading? = .ok heading →
    Keyed heading.primaryKey (rows session declaration)
  equatesNulls : Bool

section Decidability

variable [DecidableEq Value]

instance (names : List String) (row other : Tuple Value) :
    Decidable (Tuple.Agree names row other) :=
  inferInstanceAs (Decidable (∀ name ∈ names, row name = other name))

/-- Of the rows that agree on the names, the last one is left. -/
def distinctRows (names : List String) (rows : List (Tuple Value)) : List (Tuple Value) :=
  rows.pwFilter fun row other => ¬ Tuple.Agree names row other

theorem keyed_distinctRows (names : List String) (rows : List (Tuple Value)) :
    Keyed names (distinctRows names rows) :=
  List.pairwise_pwFilter rows

/-- Two rows are partners in a natural join when they agree on the shared names. -/
def Tuple.Matches (equatesNulls : Bool) (names : List String) (row other : Tuple Value) : Prop :=
  ∀ name ∈ names, row name = other name ∧ (equatesNulls = true ∨ row name ≠ none)

instance (equatesNulls : Bool) (names : List String) (row other : Tuple Value) :
    Decidable (Tuple.Matches equatesNulls names row other) :=
  inferInstanceAs (Decidable (∀ name ∈ names, _ ∧ _))

/-- The names of the left side come from the left row. -/
def Tuple.merge (names : List String) (row other : Tuple Value) : Tuple Value :=
  fun name => if name ∈ names then row name else other name

/-- A left row is merged with each partner. Without any it is lost or extended with nulls. -/
def Tuple.joined (equatesNulls keepAll : Bool) (left right : Heading)
    (others : List (Tuple Value)) (row : Tuple Value) : List (Tuple Value) :=
  match others.filter (Tuple.Matches equatesNulls (left.common right) row) with
  | [] => if keepAll then [Tuple.merge left.names row fun _ => none] else []
  | partners => partners.map (Tuple.merge left.names row)

/-- The natural join of the rows of two headings on the names that both show. -/
def joinRows (equatesNulls keepAll : Bool) (left right : Heading)
    (rows others : List (Tuple Value)) : List (Tuple Value) :=
  rows.flatMap (Tuple.joined equatesNulls keepAll left right others)

end Decidability

/-- A projected row takes attributes under their names and moves or copies others. -/
structure Heading.Shows (heading result : Heading) (renames : Renames)
    (row image : Tuple Value) : Prop where
  taken : ∀ name ∈ result.names, name ∉ renames.names → image name = row name
  given : ∀ entry ∈ heading.renamings renames, ∀ source,
    entry.2.source? = some source → image entry.1 = row source

/-- There is one row for each combination of key values.
Without a key there may be one row even where no rows are gathered. -/
def Gathers [DecidableEq Value] (key : List String) (images rows : List (Tuple Value)) : Prop :=
  List.Forall₂ (Tuple.Agree key) (distinctRows key images) rows ∨ (key = [] ∧ rows.length = 1)

/-- Operators that succeed build an expression, and these are rows of its answer.
Left joins are enforced except inside an aggregation. -/
inductive Answers [DecidableEq Value] (database : Database Value) :
    Expression → List (Tuple Value) → Prop where
  | table {session : Session} {declaration : TableDeclaration} {result : Expression}
      (built : Expression.ofTable session declaration = .ok result) :
      Answers database result (database.rows session declaration)
  | restrict {e result : Expression} {restriction : Restriction} {rows kept : List (Tuple Value)}
      (source : Answers database e rows) (built : e.restrict restriction = .ok result)
      (part : kept.Subperm rows) : Answers database result kept
  | restrictDirectly {e result : Expression} {restriction : Restriction}
      {rows kept : List (Tuple Value)} (source : Answers database e rows)
      (built : e.restrictDirectly restriction = .ok result) (part : kept.Subperm rows) :
      Answers database result kept
  | join {left right result : Expression} {mode : JoinMode} {rows others : List (Tuple Value)}
      (first : Answers database left rows) (second : Answers database right others)
      (built : left.joinAs right mode = .ok result)
      (enforced : mode.keepAll = true → mode.enforced = true) :
      Answers database result (joinRows database.equatesNulls mode.keepAll left.heading
        right.heading rows others)
  | project {e result : Expression} {items : List ProjectionItem} {renames : Renames}
      {keepKey : Bool} {rows images : List (Tuple Value)} (source : Answers database e rows)
      (built : e.projectItems items renames keepKey = .ok result)
      (shown : List.Forall₂ (e.heading.Shows result.heading renames) rows images) :
      Answers database result
        (if result.distinct then distinctRows result.heading.names images else images)
  | aggregate {base group joined result : Expression} {items : List ProjectionItem}
      {renames : Renames} {keepAll : Bool} {rows others images gathered : List (Tuple Value)}
      (first : Answers database base rows) (second : Answers database group others)
      (join : base.joinAs group ⟨keepAll, base.session.config.semanticCheck, false⟩ = .ok joined)
      (built : base.aggregateItems group items renames keepAll = .ok result)
      (shown : List.Forall₂ (joined.heading.Shows result.heading renames)
        (joinRows database.equatesNulls keepAll base.heading group.heading rows others) images)
      (groups : Gathers result.heading.primaryKey images gathered) :
      Answers database result gathered
  | groupOver {e result : Expression} {key : List String} {renames : Renames}
      {rows images gathered : List (Tuple Value)} (source : Answers database e rows)
      (built : e.groupOver key renames = .ok result)
      (shown : List.Forall₂ (e.heading.Shows result.heading renames) rows images)
      (groups : Gathers result.heading.primaryKey images gathered) :
      Answers database result gathered
  | union {left right result : Expression} {rows others : List (Tuple Value)}
      (first : Answers database left rows) (second : Answers database right others)
      (built : left.union right = .ok result) :
      Answers database result (distinctRows result.heading.names (rows ++ others))
  | subquery {e : Expression} {rows : List (Tuple Value)} (source : Answers database e rows) :
      Answers database e.asSubquery rows

/-- The row that a projection makes of a row when it computes nothing but nulls. -/
def Tuple.image (heading : Heading) (renames : Renames) (row : Tuple Value) : Tuple Value :=
  fun name =>
    match (heading.renamings renames).find? (·.1 = name) with
    | some entry => entry.2.source?.elim none row
    | none => row name

theorem Heading.shows_image (heading result : Heading) (renames : Renames) (row : Tuple Value) :
    heading.Shows result renames row (Tuple.image heading renames row) := by
  have names : (heading.renamings renames).map Prod.fst = renames.names := by
    rw [renamings, List.map_map]
    rfl
  constructor
  · intro name _ old
    unfold Tuple.image
    split
    · rename_i entry found
      have same : entry.1 = name := by simpa using List.find?_some found
      have new := List.mem_map_of_mem (f := Prod.fst) (List.mem_of_find?_eq_some found)
      rw [names, same] at new
      contradiction
    · rfl
  · intro entry listed source moved
    have nodup : ((heading.renamings renames).map Prod.fst).Nodup := names ▸ renames.nodup
    unfold Tuple.image
    split
    · rename_i other found
      have same : other.1 = entry.1 := by simpa using List.find?_some found
      obtain rfl := List.inj_on_of_nodup_map nodup (List.mem_of_find?_eq_some found) listed same
      rw [moved]
      rfl
    · rename_i missing
      have apart := List.find?_eq_none.1 missing entry listed
      simp at apart

theorem Heading.forall₂_image (heading result : Heading) (renames : Renames)
    (rows : List (Tuple Value)) :
    List.Forall₂ (heading.Shows result renames) rows
      (rows.map (Tuple.image heading renames)) :=
  List.forall₂_map_right_iff.2
    (List.forall₂_same.2 fun row _ => heading.shows_image result renames row)

section Totality

variable [DecidableEq Value] {database : Database Value}

theorem gathers_distinctRows (key : List String) (images : List (Tuple Value)) :
    Gathers key images (distinctRows key images) :=
  .inl (List.forall₂_same.2 fun _ _ _ _ => rfl)

/-- Whatever has an answer over one database has an answer over every database. -/
theorem Answers.exists_over {e : Expression} {rows : List (Tuple Value)}
    (answers : Answers database e rows) (other : Database Value) :
    ∃ rows, Answers other e rows := by
  induction answers with
  | table built => exact ⟨_, .table built⟩
  | restrict _ built _ ih =>
      obtain ⟨rows, source⟩ := ih
      exact ⟨rows, .restrict source built (.refl rows)⟩
  | restrictDirectly _ built _ ih =>
      obtain ⟨rows, source⟩ := ih
      exact ⟨rows, .restrictDirectly source built (.refl rows)⟩
  | join _ _ built enforced first second =>
      obtain ⟨rows, left⟩ := first
      obtain ⟨others, right⟩ := second
      exact ⟨_, .join left right built enforced⟩
  | project _ built _ ih =>
      obtain ⟨rows, source⟩ := ih
      exact ⟨_, .project source built (Heading.forall₂_image _ _ _ rows)⟩
  | aggregate _ _ join built _ _ first second =>
      obtain ⟨rows, base⟩ := first
      obtain ⟨others, group⟩ := second
      exact ⟨_, .aggregate base group join built (Heading.forall₂_image _ _ _ _)
        (gathers_distinctRows _ _)⟩
  | groupOver _ built _ _ ih =>
      obtain ⟨rows, source⟩ := ih
      exact ⟨_, .groupOver source built (Heading.forall₂_image _ _ _ rows)
        (gathers_distinctRows _ _)⟩
  | union _ _ built first second =>
      obtain ⟨rows, left⟩ := first
      obtain ⟨others, right⟩ := second
      exact ⟨_, .union left right built⟩
  | subquery _ ih =>
      obtain ⟨rows, source⟩ := ih
      exact ⟨rows, .subquery source⟩

end Totality

end QueryAlgebra
