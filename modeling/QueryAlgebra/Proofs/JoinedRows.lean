/-
This file shows that the key of a join tells the joined rows apart.
The key is that of the side that determines the other one, or both keys are needed.
-/
import QueryAlgebra.Expression.Joined
import QueryAlgebra.Proofs.RowSemantics

namespace QueryAlgebra

section Rows

variable {Value : Type} {names more : List String} {rows others : List (Tuple Value)}

theorem Tuple.Agree.symm {row other : Tuple Value} (agree : Tuple.Agree names row other) :
    Tuple.Agree names other row :=
  fun name inside => (agree name inside).symm

theorem Tuple.Agree.trans {row other third : Tuple Value} (agree : Tuple.Agree names row other)
    (again : Tuple.Agree names other third) : Tuple.Agree names row third :=
  fun name inside => (agree name inside).trans (again name inside)

/-- What a key tells apart is told apart by more names. -/
theorem Keyed.mono (keyed : Keyed names rows) (part : ∀ name ∈ names, name ∈ more) :
    Keyed more rows :=
  List.Pairwise.imp (fun differ agree => differ fun name inside => agree name (part name inside))
    keyed

/-- A key tells the rows of every part apart. -/
theorem Keyed.subperm (keyed : Keyed names rows) (part : others.Subperm rows) :
    Keyed names others := by
  obtain ⟨sorted, same, inside⟩ := part
  refine same.pairwise (List.Pairwise.sublist inside keyed) ?_
  exact fun differ agree => differ agree.symm

/-- Rows that have the same key are the same. -/
theorem Keyed.eq_of_agree (keyed : Keyed names rows) {row other : Tuple Value}
    (inside : row ∈ rows) (member : other ∈ rows) (agree : Tuple.Agree names row other) :
    row = other := by
  have : Std.Symm fun row other : Tuple Value => ¬ Tuple.Agree names row other :=
    ⟨fun _ _ differ same => differ same.symm⟩
  by_contra distinct
  exact List.Pairwise.forall keyed inside member distinct agree

/-- Rows that correspond to rows with different keys have different keys. -/
theorem Keyed.forall₂ {shows : Tuple Value → Tuple Value → Prop} (keyed : Keyed names rows)
    (shown : List.Forall₂ shows rows others)
    (transfer : ∀ row other image copy, shows row image → shows other copy →
      Tuple.Agree more image copy → Tuple.Agree names row other) : Keyed more others := by
  obtain ⟨length, each⟩ := List.forall₂_iff_get.1 shown
  rw [Keyed, List.pairwise_iff_getElem] at keyed ⊢
  intro first second before after less agree
  rw [← length] at before after
  exact keyed first second before after less
    (transfer _ _ _ _ (each first before _) (each second after _) agree)

end Rows

theorem Heading.determines_iff {first second : Heading} :
    first.determines second = true ↔ ∀ name ∈ second.primaryKey, name ∈ first.names := by
  simp [determines]

section Joins

variable {Value : Type} {equatesNulls keepAll : Bool} {left right : Heading}
  {row other : Tuple Value} {rows others : List (Tuple Value)}

theorem Tuple.merge_left (names : List String) (row other : Tuple Value) :
    Tuple.Agree names (Tuple.merge names row other) row :=
  fun _ inside => if_pos inside

/-- Partners agree where both sides have the name, so a merged row has all of both rows. -/
theorem Tuple.Matches.merge_right
    (partners : Tuple.Matches equatesNulls (left.common right) row other) :
    Tuple.Agree right.names (Tuple.merge left.names row other) other := by
  intro name inside
  unfold Tuple.merge
  split
  · rename_i shared
    exact (partners name (Heading.mem_common.2 ⟨shared, inside⟩)).1
  · rfl

theorem Tuple.Matches.agree (partners : Tuple.Matches equatesNulls (left.common right) row other)
    {names : List String} (shared : ∀ name ∈ names, name ∈ left.names ∧ name ∈ right.names) :
    Tuple.Agree names row other :=
  fun name inside => (partners name (Heading.mem_common.2 (shared name inside))).1

variable [DecidableEq Value]

/-- A joined row is merged with a partner or, if all rows are kept, with nulls. -/
theorem Tuple.mem_joined {result : Tuple Value}
    (inside : result ∈ Tuple.joined equatesNulls keepAll left right others row) :
    (∃ other ∈ others, Tuple.Matches equatesNulls (left.common right) row other ∧
        result = Tuple.merge left.names row other) ∨
      (keepAll = true ∧ result = Tuple.merge left.names row fun _ => none) := by
  unfold joined at inside
  split at inside
  · split at inside
    · rename_i kept
      exact .inr ⟨kept, List.mem_singleton.1 inside⟩
    · contradiction
  · obtain ⟨other, member, rfl⟩ := List.mem_map.1 inside
    obtain ⟨partner, same⟩ := List.mem_filter.1 member
    exact .inl ⟨other, partner, of_decide_eq_true same, rfl⟩

/-- A joined row keeps the values of its left row. -/
theorem Tuple.agree_of_mem_joined {result : Tuple Value}
    (inside : result ∈ Tuple.joined equatesNulls keepAll left right others row) :
    Tuple.Agree left.names result row := by
  rcases mem_joined inside with ⟨other, _, _, rfl⟩ | ⟨_, rfl⟩
  · exact Tuple.merge_left _ _ _
  · exact Tuple.merge_left _ _ _

/-- A left row that has at most one partner is joined once. -/
theorem keyed_joined_of_determines (keyed : Keyed right.primaryKey others)
    (determined : left.determines right = true) (names : List String) (row : Tuple Value) :
    Keyed names (Tuple.joined equatesNulls keepAll left right others row) := by
  have shared : ∀ name ∈ right.primaryKey, name ∈ left.names ∧ name ∈ right.names :=
    fun name key => ⟨Heading.determines_iff.1 determined name key, Heading.names_of_primaryKey key⟩
  unfold Tuple.joined
  split
  · split
    · exact List.pairwise_singleton _ _
    · exact List.Pairwise.nil
  · refine List.pairwise_map.2 (List.Pairwise.imp_of_mem ?_ (List.Pairwise.filter _ keyed))
    intro first second inside member differ _
    have matched := of_decide_eq_true (List.mem_filter.1 inside).2
    have again := of_decide_eq_true (List.mem_filter.1 member).2
    exact differ
      ((Tuple.Matches.agree matched shared).symm.trans (Tuple.Matches.agree again shared))

/-- An inner join of one row tells its partners apart by the right key. -/
theorem keyed_joined_of_inner {key : List String} (keyed : Keyed right.primaryKey others)
    (part : ∀ name ∈ right.primaryKey, name ∈ key) (row : Tuple Value) :
    Keyed key (Tuple.joined equatesNulls false left right others row) := by
  unfold Tuple.joined
  split
  · exact List.Pairwise.nil
  · refine List.pairwise_map.2 (List.Pairwise.imp_of_mem ?_ (List.Pairwise.filter _ keyed))
    intro first second inside member differ agree
    have matched := (of_decide_eq_true (List.mem_filter.1 inside).2 :
      Tuple.Matches equatesNulls (left.common right) row first).merge_right
    have again := (of_decide_eq_true (List.mem_filter.1 member).2 :
      Tuple.Matches equatesNulls (left.common right) row second).merge_right
    refine differ fun name inKey => ?_
    have shown := Heading.names_of_primaryKey inKey
    rw [← matched name shown, ← again name shown]
    exact agree name (part name inKey)

/-- Left rows with different keys are joined to rows with different keys. -/
theorem pairwise_joined_of_left {key : List String} (keyed : Keyed left.primaryKey rows)
    (part : ∀ name ∈ left.primaryKey, name ∈ key) :
    rows.Pairwise fun first second =>
      ∀ row ∈ Tuple.joined equatesNulls keepAll left right others first,
        ∀ other ∈ Tuple.joined equatesNulls keepAll left right others second,
          ¬ Tuple.Agree key row other := by
  refine List.Pairwise.imp (fun differ row inside other member agree => ?_) keyed
  refine differ fun name inKey => ?_
  have shown := Heading.names_of_primaryKey inKey
  rw [← Tuple.agree_of_mem_joined inside name shown, ← Tuple.agree_of_mem_joined member name shown]
  exact agree name (part name inKey)

/-- Where the right side determines the left one, joined rows with the same right key have one
partner, and so their left rows agree. -/
theorem pairwise_joined_of_right {key : List String} (first : Keyed left.primaryKey rows)
    (second : Keyed right.primaryKey others) (determined : right.determines left = true)
    (part : ∀ name ∈ right.primaryKey, name ∈ key) :
    rows.Pairwise fun first second =>
      ∀ row ∈ Tuple.joined equatesNulls false left right others first,
        ∀ other ∈ Tuple.joined equatesNulls false left right others second,
          ¬ Tuple.Agree key row other := by
  have shared : ∀ name ∈ left.primaryKey, name ∈ left.names ∧ name ∈ right.names :=
    fun name inKey => ⟨Heading.names_of_primaryKey inKey,
      Heading.determines_iff.1 determined name inKey⟩
  refine List.Pairwise.imp (fun differ row inside other member agree => ?_) first
  obtain ⟨partner, known, matched, rfl⟩ := (Tuple.mem_joined inside).resolve_right (by simp)
  obtain ⟨third, present, again, rfl⟩ := (Tuple.mem_joined member).resolve_right (by simp)
  have same : Tuple.Agree right.primaryKey partner third := by
    intro name inKey
    have shown := Heading.names_of_primaryKey inKey
    rw [← matched.merge_right name shown, ← again.merge_right name shown]
    exact agree name (part name inKey)
  obtain rfl := second.eq_of_agree known present same
  exact differ ((matched.agree shared).trans (again.agree shared).symm)

/-- The key of a join tells its rows apart. A left join needs a left side that determines the
right one. -/
theorem keyed_joinRows (first : Keyed left.primaryKey rows)
    (second : Keyed right.primaryKey others)
    (eligible : keepAll = true → left.determines right = true) :
    Keyed (left.joinKey right) (joinRows equatesNulls keepAll left right rows others) := by
  unfold Heading.joinKey
  refine List.pairwise_flatMap.2 ?_
  cases leftward : left.determines right with
  | true =>
      rw [if_pos rfl]
      exact ⟨fun row _ => keyed_joined_of_determines second leftward _ row,
        pairwise_joined_of_left first fun _ => id⟩
  | false =>
      have inner : keepAll = false := by
        rw [leftward] at eligible
        simpa using eligible
      subst inner
      rw [if_neg Bool.false_ne_true]
      cases rightward : right.determines left with
      | true =>
          rw [if_pos rfl]
          exact ⟨fun row _ => keyed_joined_of_inner second (fun _ => id) row,
            pairwise_joined_of_right first second rightward fun _ => id⟩
      | false =>
          rw [if_neg Bool.false_ne_true]
          have both : ∀ name ∈ right.primaryKey, name ∈ left.primaryKey ++
              right.primaryKey.filter (!left.primaryKey.contains ·) := by
            intro name inKey
            by_cases shared : name ∈ left.primaryKey
            · exact List.mem_append_left _ shared
            · exact List.mem_append_right _ (List.mem_filter.2 ⟨inKey, by simpa using shared⟩)
          exact ⟨fun row _ => keyed_joined_of_inner second both row,
            pairwise_joined_of_left first fun _ => List.mem_append_left _⟩

end Joins

end QueryAlgebra
