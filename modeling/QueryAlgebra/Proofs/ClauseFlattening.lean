/-
This file shows that a FROM clause that is read without its SELECT list loses no clause.
Joins, projections and groupings of reachable expressions read such FROM clauses only.
-/
import QueryAlgebra.Proofs.Reachability
import QueryAlgebra.Proofs.RenderingRuns

namespace QueryAlgebra

variable {sessions : Session → Prop}

/-- An expression without DISTINCT, without groups and without derived attributes. -/
structure Expression.Flat (e : Expression) : Prop where
  distinct : e.distinct = false
  ungrouped : ∀ source, e.operator ≠ .grouping source
  underived : ∀ attr ∈ e.heading.visible, attr.derived = false

theorem Operator.isGrouping_eq_false {operator : Operator} :
    operator.isGrouping = false ↔ ∀ source, operator ≠ .grouping source := by
  cases operator <;> simp [Operator.isGrouping]

/-- The flat expressions are those that need no subquery. -/
theorem Expression.flat_iff {e : Expression} : e.Flat ↔ e.needsSubquery = false := by
  rw [needsSubquery_eq_false, Operator.isGrouping_eq_false, Heading.hasDerived_eq_false]
  have columns : (∀ attr ∈ e.heading.visible, attr.derived = false) ↔
      ∀ attr ∈ e.heading.visible, attr.expression = none := by
    simp [Attribute.derived]
  constructor
  · exact fun flat => ⟨flat.ungrouped, flat.distinct, columns.1 flat.underived⟩
  · rintro ⟨ungrouped, distinct, underived⟩
    exact ⟨distinct, ungrouped, columns.2 underived⟩

/-- The statement of a flat expression has no clauses but FROM and WHERE. -/
theorem Expression.Flat.statement {e : Expression} (flat : e.Flat) (checked : Bool)
    (fields : Option (List String)) :
    e.statement checked fields = (do
      let list ← Rendering.ofExcept (e.selectList? fields)
      let origin ← e.origin checked
      let filter ← e.condition checked
      return ⟨false, list, origin, filter, [], .constant true⟩) := by
  obtain ⟨session, operator, heading, columns, restrictions, restricting, distinct⟩ := e
  have plain : distinct = false := flat.distinct
  have ungrouped := flat.ungrouped
  subst plain
  cases operator with
  | grouping source => exact absurd rfl (ungrouped source)
  | table name => rfl
  | join left right keepAll => rfl
  | projection source => rfl
  | union left right => rfl
  | subquery inner => rfl

/-- An expression that carries no restrictions has no WHERE clause. -/
theorem Expression.condition_of_bare {e : Expression} (bare : e.restrictions = [])
    (checked : Bool) : e.condition checked = pure (.constant true) := by
  obtain ⟨session, operator, heading, columns, restrictions, restricting, distinct⟩ := e
  have none : restrictions = [] := bare
  subst none
  rw [condition, compileAll, pure_bind]
  rfl

/-- The statement of a flat expression without restrictions is no more than its FROM clause
and a SELECT list. -/
theorem Expression.Flat.statement_of_bare {e : Expression} (flat : e.Flat)
    (bare : e.restrictions = []) (checked : Bool) (fields : Option (List String)) :
    e.statement checked fields = (do
      let list ← Rendering.ofExcept (e.selectList? fields)
      let origin ← e.origin checked
      return ⟨false, list, origin, .constant true, [], .constant true⟩) := by
  rw [flat.statement, condition_of_bare bare]
  simp only [pure_bind]

/-- The operands whose FROM clauses an expression reads directly have no other clauses, or
the expression repeats their restrictions. -/
def Expression.KeepsClauses (e : Expression) : Prop :=
  match e.operator with
  | .join left right _ =>
      (left.Flat ∧ left.restrictions = []) ∧ right.Flat ∧ right.restrictions = []
  | .projection source => source.Flat ∧ source.restrictions <+: e.restrictions
  | .grouping source => source.Flat
  | _ => True

/-- A recorded restriction stands behind those that were there before. -/
theorem Expression.KeepsClauses.record {e : Expression} (keeps : e.KeepsClauses)
    (restriction : Restriction) (mentioned : NameSet) :
    (e.record restriction mentioned).KeepsClauses := by
  unfold KeepsClauses at keeps ⊢
  have operator : (e.record restriction mentioned).operator = e.operator := rfl
  rw [operator]
  cases same : e.operator with
  | projection source =>
      rw [same] at keeps
      exact ⟨keeps.1, keeps.2.trans (prefix_appendRestriction e.restrictions restriction)⟩
  | table name => trivial
  | join left right keepAll =>
      rw [same] at keeps
      exact keeps
  | grouping source =>
      rw [same] at keeps
      exact keeps
  | union left right => trivial
  | subquery inner => trivial

theorem Expression.keepsClauses_asSubquery (e : Expression) : e.asSubquery.KeepsClauses :=
  trivial

/-- A join of flat operands shows columns only. -/
theorem Expression.Joins.flat {left right result : Expression} {mode : JoinMode}
    (joins : left.Joins right mode result) : result.Flat := by
  have first := flat_iff.2 (left.needsSubquery_joinOperand (left.overlaps right))
  have second := flat_iff.2 (right.needsSubquery_joinOperand (left.overlaps right))
  refine ⟨joins.distinct, fun source grouping => ?_, fun attr inside => ?_⟩
  · rw [joins.operator] at grouping
    contradiction
  · obtain ⟨member, shown⟩ := Heading.mem_visible.1 inside
    obtain ⟨origin, source, same⟩ := Heading.origin_of_join joins.heading member
    have visible : origin.hidden = false := by simpa [same] using shown
    have derived : attr.derived = origin.derived := by rw [same]; rfl
    rw [derived]
    rcases source with source | source
    · exact first.underived origin (Heading.mem_visible.2 ⟨source, visible⟩)
    · exact second.underived origin (Heading.mem_visible.2 ⟨source, visible⟩)

theorem Expression.Joins.keepsClauses {left right result : Expression} {mode : JoinMode}
    (joins : left.Joins right mode result) : result.KeepsClauses := by
  unfold KeepsClauses
  rw [joins.operator]
  exact ⟨⟨flat_iff.2 (left.needsSubquery_joinOperand _), left.restrictions_joinOperand _⟩,
    flat_iff.2 (right.needsSubquery_joinOperand _), right.restrictions_joinOperand _⟩

theorem Expression.Projects.keepsClauses {e result : Expression} {items : List ProjectionItem}
    {renames : Renames} {keepKey : Bool} {selection : Selection}
    (projects : e.Projects items renames keepKey selection result) : result.KeepsClauses := by
  unfold KeepsClauses
  rw [projects.operator, projects.restrictions]
  exact ⟨flat_iff.2 (e.needsSubquery_projectedSource selection.selected renames keepKey),
    List.prefix_rfl⟩

/-- No operator drops a clause of what its result reads directly. -/
theorem Reachable.root_keepsClauses {e : Expression} (reached : Reachable sessions e) :
    e.KeepsClauses := by
  induction reached with
  | table _ built =>
      obtain ⟨heading, _, rfl⟩ := Expression.ofTable_ok built
      trivial
  | @restrict e _ restriction _ _ built ih =>
      exact Expression.restrict_preserves built ih e.keepsClauses_asSubquery
        fun _ mentioned keeps => keeps.record restriction mentioned
  | @restrictDirectly _ _ restriction _ _ built ih =>
      exact Expression.restrictDirectly_preserves built ih
        fun mentioned keeps => keeps.record restriction mentioned
  | join _ _ built _ _ => exact (Expression.joinAs_ok built).keepsClauses
  | project _ built _ =>
      obtain ⟨selection, projects⟩ := Expression.projectItems_ok built
      exact projects.keepsClauses
  | aggregate _ _ built _ _ =>
      obtain ⟨joined, _, _, _, join, _, _, _, rfl⟩ := Expression.aggregateItems_ok built
      exact (Expression.joinAs_ok join).flat
  | @groupOver e _ _ _ _ built _ =>
      obtain ⟨heading, _, rfl⟩ := Expression.groupOver_ok built
      exact Expression.flat_iff.2 e.needsSubquery_groupedSource
  | union _ _ built _ _ =>
      obtain ⟨_, _, _, _, rfl⟩ := Expression.union_ok built
      trivial
  | @subquery e _ _ => exact e.keepsClauses_asSubquery

/-- At every node of a reachable expression, the operands of a join are flat and carry no
restrictions, the source of a projection is flat and its restrictions come first in those of
the projection, and the source of a grouping is flat. -/
theorem Reachable.node_keepsClauses {e node : Expression} (reached : Reachable sessions e)
    (occurs : Occurs node e) : node.KeepsClauses :=
  (reached.node occurs).root_keepsClauses

/-- The source of a projection occurs in it. -/
theorem Occurs.source {source e : Expression} (projection : e.operator = .projection source) :
    Occurs source e := by
  refine .inside ?_ .root
  rw [Expression.parts, projection]
  exact List.mem_append_left _ List.mem_cons_self

/-- A projection of a restricted join keeps the clauses of its nodes. -/
theorem Reachable.node_keepsClauses_of_projection :
    ∃ e source left right, Reachable (· = laboratory) e ∧ Occurs source e ∧
      e.operator = .projection source ∧ source.operator = .join left right false ∧
      source.restrictions ≠ [] ∧ e.KeepsClauses ∧ source.KeepsClauses := by
  have subjects := @Reachable.table (· = laboratory) laboratory subjectDeclaration _ rfl rfl
  have entries := @Reachable.table (· = laboratory) laboratory logDeclaration _ rfl rfl
  have joined := @Reachable.join (· = laboratory) _ _ _ ⟨false, true, true⟩ subjects entries rfl
  have mice := @Reachable.restrict (· = laboratory) _ _
    (.mapping [("species", .string "mouse")]) joined (by simp [Restriction.partners]) rfl
  have projected := @Reachable.project (· = laboratory) _ _ [.named "species"]
    (Renames.ofList [("label", "upper(species)")]) true mice rfl
  exact ⟨_, _, _, _, projected, Occurs.source rfl, rfl, rfl, List.cons_ne_nil _ _,
    projected.node_keepsClauses .root, projected.node_keepsClauses (Occurs.source rfl)⟩

end QueryAlgebra
