/-
This file determines the columns that a natural join equates.
They are the shared attributes unless a derived attribute meets a column that is not shown.
-/
import QueryAlgebra.Proofs.Reachability

namespace QueryAlgebra

variable {sessions : Session → Prop}

/-- The visible attributes without an expression are columns of the FROM clause. -/
def Expression.ReadsColumns (e : Expression) : Prop :=
  ∀ attr ∈ e.heading.visible, attr.expression = none → attr.name ∈ e.columns.allNames

theorem Expression.readsColumns_of_eq {e : Expression} (same : e.columns = e.heading) :
    e.ReadsColumns := by
  intro attr inside _
  rw [same]
  exact Heading.mem_allNames.2 ⟨attr, (Heading.mem_visible.1 inside).1, rfl⟩

theorem Expression.ReadsColumns.joinOperand {e : Expression} (reads : e.ReadsColumns)
    (overlapping : Bool) : (e.joinOperand overlapping).ReadsColumns := by
  rcases e.joinOperand_cases overlapping with wrapped | ⟨direct, _⟩
  · rw [wrapped]
    exact readsColumns_of_eq rfl
  · rwa [direct]

/-- The columns of a join are those of its operands. -/
theorem Expression.Joins.readsColumns {left right result : Expression} {mode : JoinMode}
    (joins : left.Joins right mode result) (first : left.ReadsColumns)
    (second : right.ReadsColumns) : result.ReadsColumns := by
  intro attr inside plain
  obtain ⟨member, shown⟩ := Heading.mem_visible.1 inside
  obtain ⟨origin, source, same⟩ := Heading.origin_of_join joins.heading member
  have visible : origin.hidden = false := by simpa [same] using shown
  have underived : origin.expression = none := by simpa [same] using plain
  have named : attr.name = origin.name := by rw [same]
  rw [named, Heading.allNames_join joins.columns]
  rcases source with source | source
  · exact .inl (first.joinOperand _ origin
      (Heading.mem_visible.2 ⟨source, visible⟩) underived)
  · exact .inr (second.joinOperand _ origin
      (Heading.mem_visible.2 ⟨source, visible⟩) underived)

/-- A projection shows without an expression only what its source shows so. -/
theorem Expression.Projects.readsColumns {e result : Expression} {items : List ProjectionItem}
    {renames : Renames} {keepKey : Bool} {selection : Selection}
    (projects : e.Projects items renames keepKey selection result) (reads : e.ReadsColumns) :
    result.ReadsColumns := by
  have source : (e.projectedSource selection.selected renames keepKey).ReadsColumns := by
    rcases e.projectedSource_cases selection.selected renames keepKey with wrapped | ⟨direct, _⟩
    · rw [wrapped]
      exact readsColumns_of_eq rfl
    · rwa [direct]
  intro attr inside plain
  rw [projects.columns]
  obtain ⟨shown, image, rfl⟩ :=
    (Heading.mem_projectKeyed projects.heading).1 (Heading.mem_visible.1 inside).1
  rcases image with ⟨origin, visible, image⟩ | ⟨entry, _, computed⟩
  · rcases Attribute.mem_images.1 image with ⟨_, rfl⟩ | ⟨entry, _, _, rfl⟩
    · exact source shown visible plain
    · contradiction
  · obtain ⟨expression, _, rfl⟩ := Renaming.computed?_eq_some.1 computed
    contradiction

/-- Every visible attribute of a reachable expression is derived or a column. -/
theorem Reachable.readsColumns {e : Expression} (reached : Reachable sessions e) :
    e.ReadsColumns := by
  induction reached with
  | table _ built =>
      obtain ⟨heading, _, rfl⟩ := Expression.ofTable_ok built
      exact Expression.readsColumns_of_eq rfl
  | restrict _ _ built ih =>
      exact Expression.restrict_preserves built ih (Expression.readsColumns_of_eq rfl) fun _ _ => id
  | restrictDirectly _ _ built ih =>
      exact Expression.restrictDirectly_preserves built ih fun _ => id
  | join _ _ built first second => exact (Expression.joinAs_ok built).readsColumns first second
  | project _ built ih =>
      obtain ⟨selection, projects⟩ := Expression.projectItems_ok built
      exact projects.readsColumns ih
  | aggregate _ _ built _ _ =>
      obtain ⟨joined, _, _, _, _, _, _, _, rfl⟩ := Expression.aggregateItems_ok built
      exact Expression.readsColumns_of_eq rfl
  | groupOver _ built _ =>
      obtain ⟨heading, _, rfl⟩ := Expression.groupOver_ok built
      exact Expression.readsColumns_of_eq rfl
  | union _ _ built _ _ =>
      obtain ⟨_, _, _, _, rfl⟩ := Expression.union_ok built
      exact Expression.readsColumns_of_eq rfl
  | subquery _ _ => exact Expression.readsColumns_of_eq rfl

/-- An expression without derived attributes shows nothing but columns. -/
theorem Expression.ReadsColumns.names_subset {e : Expression} (reads : e.ReadsColumns)
    (underived : e.heading.hasDerived = false) {name : String} (shown : name ∈ e.heading.names) :
    name ∈ e.columns.allNames := by
  obtain ⟨attr, inside, rfl⟩ := Heading.mem_names.1 shown
  exact reads attr inside (Heading.hasDerived_eq_false.1 underived attr inside)

/-- An attribute that is no column is derived. -/
theorem Expression.ReadsColumns.derived {e : Expression} (reads : e.ReadsColumns) {name : String}
    (shown : name ∈ e.heading.names) (absent : name ∉ e.columns.allNames) :
    name ∈ e.heading.derived := by
  obtain ⟨attr, inside, rfl⟩ := Heading.mem_names.1 shown
  refine Heading.mem_derived.2 ⟨attr, inside, ?_, rfl⟩
  cases expression : attr.expression with
  | none => exact absurd (reads attr inside expression) absent
  | some value => simp [Attribute.derived, expression]

/-- Without overlap the columns that both sides read are shown by both. -/
theorem Expression.overlaps_eq_false {left right : Expression} :
    left.overlaps right = false ↔ ∀ name ∈ left.columns.allNames, name ∈ right.columns.allNames →
      name ∈ left.heading.names ∧ name ∈ right.heading.names := by
  simp [Expression.overlaps, Heading.mem_common, and_comm]

/-- A natural join of the FROM clauses equates the columns that both have. -/
def Expression.Equates (first second : Expression) (name : String) : Prop :=
  name ∈ first.columns.allNames ∧ name ∈ second.columns.allNames

/-- A join reads this operand without a subquery. -/
def Expression.ReadDirectly (e : Expression) (overlapping : Bool) : Prop :=
  overlapping = false ∧ e.needsSubquery = false ∧ e.restrictions = []

/-- A derived attribute of `e` has the name of a column that `other` reads and does not show. -/
def Expression.Captures (e other : Expression) (overlapping : Bool) (name : String) : Prop :=
  name ∈ e.heading.derived ∧ name ∈ other.columns.allNames ∧ name ∉ other.heading.names ∧
    other.ReadDirectly overlapping

theorem Expression.joinOperand_of_direct {e : Expression} {overlapping : Bool}
    (direct : e.ReadDirectly overlapping) : e.joinOperand overlapping = e := by
  obtain ⟨apart, resolved, bare⟩ := direct
  simp [Expression.joinOperand, apart, resolved, bare]

theorem Expression.joinOperand_of_wrapped {e : Expression} {overlapping : Bool}
    (wrapped : ¬ e.ReadDirectly overlapping) : e.joinOperand overlapping = e.asSubquery := by
  rcases e.joinOperand_cases overlapping with subquery | ⟨_, direct⟩
  · exact subquery
  · exact absurd direct wrapped

theorem Expression.hasDerived_of_direct {e : Expression} {overlapping : Bool}
    (direct : e.ReadDirectly overlapping) : e.heading.hasDerived = false :=
  (needsSubquery_eq_false.1 direct.2.1).2.2

theorem Expression.not_captures_of_direct {e : Expression} {overlapping : Bool}
    (direct : e.ReadDirectly overlapping) (other : Expression) (name : String) :
    ¬ e.Captures other overlapping name :=
  fun captures => Heading.not_mem_derived (hasDerived_of_direct direct) name captures.1

/-- A wrapped operand meets the columns of one that is read directly in the shared attributes
and in the columns that its derived attributes capture. -/
theorem Expression.equates_wrapped {wrapped direct : Expression} {overlapping : Bool}
    (reads : wrapped.ReadsColumns) (others : direct.ReadsColumns)
    (bare : direct.ReadDirectly overlapping)
    (apart : ∀ name, name ∈ wrapped.columns.allNames → name ∈ direct.columns.allNames →
      name ∈ direct.heading.names) (name : String) :
    wrapped.asSubquery.Equates direct name ↔
      (name ∈ wrapped.heading.names ∧ name ∈ direct.heading.names) ∨
        wrapped.Captures direct overlapping name := by
  unfold Expression.Equates
  rw [allNames_asSubquery]
  constructor
  · rintro ⟨shown, column⟩
    by_cases common : name ∈ direct.heading.names
    · exact .inl ⟨shown, common⟩
    · have absent : name ∉ wrapped.columns.allNames := fun inside =>
        common (apart name inside column)
      exact .inr ⟨reads.derived shown absent, column, common, bare⟩
  · rintro (⟨shown, common⟩ | ⟨derived, column, _⟩)
    · exact ⟨shown, others.names_subset (hasDerived_of_direct bare) common⟩
    · obtain ⟨attr, inside, _, rfl⟩ := Heading.mem_derived.1 derived
      exact ⟨Heading.mem_names.2 ⟨attr, inside, rfl⟩, column⟩

/-- A join equates the shared attributes and the captured columns. -/
theorem Expression.equates_joined {left right : Expression} (first : left.ReadsColumns)
    (second : right.ReadsColumns) (name : String) :
    (left.joinedLeft right).Equates (left.joinedRight right) name ↔
      (name ∈ left.heading.names ∧ name ∈ right.heading.names) ∨
        left.Captures right (left.overlaps right) name ∨
          right.Captures left (left.overlaps right) name := by
  unfold Expression.joinedLeft Expression.joinedRight
  have shared : left.overlaps right = false → _ := overlaps_eq_false.1
  generalize left.overlaps right = overlapping at shared ⊢
  -- at most one operand that is read directly can meet a wrapped one
  by_cases leftDirect : left.ReadDirectly overlapping
  · rw [joinOperand_of_direct leftDirect]
    have leftCaptures := not_captures_of_direct leftDirect right name
    by_cases rightDirect : right.ReadDirectly overlapping
    · rw [joinOperand_of_direct rightDirect]
      have rightCaptures := not_captures_of_direct rightDirect left name
      rw [or_iff_left (not_or.2 ⟨leftCaptures, rightCaptures⟩)]
      constructor
      · exact fun ⟨column, other⟩ => shared leftDirect.1 name column other
      · exact fun ⟨shown, other⟩ =>
          ⟨first.names_subset (hasDerived_of_direct leftDirect) shown,
            second.names_subset (hasDerived_of_direct rightDirect) other⟩
    · rw [joinOperand_of_wrapped rightDirect, or_iff_right leftCaptures, Equates, and_comm,
        and_comm (a := name ∈ left.heading.names)]
      exact equates_wrapped second first leftDirect
        (fun name column other => (shared leftDirect.1 name other column).1) name
  · rw [joinOperand_of_wrapped leftDirect]
    have rightCaptures : ¬ right.Captures left overlapping name := fun captures =>
      leftDirect captures.2.2.2
    rw [or_iff_left rightCaptures]
    by_cases rightDirect : right.ReadDirectly overlapping
    · rw [joinOperand_of_direct rightDirect]
      exact equates_wrapped first second rightDirect
        (fun name column other => (shared rightDirect.1 name column other).2) name
    · have leftCaptures : ¬ left.Captures right overlapping name := fun captures =>
        rightDirect captures.2.2.2
      rw [joinOperand_of_wrapped rightDirect, or_iff_left leftCaptures, Equates,
        allNames_asSubquery, allNames_asSubquery]

/-- Both headings show an attribute of this name and the two are homologous. -/
def Heading.HomologousAt (first second : Heading) (name : String) : Prop :=
  ∃ attr other, first.get? name = some attr ∧ second.get? name = some other ∧
    attr.Homologous other

theorem Heading.homologousAt {first second : Heading} (checked : first.homologous second = .ok ())
    {name : String} (shown : name ∈ first.names) (shared : name ∈ second.names) :
    first.HomologousAt second name := by
  obtain ⟨attr, inside, rfl⟩ := mem_names.1 shown
  obtain ⟨other, member, same⟩ := mem_names.1 shared
  have found : second.get? attr.name = some other := get?_eq_some.2 ⟨member, same⟩
  exact ⟨attr, other, get?_eq_some.2 ⟨inside, rfl⟩, found,
    homologous_eq_ok.1 checked attr inside other found⟩

/-- A join equates exactly the shared attributes if and only if no derived attribute captures a
column, and a checked join equates homologous attributes wherever nothing is captured. -/
theorem Expression.joinAs_equates_shared_iff {left right result : Expression} {mode : JoinMode}
    (first : Reachable sessions left) (second : Reachable sessions right)
    (built : left.joinAs right mode = .ok result) :
    ∃ storedLeft storedRight, result.operator = .join storedLeft storedRight mode.keepAll ∧
      ((∀ name, storedLeft.Equates storedRight name ↔
          name ∈ left.heading.names ∧ name ∈ right.heading.names) ↔
        ∀ name, ¬ left.Captures right (left.overlaps right) name ∧
          ¬ right.Captures left (left.overlaps right) name) ∧
      (mode.checked = true → ∀ name, storedLeft.Equates storedRight name →
        left.heading.HomologousAt right.heading name ∨
          left.Captures right (left.overlaps right) name ∨
            right.Captures left (left.overlaps right) name) := by
  have joins := joinAs_ok built
  have equates := equates_joined first.readsColumns second.readsColumns
  refine ⟨left.joinedLeft right, left.joinedRight right, joins.operator, ?_, ?_⟩
  · constructor
    · intro precise name
      constructor
      · intro captures
        have shown := (precise name).1 ((equates name).2 (.inr (.inl captures)))
        exact captures.2.2.1 shown.2
      · intro captures
        have shown := (precise name).1 ((equates name).2 (.inr (.inr captures)))
        exact captures.2.2.1 shown.1
    · intro free name
      rw [equates name, or_iff_left (not_or.2 (free name))]
  · intro checked name equated
    rcases (equates name).1 equated with ⟨shown, shared⟩ | captured
    · exact .inl (Heading.homologousAt (joins.homologous checked) shown shared)
    · exact .inr captured

/-- A computed label captures nothing, so the join equates what both operands show. -/
theorem Expression.joinAs_equates_shared_of_label :
    ∃ left right result storedLeft storedRight,
      Reachable (· = laboratory) left ∧ Reachable (· = laboratory) right ∧
      left.joinAs right ⟨false, true, true⟩ = .ok result ∧
      result.operator = .join storedLeft storedRight false ∧
      ∀ name, storedLeft.Equates storedRight name ↔
        name ∈ left.heading.names ∧ name ∈ right.heading.names := by
  have subjects := @Reachable.table (· = laboratory) laboratory subjectDeclaration _ rfl rfl
  have labelled := @Reachable.project (· = laboratory) _ _ []
    (Renames.ofList [("label", "upper(species)")]) true subjects rfl
  have entries := @Reachable.table (· = laboratory) laboratory logDeclaration _ rfl rfl
  obtain ⟨storedLeft, storedRight, stored, precise, _⟩ :=
    @joinAs_equates_shared_iff (· = laboratory) _ _ _ ⟨false, true, true⟩ labelled entries rfl
  refine ⟨_, _, _, storedLeft, storedRight, labelled, entries, rfl, stored, precise.2 ?_⟩
  intro name
  constructor
  · rintro ⟨derived, column, _⟩
    have label : name = "label" := List.mem_singleton.1 derived
    rw [label] at column
    revert column
    decide +kernel
  · rintro ⟨derived, _⟩
    contradiction

/-- A computed tag captures the hidden tag of the other operand. -/
theorem Expression.joinAs_equates_hidden_tag :
    ∃ left right result storedLeft storedRight,
      Reachable (· = laboratory) left ∧ Reachable (· = laboratory) right ∧
      left.joinAs right ⟨false, true, true⟩ = .ok result ∧
      result.operator = .join storedLeft storedRight false ∧
      storedLeft.Equates storedRight "tag" ∧ "tag" ∉ right.heading.names := by
  have subjects := @Reachable.table (· = laboratory) laboratory subjectDeclaration _ rfl rfl
  have tagged := @Reachable.project (· = laboratory) _ _ []
    (Renames.ofList [("tag", "upper(species)")]) true subjects rfl
  have entries := @Reachable.table (· = laboratory) laboratory logDeclaration _ rfl rfl
  refine ⟨_, _, _, _, _, tagged, entries, rfl, rfl, ?_, ?_⟩
  · unfold Equates
    decide +kernel
  · decide +kernel

end QueryAlgebra
