/-
This file shows that the names a statement relies on are columns of its FROM clause.
New names of attributes refer to such columns, and conditions mention what is shown.
-/
import QueryAlgebra.Proofs.CarriedRestriction
import QueryAlgebra.Proofs.GivenNames

namespace QueryAlgebra

variable {sessions : Session → Prop}

/-- Columns that are shown stand in the FROM clause, and restrictions mention what is shown.
Except on groups, what they mention stands in the FROM clause too. -/
structure Expression.InScope (e : Expression) : Prop where
  columns : ∀ attr ∈ e.heading.visible, attr.expression = none → attr.name ∈ e.originNames
  visible : ∀ name ∈ e.restricting, name ∈ e.heading.names
  resolved : e.operator.isGrouping = false →
    ∀ name ∈ e.restricting, name ∉ e.heading.derived ∧ name ∈ e.originNames
  bare : e.restrictions = [] → e.restricting = NameSet.empty

/-- Nothing but columns has to be looked up where nothing restricts. -/
theorem Expression.inScope_of_unrestricted {e : Expression}
    (free : e.restricting = NameSet.empty)
    (columns : ∀ attr ∈ e.heading.visible, attr.expression = none → attr.name ∈ e.originNames) :
    e.InScope where
  columns := columns
  visible := fun name inside => absurd (free ▸ inside) (NameSet.not_mem_empty name)
  resolved := fun _ name inside => absurd (free ▸ inside) (NameSet.not_mem_empty name)
  bare := fun _ => free

/-- Bare expressions whose columns are their attributes have all names in scope. -/
theorem Expression.inScope_plain (session : Session) {operator : Operator} (heading : Heading)
    (ungrouped : operator.isGrouping = false) :
    (Expression.plain session operator heading heading).InScope := by
  refine inScope_of_unrestricted rfl fun attr inside _ => ?_
  rw [originNames_of_ungrouped ungrouped]
  exact Heading.mem_allNames.2 ⟨attr, (Heading.mem_visible.1 inside).1, rfl⟩

theorem Expression.inScope_asSubquery (e : Expression) : e.asSubquery.InScope :=
  inScope_plain e.session _ rfl

mutual

/-- A restriction without members always holds. -/
theorem Restriction.condition_of_no_members (scope : Scope) :
    ∀ (restriction : Restriction) {negated : Bool} {count later : AliasCount}
      {compiled : Compiled}, restriction.members = [] →
      (restriction.compile scope negated).Yields count compiled later →
      compiled.condition = .constant !negated
  | .conjunction items => by
      intro none yields
      rw [Restriction.members] at none
      obtain ⟨parts, inside, rfl⟩ := Restriction.yields_conjunction.1 yields
      have all := conditions_of_no_members scope items none inside
      have conditions : parts.map (·.condition) =
          List.replicate parts.length (.constant true) :=
        List.eq_replicate_iff.2 ⟨List.length_map _, List.forall_mem_map.2 all⟩
      have formulas : (List.replicate parts.length (Condition.constant true)).filterMap
          Condition.formula? = [] := by
        rw [List.filterMap_replicate]
        rfl
      have decided : (List.replicate parts.length (Condition.constant true)).any
          (Condition.isConstant false) = false := by
        simp [Condition.isConstant]
      show Condition.conjunction _ (parts.map (·.condition)) = _
      rw [conditions, Condition.conjunction, decided, formulas, if_neg Bool.false_ne_true]
  | .constant _ => by simp [Restriction.members]
  | .raw _ => by simp [Restriction.members]
  | .mapping _ => by simp [Restriction.members]
  | .record _ => by simp [Restriction.members]
  | .disjunction _ => by simp [Restriction.members]
  | .negation _ => by simp [Restriction.members]
  | .semijoin _ _ => by simp [Restriction.members]
  | .universal _ => by simp [Restriction.members]

theorem conditions_of_no_members (scope : Scope) :
    ∀ (items : List Restriction) {count later : AliasCount} {parts : List Compiled},
      membersOfAll items = [] → (compileAll scope items).Yields count parts later →
      ∀ part ∈ parts, part.condition = .constant true
  | [] => by
      intro _ yields part inside
      rw [compileAll, Rendering.yields_pure] at yields
      rw [← yields.1] at inside
      contradiction
  | first :: rest => by
      intro none yields part inside
      rw [membersOfAll, List.append_eq_nil_iff] at none
      obtain ⟨head, between, others, start, tail, rfl⟩ := yields_compileAll_cons.1 yields
      rcases List.mem_cons.1 inside with rfl | inside
      · exact Restriction.condition_of_no_members scope first none.1 start
      · exact conditions_of_no_members scope rest none.2 tail part inside

end

/-- A restriction that can fail adds a member to what an expression is restricted by. -/
theorem Expression.restrictions_record_ne_nil {e source : Expression}
    {restriction : Restriction} {compiled : Compiled}
    (accepted : e.validate restriction = .ok compiled)
    (fails : compiled.condition.isConstant true = false) (mentioned : NameSet) :
    (source.record restriction mentioned).restrictions ≠ [] := by
  intro none
  obtain ⟨run, _⟩ := validate_ok accepted
  have yields : (restriction.compile (e.scope e.session.config.semanticCheck) false).Yields
      AliasCount.zero compiled _ := Prod.ext run rfl
  have members := members_eq_nil_of_appendRestriction none
  rw [restriction.condition_of_no_members _ members yields] at fails
  contradiction

/-- A restriction on shown names that are no derived attributes keeps all names in scope. -/
theorem Expression.InScope.record {e : Expression} (names : e.InScope)
    {restriction : Restriction} {mentioned : NameSet}
    (shown : ∀ name ∈ mentioned, name ∈ e.heading.names)
    (underived : e.operator.isGrouping = false → ∀ name ∈ mentioned, name ∉ e.heading.derived)
    (added : (e.record restriction mentioned).restrictions ≠ []) :
    (e.record restriction mentioned).InScope where
  columns := names.columns
  visible := by
    intro name inside
    rcases (NameSet.mem_union _ _ name).1 inside with old | new
    · exact names.visible name old
    · exact shown name new
  resolved := by
    intro ungrouped name inside
    rcases (NameSet.mem_union _ _ name).1 inside with old | new
    · exact names.resolved ungrouped name old
    · have plain := underived ungrouped name new
      obtain ⟨attr, visible, rfl⟩ := Heading.mem_names.1 (shown name new)
      refine ⟨plain, names.columns attr visible ?_⟩
      rw [← Option.not_isSome_iff_eq_none]
      exact fun derived => plain (Heading.mem_derived.2 ⟨attr, visible, derived, rfl⟩)
  bare := fun none => absurd none added

/-- An accepted restriction keeps all names in scope, behind a subquery if need be. -/
theorem Expression.inScope_of_restrict {e : Expression} {restriction : Restriction}
    {compiled : Compiled} (names : e.InScope)
    (accepted : e.validate restriction = .ok compiled)
    (fails : compiled.condition.isConstant true = false) :
    (e.restrictedSource.record restriction compiled.columns).InScope := by
  have shown := (validate_ok accepted).2
  have added : (e.restrictedSource.record restriction compiled.columns).restrictions ≠ [] :=
    restrictions_record_ne_nil accepted fails compiled.columns
  rcases e.restrictedSource_cases with wrapped | ⟨direct, source⟩
  · rw [wrapped] at added ⊢
    refine e.inScope_asSubquery.record (fun name inside => ?_) (fun _ name _ => ?_) added
    · rw [names_asSubquery]
      exact shown name inside
    · exact Heading.not_mem_derived e.heading.hasDerived_asColumns name
  · rw [direct] at added ⊢
    refine names.record shown (fun ungrouped name _ => ?_) added
    rcases source with grouping | columns
    · rw [grouping] at ungrouped
      contradiction
    · exact Heading.not_mem_derived columns name

/-- No restriction of a join operand mentions a name. -/
theorem Expression.InScope.restricting_joinOperand {e : Expression} (names : e.InScope)
    (overlapping : Bool) : (e.joinOperand overlapping).restricting = NameSet.empty := by
  rcases e.joinOperand_cases overlapping with wrapped | ⟨direct, _, _, bare⟩
  · rw [wrapped]
    rfl
  · rw [direct]
    exact names.bare bare

theorem Expression.Joins.inScope {left right result : Expression} {mode : JoinMode}
    (joins : left.Joins right mode result) (first : left.InScope) (second : right.InScope)
    (reads : result.ReadsColumns) : result.InScope := by
  have ungrouped : result.operator.isGrouping = false := by
    rw [joins.operator]
    rfl
  apply inScope_of_unrestricted
  · rw [joins.restricting, joinedLeft, joinedRight, first.restricting_joinOperand,
      second.restricting_joinOperand]
    rfl
  · rw [originNames_of_ungrouped ungrouped]
    exact reads

/-- A projection in place keeps the attributes that its source is restricted by. -/
theorem Expression.Projects.inScope {e result : Expression} {items : List ProjectionItem}
    {renames : Renames} {keepKey : Bool} {selection : Selection}
    (projects : e.Projects items renames keepKey selection result) (names : e.InScope)
    (reads : result.ReadsColumns) : result.InScope := by
  have ungrouped : result.operator.isGrouping = false := by
    rw [projects.operator]
    rfl
  have origin := originNames_of_ungrouped ungrouped
  rcases e.projectedSource_cases selection.selected renames keepKey with
    wrapped | ⟨direct, source, _, kept⟩
  · apply inScope_of_unrestricted
    · rw [projects.restricting, wrapped]
      rfl
    · rw [origin]
      exact reads
  · obtain ⟨resolved, _, columns⟩ := needsSubquery_eq_false.1 source
    have restricting := projects.restricting
    have restrictions := projects.restrictions
    have heading := projects.heading
    have same := projects.columns
    rw [direct] at restricting restrictions heading same
    -- what the source is restricted by is selected, so it is still the column that it was
    have remains : ∀ name ∈ result.restricting, ∃ attr ∈ result.heading.visible,
        attr.name = name ∧ attr.expression = none := by
      intro name inside
      rw [restricting] at inside
      have shown := names.visible name inside
      obtain ⟨attr, visible, rfl⟩ := Heading.mem_names.1 shown
      obtain ⟨member, named⟩ := Heading.get?_eq_some.1
        (Heading.get?_of_projectKeyed heading visible (kept attr.name inside shown))
      exact ⟨_, member, named, Heading.hasDerived_eq_false.1 columns attr visible⟩
    exact {
      columns := by rw [origin]; exact reads
      visible := fun name inside => by
        obtain ⟨attr, visible, named, _⟩ := remains name inside
        exact Heading.mem_names.2 ⟨attr, visible, named⟩
      resolved := fun _ name inside => by
        obtain ⟨attr, visible, rfl, plain⟩ := remains name inside
        refine ⟨fun derived => ?_, ?_⟩
        · obtain ⟨other, member, expressed, namesake⟩ := Heading.mem_derived.1 derived
          obtain rfl := Heading.eq_of_name (Heading.mem_visible.1 member).1
            (Heading.mem_visible.1 visible).1 namesake
          rw [Attribute.derived, plain] at expressed
          contradiction
        · rw [origin]
          exact reads attr visible plain
      bare := fun none => by
        rw [restricting]
        exact names.bare (restrictions ▸ none) }

/-- Every operator keeps all names in scope. -/
theorem Reachable.inScope {e : Expression} (reached : Reachable sessions e) : e.InScope := by
  induction reached with
  | table _ built =>
      obtain ⟨heading, _, rfl⟩ := Expression.ofTable_ok built
      exact Expression.inScope_plain _ heading rfl
  | restrict _ _ built ih =>
      obtain ⟨compiled, accepted, ⟨_, rfl⟩ | ⟨fails, rfl⟩⟩ := Expression.restrict_ok built
      · exact ih
      · exact Expression.inScope_of_restrict ih accepted fails
  | restrictDirectly _ _ built ih =>
      obtain ⟨compiled, accepted, ⟨_, rfl⟩ | ⟨fails, rfl, underived⟩⟩ :=
        Expression.restrictDirectly_ok built
      · exact ih
      · exact ih.record (Expression.validate_ok accepted).2 underived
          (Expression.restrictions_record_ne_nil accepted fails compiled.columns)
  | join first second built left right =>
      have joins := Expression.joinAs_ok built
      exact joins.inScope left right (Reachable.join first second built).readsColumns
  | project source built ih =>
      obtain ⟨selection, projects⟩ := Expression.projectItems_ok built
      exact projects.inScope ih (Reachable.project source built).readsColumns
  | aggregate first second built _ _ =>
      obtain ⟨joined, _, _, _, join, _, _, _, same⟩ := Expression.aggregateItems_ok built
      refine Expression.inScope_of_unrestricted ?_
        (Reachable.drawsFrom_of_aggregate first second join built).columns
      rw [same]
      rfl
  | groupOver source built _ =>
      obtain ⟨heading, _, same⟩ := Expression.groupOver_ok built
      refine Expression.inScope_of_unrestricted ?_
        (source.drawsFrom_of_groupOver built).columns
      rw [same]
      rfl
  | union _ _ built _ _ =>
      obtain ⟨_, _, _, _, rfl⟩ := Expression.union_ok built
      exact Expression.inScope_plain _ _ rfl
  | @subquery e _ _ => exact e.inScope_asSubquery

/-- A statement relies on columns of its FROM clause only. They are shown without an
expression, or derived attributes rename or copy them, or restrictions mention them. -/
theorem Reachable.names_inScope {e : Expression} (reached : Reachable sessions e) :
    e.InScope ∧
      (∀ name meaning, GivesName sessions e name meaning →
        (∃ attr ∈ e.heading.visible, attr.name = name ∧ attr.expression = some meaning.text) ∧
          ∀ origin, meaning.source? = some origin → origin ∈ e.originNames) ∧
      ∀ attr ∈ e.heading.visible, attr.derived = true →
        ∃ meaning, GivesName sessions e attr.name meaning :=
  ⟨reached.inScope, fun _ _ given => given.shown,
    fun _ inside derived => reached.givesName_of_derived inside derived⟩

/-- A copy of the sex of restricted subjects refers to a column of the table. -/
theorem Reachable.names_inScope_of_copy :
    ∃ e, Reachable (· = laboratory) e ∧ GivesName (· = laboratory) e "gender" (.copy "sex") ∧
      e.InScope ∧ "sex" ∈ e.originNames := by
  have subjects := @Reachable.table (· = laboratory) laboratory subjectDeclaration _ rfl rfl
  have mice := @Reachable.restrict (· = laboratory) _ _
    (.mapping [("species", .string "mouse")]) subjects (by simp [Restriction.partners]) rfl
  obtain ⟨result, built, reached⟩ := mice.exists_project [.named "species"]
    (Renames.ofList [("gender", "(sex)")]) true (by decide +kernel)
  have given : GivesName (· = laboratory) result "gender" (.copy "sex") := by
    convert GivesName.project mice built (List.mem_singleton_self ("gender", "(sex)")) using 1
    decide +kernel
  exact ⟨result, reached, given, reached.names_inScope.1,
    (reached.names_inScope.2.1 "gender" (.copy "sex") given).2 "sex" rfl⟩

end QueryAlgebra
