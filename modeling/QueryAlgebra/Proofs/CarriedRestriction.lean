/-
This file compares the condition of a projection in place with that of its source.
The two are the same unless a new name is one that the carried restriction asks for.
-/
import QueryAlgebra.Proofs.AwaitedNames

namespace QueryAlgebra

variable {sessions : Session → Prop} {e result : Expression} {items : List ProjectionItem}
  {renames : Renames} {keepKey : Bool} {selection : Selection}

/-- An expression is no subquery of itself. -/
theorem Expression.operator_asSubquery_ne (e : Expression) :
    e.asSubquery.operator ≠ e.operator := by
  intro same
  have wrapped : e.operator = .subquery e := same.symm
  have below : sizeOf e.operator < sizeOf e := by
    cases e
    simp only [Expression.mk.sizeOf_spec]
    omega
  rw [wrapped, Operator.subquery.sizeOf_spec] at below
  omega

theorem Expression.asSubquery_ne (e : Expression) : e.asSubquery ≠ e :=
  fun same => e.operator_asSubquery_ne (congrArg Expression.operator same)

/-- Where a restriction leaves the operator as it is, nothing is wrapped before it is recorded. -/
theorem Expression.record_of_same_operator {restriction : Restriction}
    (built : e.restrict restriction = .ok result) (same : result.operator = e.operator) :
    result = e ∨ ∃ mentioned, result = e.record restriction mentioned := by
  obtain ⟨compiled, _, ⟨_, rfl⟩ | ⟨_, rfl⟩⟩ := Expression.restrict_ok built
  · exact .inl rfl
  · rcases e.restrictedSource_cases with wrapped | ⟨direct, _⟩
    · rw [wrapped] at same
      exact absurd same e.operator_asSubquery_ne
    · exact .inr ⟨compiled.columns, by rw [direct]⟩

/-- Selected attributes stay what they are, and the other names that are not new stay unknown. -/
theorem Heading.agreesAt_of_projectKeyed {heading projected : Heading} {selected : List String}
    (built : heading.projectKeyed selected renames keepKey = .ok projected) {name : String}
    (kept : name ∈ heading.names → name ∈ selected) (old : name ∉ renames.names) :
    heading.AgreesAt projected name := by
  by_cases shown : name ∈ heading.names
  · obtain ⟨attr, inside, rfl⟩ := mem_names.1 shown
    refine .inr ⟨attr, _, get?_eq_some.2 ⟨inside, rfl⟩,
      get?_of_projectKeyed built inside (kept shown), rfl, rfl, ?_⟩
    intro key
    simp [key]
  · refine .inl ⟨shown, fun present => ?_⟩
    obtain ⟨image, images, _⟩ := bind_eq_ok.1 built
    exact shown (selected_of_project images
      ((mem_names_of_projectKeyed built present).resolve_right old))

/-- A projection in place keeps the attributes that its source is restricted by. -/
theorem Expression.Projects.inPlace (projects : e.Projects items renames keepKey selection result)
    (direct : result.operator = .projection e) :
    e.projectedSource selection.selected renames keepKey = e ∧ e.needsSubquery = false ∧
      ∀ name ∈ e.restricting, name ∈ e.heading.names → name ∈ selection.selected := by
  have same : e.projectedSource selection.selected renames keepKey = e := by
    rw [projects.operator] at direct
    injection direct
  rcases e.projectedSource_cases selection.selected renames keepKey with wrapped | kept
  · exact absurd (wrapped.symm.trans same) e.asSubquery_ne
  · exact ⟨same, kept.2.1, kept.2.2.2⟩

/-- In place, the names that are not new stay what they are or stay unknown. -/
theorem Expression.Projects.agreesOn (projects : e.Projects items renames keepKey selection result)
    (direct : result.operator = .projection e) {leaves : List Restriction}
    (recorded : ∀ name, Mentioned e.heading leaves name → name ∈ e.restricting)
    (old : ∀ name ∈ renames.names, ∀ leaf ∈ leaves, name ∉ leaf.leafAwaited) :
    e.heading.AgreesOn result.heading leaves := by
  obtain ⟨same, _, kept⟩ := projects.inPlace direct
  have heading := projects.heading
  rw [same] at heading
  intro leaf inside name awaited
  apply Heading.agreesAt_of_projectKeyed heading
  · intro shown
    exact kept name (recorded name ⟨leaf, inside, .inr ⟨awaited, shown⟩⟩) shown
  · intro new
    exact old name new leaf inside awaited

/-- The stored restrictions compile and mention only what is recorded and visible. -/
def Expression.Carries (e : Expression) : Prop :=
  ∀ restriction ∈ e.restrictions,
    restriction.Compiles (e.scope e.session.config.semanticCheck) ∧
      ∀ name, Mentioned e.heading restriction.leaves name →
        name ∈ e.restricting ∧ name ∈ e.heading.names

theorem Expression.carries_of_bare (bare : e.restrictions = []) : e.Carries := by
  intro restriction inside
  rw [bare] at inside
  contradiction

/-- An accepted restriction compiles and mentions what the check found. -/
theorem Expression.compiles_of_validate {restriction : Restriction} {compiled : Compiled}
    (accepted : e.validate restriction = .ok compiled) :
    restriction.Compiles (e.scope e.session.config.semanticCheck) ∧
      ∀ name, Mentioned e.heading restriction.leaves name →
        name ∈ compiled.columns ∧ name ∈ e.heading.names := by
  obtain ⟨first, shown⟩ := validate_ok accepted
  have run : (restriction.compile (e.scope e.session.config.semanticCheck) false).Yields
      AliasCount.zero compiled
      ((restriction.compile (e.scope e.session.config.semanticCheck) false).runFrom
        AliasCount.zero).2 := Prod.ext first rfl
  refine ⟨⟨_, _, run⟩, fun name mentioned => ?_⟩
  have inside := (restriction.mem_columns_of_compile _ name run).2 mentioned
  exact ⟨inside, shown name inside⟩

/-- A recorded restriction adds members that compile and whose columns are recorded. -/
theorem Expression.Carries.record (carries : e.Carries)
    {restriction : Restriction} {mentioned : NameSet}
    (compiles : restriction.Compiles (e.scope e.session.config.semanticCheck))
    (columns : ∀ name, Mentioned e.heading restriction.leaves name →
      name ∈ mentioned ∧ name ∈ e.heading.names) :
    (e.record restriction mentioned).Carries := by
  intro other inside
  rcases mem_of_appendRestriction inside with before | added
  · obtain ⟨old, known⟩ := carries other before
    refine ⟨old, fun name found => ?_⟩
    obtain ⟨recorded, shown⟩ := known name found
    exact ⟨(NameSet.mem_union _ _ name).2 (.inl recorded), shown⟩
  · refine ⟨compiles.member added, fun name found => ?_⟩
    obtain ⟨leaf, below, reason⟩ := found
    have whole : Mentioned e.heading restriction.leaves name :=
      ⟨leaf, Restriction.leaves_of_members added below, reason⟩
    obtain ⟨recorded, shown⟩ := columns name whole
    exact ⟨(NameSet.mem_union _ _ name).2 (.inr recorded), shown⟩

/-- A subquery shows the same attributes as columns. -/
theorem Heading.agreesAt_asColumns (heading : Heading) (name : String) :
    heading.AgreesAt heading.asColumns.visiblePart name := by
  by_cases shown : name ∈ heading.names
  · obtain ⟨attr, inside, rfl⟩ := mem_names.1 shown
    have column : attr.asColumn ∈ heading.asColumns.visiblePart.visible := by
      rw [visible_visiblePart, visible_asColumns]
      exact List.mem_map_of_mem inside
    exact .inr ⟨attr, attr.asColumn, get?_eq_some.2 ⟨inside, rfl⟩,
      get?_eq_some.2 ⟨column, rfl⟩, rfl, rfl, id⟩
  · refine .inl ⟨shown, ?_⟩
    rwa [names_asColumns]

/-- A restriction that compiles also compiles behind a subquery. -/
theorem Restriction.Compiles.asSubquery {checked : Bool} {restriction : Restriction}
    (compiles : restriction.Compiles (e.scope checked)) :
    restriction.Compiles (e.asSubquery.scope checked) := by
  obtain ⟨compiled, later, run⟩ := compiles
  exact ⟨compiled, later, restriction.compile_agrees e.session checked
    (fun _ _ name _ => e.heading.agreesAt_asColumns name) run⟩

/-- An accepted restriction is carried by the expression that it is recorded on. -/
theorem Expression.carries_of_restrict {restriction : Restriction} {compiled : Compiled}
    (accepted : e.validate restriction = .ok compiled)
    (carries : e.operator.isGrouping = false → e.heading.hasDerived = false → e.Carries)
    (resolved : e.restrictedSource.operator.isGrouping = false) :
    (e.restrictedSource.record restriction compiled.columns).Carries := by
  obtain ⟨compiles, columns⟩ := compiles_of_validate accepted
  rcases e.restrictedSource_cases with wrapped | ⟨direct, grouping | underived⟩
  · -- the check read the heading before the subquery, which shows the same names
    rw [wrapped]
    refine (carries_of_bare e.restrictions_asSubquery).record compiles.asSubquery ?_
    rintro name ⟨leaf, below, reason⟩
    rw [e.names_asSubquery] at reason ⊢
    exact columns name ⟨leaf, below, reason⟩
  · rw [direct, grouping] at resolved
    contradiction
  · rw [direct] at resolved ⊢
    exact (carries resolved underived).record compiles columns

/-- A projection in place that gives no new names carries what its source carries. -/
theorem Expression.Projects.carries (projects : e.Projects items renames keepKey selection result)
    (direct : result.operator = .projection e) (underived : result.heading.hasDerived = false)
    (carries : e.Carries) : result.Carries := by
  obtain ⟨same, _, kept⟩ := projects.inPlace direct
  have restrictions := projects.restrictions
  have restricting := projects.restricting
  have heading := projects.heading
  rw [same] at restrictions restricting heading
  intro restriction inside
  rw [restrictions] at inside
  obtain ⟨⟨original, later, run⟩, recorded⟩ := carries restriction inside
  have agrees : e.heading.AgreesOn result.heading restriction.leaves :=
    projects.agreesOn direct (fun name found => (recorded name found).1) (by
      rw [Heading.names_eq_nil_of_projectKeyed heading underived]
      simp)
  refine ⟨⟨original, later, ?_⟩, fun name found => ?_⟩
  · rw [scope, projects.session]
    exact restriction.compile_agrees e.session _ agrees run
  · obtain ⟨known, shown⟩ := recorded name ((agrees.mentioned_iff name).2 found)
    rw [restricting]
    refine ⟨known, ?_⟩
    obtain ⟨attr, visible, rfl⟩ := Heading.mem_names.1 shown
    have projected := Heading.get?_of_projectKeyed heading visible (kept attr.name known shown)
    exact Heading.mem_names.2 ⟨_, Heading.get?_eq_some.1 projected⟩

/-- What a resolved expression is restricted by compiles against its own heading. -/
theorem Reachable.carries (reached : Reachable sessions e)
    (resolved : e.operator.isGrouping = false) (underived : e.heading.hasDerived = false) :
    e.Carries := by
  induction reached with
  | table _ built =>
      obtain ⟨heading, _, rfl⟩ := Expression.ofTable_ok built
      exact Expression.carries_of_bare rfl
  | @restrict e _ restriction _ _ built ih =>
      obtain ⟨compiled, accepted, ⟨_, rfl⟩ | ⟨_, rfl⟩⟩ := Expression.restrict_ok built
      · exact ih resolved underived
      · exact Expression.carries_of_restrict accepted ih resolved
  | @restrictDirectly e _ restriction _ _ built ih =>
      obtain ⟨compiled, accepted, ⟨_, rfl⟩ | ⟨_, rfl, _⟩⟩ := Expression.restrictDirectly_ok built
      · exact ih resolved underived
      · obtain ⟨compiles, columns⟩ := Expression.compiles_of_validate accepted
        exact (ih resolved underived).record compiles columns
  | join _ _ built _ _ =>
      exact Expression.carries_of_bare (Expression.joinAs_ok built).restrictions
  | @project e result items renames keepKey _ built ih =>
      obtain ⟨selection, projects⟩ := Expression.projectItems_ok built
      rcases e.projectedSource_cases selection.selected renames keepKey with
        wrapped | ⟨same, source, _⟩
      · refine Expression.carries_of_bare ?_
        rw [projects.restrictions, wrapped, Expression.restrictions_asSubquery]
      · have direct : result.operator = .projection e := by rw [projects.operator, same]
        obtain ⟨ungrouped, _, columns⟩ := Expression.needsSubquery_eq_false.1 source
        exact projects.carries direct underived (ih ungrouped columns)
  | aggregate _ _ built _ _ =>
      obtain ⟨joined, _, _, _, _, _, _, _, rfl⟩ := Expression.aggregateItems_ok built
      exact Expression.carries_of_bare rfl
  | groupOver _ built _ =>
      obtain ⟨heading, _, rfl⟩ := Expression.groupOver_ok built
      exact Expression.carries_of_bare rfl
  | union _ _ built _ _ =>
      obtain ⟨_, _, _, _, rfl⟩ := Expression.union_ok built
      exact Expression.carries_of_bare rfl
  | subquery _ _ => exact Expression.carries_of_bare rfl

/-- What an expression is restricted by, compiled against its own heading. -/
def Expression.compiledRestriction (e : Expression) (checked : Bool) : Rendering Compiled :=
  (Restriction.conjunction e.restrictions).compile (e.scope checked) false

/-- The condition of an expression is that of its compiled restriction. -/
theorem Expression.condition_eq_compiledRestriction (e : Expression) (checked : Bool) :
    e.condition checked =
      (e.compiledRestriction checked >>= fun compiled => pure compiled.condition) := by
  obtain ⟨session, operator, heading, columns, restrictions, restricting, distinct⟩ := e
  simp only [condition, compiledRestriction, scope, Restriction.compile, bind_assoc, pure_bind]

/-- The names that the restriction of an expression asks for. -/
def Expression.awaited (e : Expression) : List String :=
  (Restriction.conjunction e.restrictions).awaited

theorem Expression.Carries.compiles (carries : e.Carries) :
    (Restriction.conjunction e.restrictions).Compiles
      (e.scope e.session.config.semanticCheck) :=
  Restriction.compiles_conjunction.2 fun restriction inside => (carries restriction inside).1

theorem Expression.Carries.mentioned (carries : e.Carries) {name : String}
    (found : Mentioned e.heading (Restriction.conjunction e.restrictions).leaves name) :
    name ∈ e.restricting ∧ name ∈ e.heading.names := by
  rw [Restriction.leaves] at found
  obtain ⟨leaf, below, reason⟩ := found
  obtain ⟨restriction, inside, below⟩ := mem_leavesOfAll.1 below
  exact (carries restriction inside).2 name ⟨leaf, below, reason⟩

/-- A projection in place keeps the compiled restriction of its source if and only if no new
name is one that the restriction asks for. The source's own restriction always compiles and
mentions none of the new names. -/
theorem Expression.projectItems_keeps_condition_iff (reached : Reachable sessions e)
    (built : e.projectItems items renames keepKey = .ok result)
    (direct : result.operator = .projection e) :
    (∀ count, ∃ compiled later,
        (e.compiledRestriction e.session.config.semanticCheck).Yields count compiled later) ∧
      (∀ checked count compiled later,
        (e.compiledRestriction checked).Yields count compiled later →
          ∀ name ∈ renames.names, name ∉ compiled.columns) ∧
      ((∀ checked count compiled later,
          (e.compiledRestriction checked).Yields count compiled later →
            (result.compiledRestriction checked).Yields count compiled later) ↔
        ∀ name ∈ renames.names, name ∉ e.awaited) := by
  obtain ⟨selection, projects⟩ := projectItems_ok built
  obtain ⟨same, source, kept⟩ := projects.inPlace direct
  obtain ⟨resolved, _, underived⟩ := needsSubquery_eq_false.1 source
  have carries := reached.carries resolved underived
  have heading := projects.heading
  have restrictions := projects.restrictions
  rw [same] at heading restrictions
  have apart : ∀ name ∈ renames.names,
      ¬ Mentioned e.heading (Restriction.conjunction e.restrictions).leaves name := by
    intro name new found
    obtain ⟨known, shown⟩ := carries.mentioned found
    exact Heading.not_selected_of_new heading underived new (kept name known shown)
  refine ⟨(Restriction.compiles_iff · |>.1 carries.compiles), ?_, ?_⟩
  · intro checked count compiled later run name new inside
    exact apart name new ((Restriction.mem_columns_of_compile _ name _ run).1 inside)
  · constructor
    · -- a new name that is asked for is a column of the result's condition only
      intro keeps name new asked
      obtain ⟨compiled, later, run⟩ := carries.compiles
      have again := keeps _ _ _ _ run
      obtain ⟨leaf, below, awaited⟩ := List.mem_flatMap.1 asked
      obtain ⟨attr, visible, named, _⟩ := Heading.exists_of_new_name heading new
      have shown : name ∈ result.heading.names := Heading.mem_names.2 ⟨attr, visible, named⟩
      unfold compiledRestriction at again
      rw [restrictions] at again
      have inside := (Restriction.mem_columns_of_compile _ name _ again).2
        ⟨leaf, below, .inr ⟨awaited, shown⟩⟩
      exact apart name new ((Restriction.mem_columns_of_compile _ name _ run).1 inside)
    · intro free checked count compiled later run
      have agrees : e.heading.AgreesOn result.heading
          (Restriction.conjunction e.restrictions).leaves := by
        apply projects.agreesOn direct
        · exact fun name found => (carries.mentioned found).1
        · intro name new leaf below awaited
          exact free name new (List.mem_flatMap.2 ⟨leaf, below, awaited⟩)
      unfold compiledRestriction
      rw [restrictions, scope, projects.session]
      exact Restriction.compile_agrees e.session checked _ agrees run

/-- A new name that the restriction does not ask for leaves the condition as it was. -/
theorem Expression.projectItems_keeps_condition_of_species :
    ∃ e result, Reachable (· = laboratory) e ∧
      e.projectItems [.named "species"] (Renames.ofList [("kind", "upper(sex)")]) true =
        .ok result ∧
      result.operator = .projection e ∧ e.restrictions ≠ [] ∧
      ∀ checked count compiled later,
        (e.compiledRestriction checked).Yields count compiled later →
          (result.compiledRestriction checked).Yields count compiled later := by
  have subjects := @Reachable.table (· = laboratory) laboratory subjectDeclaration _ rfl rfl
  have mice := @Reachable.restrict (· = laboratory) _ _
    (.mapping [("species", .string "mouse"), ("colour", .string "grey")]) subjects (by
      simp [Restriction.partners]) rfl
  have kept := @projectItems_keeps_condition_iff (· = laboratory) _ _ [.named "species"]
    (Renames.ofList [("kind", "upper(sex)")]) true mice rfl
  refine ⟨_, _, mice, rfl, rfl, List.cons_ne_nil _ _, (kept rfl).2.2.2 ?_⟩
  decide +kernel

/-- A new name takes part in the condition when the restriction asks for it. -/
theorem Expression.projectItems_changes_condition_of_kind :
    ∃ e result compiled later again, Reachable (· = laboratory) e ∧
      e.projectItems [.named "species"] (Renames.ofList [("kind", "upper(sex)")]) true =
        .ok result ∧
      result.operator = .projection e ∧
      (e.compiledRestriction true).Yields AliasCount.zero compiled later ∧
      (result.compiledRestriction true).Yields AliasCount.zero again later ∧
      "kind" ∉ compiled.columns ∧ "kind" ∈ again.columns := by
  have subjects := @Reachable.table (· = laboratory) laboratory subjectDeclaration _ rfl rfl
  have mice := @Reachable.restrict (· = laboratory) _ _
    (.mapping [("species", .string "mouse"), ("kind", .string "x")]) subjects (by
      simp [Restriction.partners]) rfl
  refine ⟨_, _, _, _, _, mice, rfl, rfl, rfl, rfl, ?_, ?_⟩
  · decide +kernel
  · decide +kernel

end QueryAlgebra
