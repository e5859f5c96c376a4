/-
This file follows the new names that projections and groupings give.
They refer to columns of the FROM clause, and no other attribute is derived.
-/
import QueryAlgebra.Proofs.CarriedRestriction
import QueryAlgebra.Proofs.ClauseFlattening
import QueryAlgebra.Proofs.JoinColumns

namespace QueryAlgebra

variable {sessions : Session → Prop}

/-- The columns of the FROM clause that is rendered, for a grouping those of its source. -/
def Expression.originNames (e : Expression) : List String :=
  match e.operator with
  | .grouping source => source.columns.allNames
  | _ => e.columns.allNames

theorem Expression.originNames_of_ungrouped {e : Expression}
    (ungrouped : e.operator.isGrouping = false) : e.originNames = e.columns.allNames := by
  unfold originNames
  split
  · rename_i source grouping
    exact absurd grouping (Operator.isGrouping_eq_false.1 ungrouped source)
  · rfl

/-- A projection or a grouping gives new names to what an expression without derived
attributes shows, and reads from what that expression reads from. -/
structure Expression.DrawsFrom (result source : Expression) (renames : Renames) : Prop where
  reads : source.ReadsColumns
  underived : source.heading.hasDerived = false
  origin : result.originNames = source.columns.allNames
  heading : ∃ (keyed : Heading) (selected : List String),
    (∀ name, name ∈ keyed.names ↔ name ∈ source.heading.names) ∧
      (∀ attr ∈ keyed.visible, attr.expression = none) ∧
        keyed.Reshapes selected renames result.heading

section Drawing

variable {result source : Expression} {renames : Renames}

/-- What is shown without an expression is a column of the source. -/
theorem Expression.DrawsFrom.columns (draws : result.DrawsFrom source renames) :
    ∀ attr ∈ result.heading.visible, attr.expression = none → attr.name ∈ result.originNames := by
  intro attr inside plain
  obtain ⟨keyed, selected, names, _, reshapes⟩ := draws.heading
  obtain ⟨origin, visible, named, _⟩ := reshapes.origin inside plain
  rw [draws.origin]
  refine draws.reads.names_subset draws.underived ((names attr.name).1 ?_)
  exact Heading.mem_names.2 ⟨origin, visible, named⟩

/-- A new name has the expression of what it means, and what it takes over or copies is a
column. -/
theorem Expression.DrawsFrom.new_name (draws : result.DrawsFrom source renames)
    {name value : String} (entry : (name, value) ∈ renames.entries) :
    (∃ attr ∈ result.heading.visible, attr.name = name ∧
        attr.expression = some (source.heading.classify value).text) ∧
      ∀ origin, (source.heading.classify value).source? = some origin →
        origin ∈ result.originNames := by
  obtain ⟨keyed, selected, names, plain, reshapes⟩ := draws.heading
  constructor
  · obtain ⟨attr, visible, named, _, expressed⟩ := reshapes.exists_of_entry entry
    rw [← Heading.classify_congr names value]
    exact ⟨attr, visible, named, expressed plain⟩
  · intro origin moved
    rw [draws.origin]
    exact draws.reads.names_subset draws.underived (Heading.source_of_classify moved)

theorem Expression.DrawsFrom.entry_of_derived (draws : result.DrawsFrom source renames)
    {attr : Attribute} (inside : attr ∈ result.heading.visible) (derived : attr.derived = true) :
    ∃ value, (attr.name, value) ∈ renames.entries := by
  obtain ⟨keyed, selected, _, plain, reshapes⟩ := draws.heading
  exact reshapes.entry_of_derived plain inside derived

end Drawing

theorem Reachable.drawsFrom_of_project {e result : Expression} {items : List ProjectionItem}
    {renames : Renames} {keepKey : Bool} (reached : Reachable sessions e)
    (built : e.projectItems items renames keepKey = .ok result) :
    ∃ selected, result.DrawsFrom (e.projectedSource selected renames keepKey) renames := by
  obtain ⟨selection, projects⟩ := Expression.projectItems_ok built
  have underived := (Expression.needsSubquery_eq_false.1
    (e.needsSubquery_projectedSource selection.selected renames keepKey)).2.2
  have ungrouped : result.operator.isGrouping = false := by
    rw [projects.operator]
    rfl
  exact ⟨selection.selected, {
    reads := (reached.projectedSource selection.selected renames keepKey).readsColumns
    underived := underived
    origin := by rw [Expression.originNames_of_ungrouped ungrouped, projects.columns]
    heading := ⟨_, _, fun _ => Iff.rfl, Heading.hasDerived_eq_false.1 underived,
      Heading.reshapes_of_projectKeyed projects.heading⟩ }⟩

theorem Reachable.drawsFrom_of_aggregate {base group joined result : Expression}
    {items : List ProjectionItem} {renames : Renames} {keepAll : Bool}
    (first : Reachable sessions base) (second : Reachable sessions group)
    (join : base.joinAs group ⟨keepAll, base.session.config.semanticCheck, false⟩ = .ok joined)
    (built : base.aggregateItems group items renames keepAll = .ok result) :
    result.DrawsFrom joined renames := by
  obtain ⟨same, keyed, selection, heading, again, rekeyed, _, projected, rfl⟩ :=
    Expression.aggregateItems_ok built
  rw [join, Except.ok.injEq] at again
  subst again
  have underived := (Expression.needsSubquery_eq_false.1
    (Expression.flat_iff.1 (Expression.joinAs_ok join).flat)).2.2
  refine ⟨(Reachable.join first second join).readsColumns, underived, rfl, keyed, _,
    Heading.mem_names_rekey rekeyed, ?_, Heading.reshapes_of_project projected⟩
  intro attr inside
  obtain ⟨origin, visible, rfl⟩ := (Heading.mem_visible_rekey rekeyed).1 inside
  exact Heading.hasDerived_eq_false.1 underived origin visible

theorem Reachable.drawsFrom_of_groupOver {e result : Expression} {key : List String}
    {renames : Renames} (reached : Reachable sessions e)
    (built : e.groupOver key renames = .ok result) :
    result.DrawsFrom e.groupedSource renames := by
  obtain ⟨heading, projected, rfl⟩ := Expression.groupOver_ok built
  have underived := (Expression.needsSubquery_eq_false.1 e.needsSubquery_groupedSource).2.2
  exact {
    reads := reached.groupedSource.readsColumns
    underived := underived
    origin := rfl
    heading := ⟨_, _, fun _ => Iff.rfl, Heading.hasDerived_eq_false.1 underived,
      Heading.reshapes_of_project projected⟩ }

/-- The operator of an expression gave a name to what it moves, copies or computes, and only
restrictions without a subquery came after that. -/
inductive GivesName (sessions : Session → Prop) : Expression → String → Renaming → Prop where
  | project {e result : Expression} {items : List ProjectionItem} {renames : Renames}
      {keepKey : Bool} {name value : String} (source : Reachable sessions e)
      (built : e.projectItems items renames keepKey = .ok result)
      (entry : (name, value) ∈ renames.entries) :
      GivesName sessions result name (e.heading.classify value)
  | aggregate {base group joined result : Expression} {items : List ProjectionItem}
      {renames : Renames} {keepAll : Bool} {name value : String}
      (first : Reachable sessions base) (second : Reachable sessions group)
      (join : base.joinAs group ⟨keepAll, base.session.config.semanticCheck, false⟩ = .ok joined)
      (built : base.aggregateItems group items renames keepAll = .ok result)
      (entry : (name, value) ∈ renames.entries) :
      GivesName sessions result name (joined.heading.classify value)
  | groupOver {e result : Expression} {key : List String} {renames : Renames}
      {name value : String} (source : Reachable sessions e)
      (built : e.groupOver key renames = .ok result)
      (entry : (name, value) ∈ renames.entries) :
      GivesName sessions result name (e.heading.classify value)
  | restrict {e result : Expression} {restriction : Restriction} {name : String}
      {meaning : Renaming} (given : GivesName sessions e name meaning)
      (built : e.restrict restriction = .ok result) (same : result.operator = e.operator) :
      GivesName sessions result name meaning
  | restrictDirectly {e result : Expression} {restriction : Restriction} {name : String}
      {meaning : Renaming} (given : GivesName sessions e name meaning)
      (built : e.restrictDirectly restriction = .ok result) :
      GivesName sessions result name meaning

/-- A given name is shown with the expression of its meaning, and refers to a column. -/
theorem GivesName.shown {e : Expression} {name : String} {meaning : Renaming}
    (given : GivesName sessions e name meaning) :
    (∃ attr ∈ e.heading.visible, attr.name = name ∧ attr.expression = some meaning.text) ∧
      ∀ origin, meaning.source? = some origin → origin ∈ e.originNames := by
  induction given with
  | @project e _ _ renames keepKey _ value source built entry =>
      obtain ⟨selected, draws⟩ := source.drawsFrom_of_project built
      rw [← Heading.classify_congr
        (fun name => by rw [e.names_projectedSource selected renames keepKey]) value]
      exact draws.new_name entry
  | aggregate first second join built entry =>
      exact (Reachable.drawsFrom_of_aggregate first second join built).new_name entry
  | @groupOver e _ _ _ _ value source built entry =>
      rw [← Heading.classify_congr (fun name => by rw [e.names_groupedSource]) value]
      exact (source.drawsFrom_of_groupOver built).new_name entry
  | restrict _ built same ih =>
      obtain rfl | ⟨mentioned, rfl⟩ := Expression.record_of_same_operator built same
      · exact ih
      · exact ih
  | restrictDirectly _ built ih =>
      obtain ⟨compiled, _, ⟨_, rfl⟩ | ⟨_, rfl, _⟩⟩ := Expression.restrictDirectly_ok built
      · exact ih
      · exact ih

/-- A declared column is new or repeats one that is there. -/
theorem underived_of_declareAttribute {table : String} {before after : List Attribute}
    {attr : Attribute} (declared : declareAttribute table before attr = .ok after)
    (plain : attr.expression = none) (columns : ∀ other ∈ before, other.expression = none) :
    ∀ other ∈ after, other.expression = none := by
  unfold declareAttribute at declared
  split at declared
  · injection declared with same
    rw [← same, List.forall_mem_append, List.forall_mem_singleton]
    exact ⟨columns, plain⟩
  · split at declared
    · injection declared with same
      rw [← same, List.forall_mem_map]
      intro other inside
      split
      · exact columns other inside
      · exact columns other inside
    · contradiction

/-- A column declaration brings no attribute with an expression. -/
theorem ColumnDeclaration.underived {schema table : String} {column : ColumnDeclaration}
    {attrs : List Attribute} (brought : column.attributes? schema table = .ok attrs) :
    ∀ attr ∈ attrs, attr.expression = none := by
  cases column with
  | reference parent inKey renames =>
      cases parent with
      | error fault => contradiction
      | ok heading =>
          injection brought with same
          rw [← same, List.forall_mem_map]
          exact fun _ _ => rfl
  | primary name domain | secondary name domain | nullable name domain | hidden name domain =>
      injection brought with same
      rw [← same, List.forall_mem_singleton]
      rfl

/-- No column of a declared table has an expression. -/
theorem TableDeclaration.underived {declaration : TableDeclaration} {heading : Heading}
    (declared : declaration.heading? = .ok heading) : heading.hasDerived = false := by
  unfold TableDeclaration.heading? at declared
  obtain ⟨attrs, folded, built⟩ := bind_eq_ok.1 declared
  have columns : ∀ attr ∈ attrs, attr.expression = none := by
    refine invariant_of_foldlM (fun attrs => ∀ attr ∈ attrs, attr.expression = none) folded
      (List.forall_mem_nil _) fun before after column _ step plain => ?_
    obtain ⟨brought, source, merged⟩ := bind_eq_ok.1 step
    exact invariant_of_foldlM _ merged plain fun _ _ attr inside again old =>
      underived_of_declareAttribute again (ColumnDeclaration.underived source attr inside) old
  rw [Heading.hasDerived_eq_false]
  intro attr inside
  have member := (Heading.mem_visible.1 inside).1
  rw [Heading.attributes_ofAttributes built, mem_keyOrder] at member
  exact columns attr member

/-- Every derived attribute was given its name by the operator of the expression. -/
theorem Reachable.givesName_of_derived {e : Expression} (reached : Reachable sessions e)
    {attr : Attribute} (inside : attr ∈ e.heading.visible) (derived : attr.derived = true) :
    ∃ meaning, GivesName sessions e attr.name meaning := by
  have absurd_of_columns : ∀ heading : Heading, heading.hasDerived = false →
      attr ∉ heading.visible := by
    intro heading columns member
    rw [Attribute.derived, Heading.hasDerived_eq_false.1 columns attr member] at derived
    contradiction
  induction reached with
  | table _ built =>
      obtain ⟨heading, declared, rfl⟩ := Expression.ofTable_ok built
      exact absurd inside (absurd_of_columns heading (TableDeclaration.underived declared))
  | @restrict e _ restriction _ _ built ih =>
      obtain ⟨compiled, _, ⟨_, rfl⟩ | ⟨_, same⟩⟩ := Expression.restrict_ok built
      · exact ih inside
      · rw [same] at inside
        rcases e.restrictedSource_cases with wrapped | ⟨direct, _⟩
        · rw [wrapped] at inside
          exact absurd inside (absurd_of_columns _ e.heading.hasDerived_asColumns)
        · rw [direct] at inside same
          obtain ⟨meaning, given⟩ := ih inside
          exact ⟨meaning, .restrict given built (by rw [same]; rfl)⟩
  | restrictDirectly _ _ built ih =>
      obtain ⟨compiled, _, ⟨_, rfl⟩ | ⟨_, same, _⟩⟩ := Expression.restrictDirectly_ok built
      · exact ih inside
      · rw [same] at inside
        obtain ⟨meaning, given⟩ := ih inside
        exact ⟨meaning, .restrictDirectly given built⟩
  | join _ _ built _ _ =>
      have flat := Expression.flat_iff.1 (Expression.joinAs_ok built).flat
      exact absurd inside (absurd_of_columns _ (Expression.needsSubquery_eq_false.1 flat).2.2)
  | project source built _ =>
      obtain ⟨selected, draws⟩ := source.drawsFrom_of_project built
      obtain ⟨value, entry⟩ := draws.entry_of_derived inside derived
      exact ⟨_, .project source built entry⟩
  | aggregate first second built _ _ =>
      obtain ⟨joined, _, _, _, join, _⟩ := Expression.aggregateItems_ok built
      obtain ⟨value, entry⟩ :=
        (drawsFrom_of_aggregate first second join built).entry_of_derived inside derived
      exact ⟨_, .aggregate first second join built entry⟩
  | groupOver source built _ =>
      obtain ⟨value, entry⟩ := (source.drawsFrom_of_groupOver built).entry_of_derived inside derived
      exact ⟨_, .groupOver source built entry⟩
  | union _ _ built _ _ =>
      obtain ⟨_, _, _, _, rfl⟩ := Expression.union_ok built
      exact absurd inside (absurd_of_columns _ (Heading.hasDerived_asColumns _))
  | subquery _ _ =>
      exact absurd inside (absurd_of_columns _ (Heading.hasDerived_asColumns _))

end QueryAlgebra
