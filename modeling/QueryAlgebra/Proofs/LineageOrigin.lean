/-
This file follows the attributes of reachable expressions down to the tables or to the
computed values that they stem from. On the way they keep their lineage.
-/
import QueryAlgebra.Proofs.CarriedLineage
import QueryAlgebra.Proofs.GivenNames
import QueryAlgebra.Proofs.Renderability

namespace QueryAlgebra

/-- The expression that a projection or a grouping reads from. -/
def Operator.reshaped? : Operator → Option Expression
  | .projection source | .grouping source => some source
  | _ => none

/-- The heading of an expression comes from those of its operands. -/
def Expression.Composed (e : Expression) : Prop :=
  match e.operator with
  | .table _ => True
  | .join left right _ =>
      left.heading.join right.heading (left.heading.joinKey right.heading) = .ok e.heading
  | .projection source | .grouping source =>
      ∃ renames, source.heading.PassesTo e.heading renames
  | .union left _ => e.heading = left.heading.asColumns.visiblePart
  | .subquery inner => e.heading = inner.heading.asColumns.visiblePart

theorem Expression.primaryKey_joinOperand (e : Expression) (overlapping : Bool) :
    (e.joinOperand overlapping).heading.primaryKey = e.heading.primaryKey := by
  rcases e.joinOperand_cases overlapping with wrapped | ⟨direct, _⟩
  · rw [wrapped]
    exact e.heading.primaryKey_asColumns
  · rw [direct]

/-- The stored operands of a join have the keys that the key of the join is made of. -/
theorem Expression.joinKey_joined (left right : Expression) :
    (left.joinedLeft right).heading.joinKey (left.joinedRight right).heading =
      left.heading.joinKey right.heading := by
  unfold Heading.joinKey Heading.determines joinedLeft joinedRight
  have contains : ∀ e : Expression, ∀ overlapping,
      (e.joinOperand overlapping).heading.names.contains = e.heading.names.contains :=
    fun e overlapping => by rw [e.names_joinOperand]
  simp only [primaryKey_joinOperand, contains]

variable {sessions : Session → Prop}

/-- Restrictions leave the heading and the operator of what they are recorded on. -/
theorem Reachable.composed {e : Expression} (reached : Reachable sessions e) : e.Composed := by
  induction reached with
  | table _ built =>
      obtain ⟨heading, _, rfl⟩ := Expression.ofTable_ok built
      trivial
  | restrict _ _ built ih => exact Expression.restrict_preserves built ih rfl fun _ _ => id
  | restrictDirectly _ _ built ih =>
      exact Expression.restrictDirectly_preserves built ih fun _ => id
  | @join left right _ _ _ _ built _ _ =>
      have joins := Expression.joinAs_ok built
      unfold Expression.Composed
      rw [joins.operator]
      dsimp only
      rw [left.joinKey_joined right]
      exact joins.heading
  | @project _ _ _ renames _ _ built _ =>
      obtain ⟨selection, projects⟩ := Expression.projectItems_ok built
      unfold Expression.Composed
      rw [projects.operator]
      exact ⟨renames, (Heading.reshapes_of_projectKeyed projects.heading).passesTo⟩
  | @aggregate _ _ _ _ renames _ _ _ built _ _ =>
      obtain ⟨joined, keyed, _, heading, _, rekeyed, _, projected, rfl⟩ :=
        Expression.aggregateItems_ok built
      exact ⟨renames, .of_rekey rekeyed (Heading.reshapes_of_project projected).passesTo⟩
  | @groupOver _ _ _ renames _ built _ =>
      obtain ⟨heading, projected, rfl⟩ := Expression.groupOver_ok built
      exact ⟨renames, (Heading.reshapes_of_project projected).passesTo⟩
  | union _ _ built _ _ =>
      obtain ⟨_, _, _, _, rfl⟩ := Expression.union_ok built
      exact rfl
  | subquery _ _ => exact rfl

/-- A given name has its meaning in the heading of what a projection or a grouping reads from. -/
theorem GivesName.passes {e : Expression} {name : String} {meaning : Renaming}
    (given : GivesName sessions e name meaning) :
    ∃ source renames value, e.operator.reshaped? = some source ∧
      source.heading.PassesTo e.heading renames ∧ (name, value) ∈ renames.entries ∧
      meaning = source.heading.classify value := by
  induction given with
  | @project e _ _ renames keepKey _ value _ built entry =>
      obtain ⟨selection, projects⟩ := Expression.projectItems_ok built
      refine ⟨_, renames, value, by rw [projects.operator]; rfl,
        (Heading.reshapes_of_projectKeyed projects.heading).passesTo, entry, ?_⟩
      exact Heading.classify_congr (fun name => by rw [e.names_projectedSource]) value
  | @aggregate _ _ joined _ _ renames _ _ value _ _ join built entry =>
      obtain ⟨again, keyed, _, heading, same, rekeyed, _, projected, rfl⟩ :=
        Expression.aggregateItems_ok built
      rw [join, Except.ok.injEq] at same
      subst same
      exact ⟨joined, renames, value, rfl,
        .of_rekey rekeyed (Heading.reshapes_of_project projected).passesTo, entry, rfl⟩
  | @groupOver e _ _ renames _ value _ built entry =>
      obtain ⟨heading, projected, rfl⟩ := Expression.groupOver_ok built
      refine ⟨_, renames, value, rfl, (Heading.reshapes_of_project projected).passesTo, entry, ?_⟩
      exact Heading.classify_congr (fun name => by rw [e.names_groupedSource]) value
  | restrict _ built same ih =>
      obtain rfl | ⟨mentioned, rfl⟩ := Expression.record_of_same_operator built same
      · exact ih
      · exact ih
  | restrictDirectly _ built ih =>
      obtain ⟨compiled, _, ⟨_, rfl⟩ | ⟨_, rfl, _⟩⟩ := Expression.restrictDirectly_ok built
      · exact ih
      · exact ih

/-- An attribute of an expression is taken from an attribute of one of its operands. -/
inductive TakenFrom (sessions : Session → Prop) :
    Expression → String → Expression → String → Prop where
  | left {e left right : Expression} {keepAll : Bool} {name : String}
      (node : e.operator = .join left right keepAll) (shown : name ∈ e.heading.names)
      (kept : ¬ left.heading.LendsSecond right.heading (left.heading.joinKey right.heading) name) :
      TakenFrom sessions e name left name
  | right {e left right : Expression} {keepAll : Bool} {name : String}
      (node : e.operator = .join left right keepAll) (shown : name ∈ e.heading.names)
      (lent : left.heading.LendsSecond right.heading (left.heading.joinKey right.heading) name) :
      TakenFrom sessions e name right name
  | selected {e source : Expression} {attr : Attribute}
      (node : e.operator.reshaped? = some source) (shown : attr ∈ e.heading.visible)
      (plain : attr.expression = none) : TakenFrom sessions e attr.name source attr.name
  | renamed {e source : Expression} {name old : String} {meaning : Renaming}
      (node : e.operator.reshaped? = some source) (given : GivesName sessions e name meaning)
      (means : meaning.source? = some old) : TakenFrom sessions e name source old
  | united {e left right : Expression} {name : String} (node : e.operator = .union left right)
      (shown : name ∈ e.heading.names) : TakenFrom sessions e name left name
  | wrapped {e inner : Expression} {name : String} (node : e.operator = .subquery inner)
      (shown : name ∈ e.heading.names) : TakenFrom sessions e name inner name

theorem Operator.reshaped?_eq_some {operator : Operator} {source : Expression} :
    operator.reshaped? = some source ↔
      operator = .projection source ∨ operator = .grouping source := by
  cases operator <;> simp [reshaped?]

theorem TakenFrom.operand {e part : Expression} {name old : String}
    (taken : TakenFrom sessions e name part old) : part ∈ e.operator.operands := by
  cases taken with
  | left node _ _ | right node _ _ | united node _ | wrapped node _ =>
      rw [node]
      simp [Operator.operands]
  | selected node _ _ | renamed node _ _ =>
      rcases Operator.reshaped?_eq_some.1 node with node | node <;> simp [node, Operator.operands]

theorem Expression.Composed.passesTo {e source : Expression} (composed : e.Composed)
    (node : e.operator.reshaped? = some source) :
    ∃ renames, source.heading.PassesTo e.heading renames := by
  unfold Composed at composed
  rcases Operator.reshaped?_eq_some.1 node with node | node <;> rwa [node] at composed

/-- What is taken from an operand keeps its lineage. -/
theorem TakenFrom.carries {e part : Expression} {name old : String}
    (taken : TakenFrom sessions e name part old) (composed : e.Composed) :
    ∃ lineage, e.heading.Carries name lineage ∧ part.heading.Carries old lineage := by
  cases taken with
  | left node shown kept =>
      obtain ⟨attr, inside, rfl⟩ := Heading.mem_names.1 shown
      simp only [Expression.Composed, node] at composed
      rcases Heading.carries_of_join composed inside with ⟨lent, _⟩ | ⟨_, carries⟩
      · exact absurd lent kept
      · exact ⟨_, Heading.carries_of_visible inside, carries⟩
  | right node shown lent =>
      obtain ⟨attr, inside, rfl⟩ := Heading.mem_names.1 shown
      simp only [Expression.Composed, node] at composed
      rcases Heading.carries_of_join composed inside with ⟨_, carries⟩ | ⟨kept, _⟩
      · exact ⟨_, Heading.carries_of_visible inside, carries⟩
      · exact absurd lent kept
  | selected node shown plain =>
      obtain ⟨renames, passes⟩ := composed.passesTo node
      exact ⟨_, Heading.carries_of_visible shown, passes.kept _ shown plain⟩
  | renamed node given means =>
      obtain ⟨source, renames, value, again, passes, entry, rfl⟩ := given.passes
      obtain rfl := Option.some.inj (node.symm.trans again)
      obtain ⟨lineage, carries, origin⟩ := passes.given _ value entry
      rw [means] at origin
      exact ⟨lineage, carries, origin⟩
  | united node shown | wrapped node shown =>
      obtain ⟨attr, inside, rfl⟩ := Heading.mem_names.1 shown
      simp only [Expression.Composed, node] at composed
      refine ⟨_, Heading.carries_of_visible inside, ?_⟩
      rw [← Heading.carries_asColumns, ← composed]
      exact Heading.carries_of_visible inside

/-- Every attribute that is shown is a column of a table, computed or taken from an operand. -/
theorem Reachable.takes {e : Expression} (reached : Reachable sessions e) {attr : Attribute}
    (inside : attr ∈ e.heading.visible) :
    (∃ table, e.operator = .table table) ∨
      (∃ expression, GivesName sessions e attr.name (.compute expression)) ∨
        ∃ part old, TakenFrom sessions e attr.name part old := by
  have shown : attr.name ∈ e.heading.names := Heading.mem_names.2 ⟨attr, inside, rfl⟩
  have reshaped : ∀ source, e.operator.reshaped? = some source →
      (∃ expression, GivesName sessions e attr.name (.compute expression)) ∨
        ∃ part old, TakenFrom sessions e attr.name part old := by
    intro source node
    by_cases plain : attr.expression = none
    · exact .inr ⟨_, _, .selected node inside plain⟩
    · have derived : attr.derived = true := Option.isSome_iff_ne_none.2 plain
      obtain ⟨meaning, given⟩ := reached.givesName_of_derived inside derived
      cases meaning with
      | compute expression => exact .inl ⟨expression, given⟩
      | move old | copy old => exact .inr ⟨_, _, .renamed node given rfl⟩
  cases node : e.operator with
  | table name => exact .inl ⟨name, rfl⟩
  | join left right keepAll =>
      by_cases lent : left.heading.LendsSecond right.heading
          (left.heading.joinKey right.heading) attr.name
      · exact .inr (.inr ⟨_, _, .right node shown lent⟩)
      · exact .inr (.inr ⟨_, _, .left node shown lent⟩)
  | projection source | grouping source => exact .inr (reshaped source (by rw [node]; rfl))
  | union left right => exact .inr (.inr ⟨_, _, .united node shown⟩)
  | subquery inner => exact .inr (.inr ⟨_, _, .wrapped node shown⟩)

/-- An attribute originates from a column of a table or from a computed value. -/
inductive Provenance where
  | column (leaf : Expression) (attr : Attribute)
  | computed (expression : String)

def Provenance.lineage : Provenance → Option String
  | .column _ attr => attr.lineage
  | .computed _ => none

/-- An attribute is followed from operand to operand down to what it originates from. -/
inductive StemsFrom (sessions : Session → Prop) : Expression → String → Provenance → Prop where
  | column {leaf : Expression} {table : String} {attr : Attribute}
      (node : leaf.operator = .table table) (shown : attr ∈ leaf.heading.visible) :
      StemsFrom sessions leaf attr.name (.column leaf attr)
  | computed {e : Expression} {name expression : String}
      (given : GivesName sessions e name (.compute expression)) :
      StemsFrom sessions e name (.computed expression)
  | taken {e part : Expression} {name old : String} {origin : Provenance}
      (step : TakenFrom sessions e name part old) (below : StemsFrom sessions part old origin) :
      StemsFrom sessions e name origin

/-- Every attribute that is shown originates from somewhere. -/
theorem Reachable.exists_origin {e : Expression} (reached : Reachable sessions e) {name : String}
    (shown : name ∈ e.heading.names) : ∃ origin, StemsFrom sessions e name origin := by
  obtain ⟨attr, inside, rfl⟩ := Heading.mem_names.1 shown
  rcases reached.takes inside with ⟨table, node⟩ | ⟨expression, given⟩ | ⟨part, old, taken⟩
  · exact ⟨_, .column node inside⟩
  · exact ⟨_, .computed given⟩
  · obtain ⟨lineage, _, carries⟩ := taken.carries reached.composed
    obtain ⟨origin, below⟩ := (reached.operand taken.operand).exists_origin carries.shown
    exact ⟨origin, .taken taken below⟩
termination_by sizeOf e
decreasing_by exact Expression.sizeOf_operand taken.operand

/-- Nothing on the way changes the lineage. -/
theorem StemsFrom.carries {e : Expression} {name : String} {origin : Provenance}
    (stems : StemsFrom sessions e name origin) (reached : Reachable sessions e) :
    e.heading.Carries name origin.lineage := by
  induction stems with
  | column _ shown => exact Heading.carries_of_visible shown
  | computed given =>
      obtain ⟨source, renames, value, _, passes, entry, same⟩ := given.passes
      obtain ⟨lineage, carries, computed⟩ := passes.given _ value entry
      rw [← same] at computed
      have unknown : lineage = none := computed
      rwa [unknown] at carries
  | taken step _ ih =>
      obtain ⟨lineage, carries, attr, inside, rfl, rfl⟩ := step.carries reached.composed
      rwa [← (Heading.carries_iff inside).1 (ih (reached.operand step.operand))]

/-- A column that an attribute originates from is one of a table in the operand tree. -/
theorem StemsFrom.leaf {e leaf : Expression} {name : String} {column : Attribute}
    (stems : StemsFrom sessions e name (.column leaf column)) :
    Below leaf e ∧ (∃ table, leaf.operator = .table table) ∧ column ∈ leaf.heading.visible := by
  generalize target : Provenance.column leaf column = origin at stems
  induction stems with
  | column node shown =>
      injection target with same again
      subst same again
      exact ⟨.root, ⟨_, node⟩, shown⟩
  | computed _ => contradiction
  | taken step _ ih =>
      obtain ⟨below, node, shown⟩ := ih target
      exact ⟨.operand step.operand below, node, shown⟩

/-- Lineage is never invented. An attribute has the lineage of what it is followed down to,
which is a column of a table where there is one. Computed values have none at any level above
them, and no comparison of namesakes lets them pass. -/
theorem Reachable.lineage_stems {e : Expression} (reached : Reachable sessions e)
    {attr : Attribute} (inside : attr ∈ e.heading.visible) :
    (∃ origin, StemsFrom sessions e attr.name origin) ∧
      (∀ origin, StemsFrom sessions e attr.name origin → origin.lineage = attr.lineage) ∧
      (∀ lineage, attr.lineage = some lineage → ∃ leaf column,
        StemsFrom sessions e attr.name (.column leaf column) ∧ Below leaf e ∧
          (∃ table, leaf.operator = .table table) ∧ column ∈ leaf.heading.visible ∧
          column.lineage = some lineage) ∧
      ∀ expression, StemsFrom sessions e attr.name (.computed expression) →
        attr.lineage = none ∧ ∀ other : Heading, attr.name ∈ other.names →
          e.heading.homologous other ≠ .ok () ∧ other.homologous e.heading ≠ .ok () := by
  have agrees : ∀ origin, StemsFrom sessions e attr.name origin →
      origin.lineage = attr.lineage :=
    fun origin stems => ((Heading.carries_iff inside).1 (stems.carries reached)).symm
  obtain ⟨origin, stems⟩ := reached.exists_origin (Heading.mem_names.2 ⟨attr, inside, rfl⟩)
  refine ⟨⟨origin, stems⟩, agrees, ?_, ?_⟩
  · intro lineage known
    cases origin with
    | column leaf column =>
        obtain ⟨below, table, shown⟩ := stems.leaf
        exact ⟨leaf, column, stems, below, table, shown, (agrees _ stems).trans known⟩
    | computed expression =>
        have unknown := agrees _ stems
        rw [known] at unknown
        contradiction
  · intro expression computed
    have unknown := agrees _ computed
    exact ⟨unknown.symm, fun other shared =>
      Heading.homologous_ne_ok inside unknown.symm shared⟩

/-- A renamed key keeps its lineage behind a subquery, and a computed attribute has none. -/
theorem Reachable.lineage_stems_of_kind :
    ∃ e animal kind, Reachable (· = laboratory) e ∧ animal ∈ e.heading.visible ∧
      animal.name = "animal" ∧ kind ∈ e.heading.visible ∧ kind.name = "kind" ∧
      (∃ leaf column, StemsFrom (· = laboratory) e "animal" (.column leaf column) ∧
        column.lineage = some "lab.subject.subject_id") ∧
      kind.lineage = none ∧ e.heading.homologous e.heading ≠ .ok () := by
  have subjects := @Reachable.table (· = laboratory) laboratory subjectDeclaration _ rfl rfl
  obtain ⟨animals, built, renamed⟩ := subjects.exists_project []
    (Renames.ofList [("animal", "subject_id"), ("kind", "upper(species)")]) true
    (by decide +kernel)
  have computed : GivesName (· = laboratory) animals "kind" (.compute "upper(species)") := by
    convert GivesName.project subjects built
      (show ("kind", "upper(species)") ∈ _ by decide +kernel) using 1
    decide +kernel
  have evaluated : ((Except.ok animals : Except Fault Expression).toOption.any fun e =>
      e.heading.visible.any fun attr =>
        attr.name = "animal" && attr.lineage = some "lab.subject.subject_id") = true := by
    rw [← built]
    decide +kernel
  obtain ⟨attr, inside, shows⟩ := List.any_eq_true.1 evaluated
  rw [Bool.and_eq_true, decide_eq_true_eq, decide_eq_true_eq] at shows
  obtain ⟨animal, member, named, known⟩ :=
    Heading.carries_asColumns.2 ⟨attr, inside, shows⟩
  have below : StemsFrom (· = laboratory) animals.asSubquery "kind"
      (.computed "upper(species)") := by
    obtain ⟨kind, visible, called, _⟩ := computed.shown.1
    refine .taken (.wrapped rfl ?_) (.computed computed)
    rw [Expression.names_asSubquery]
    exact Heading.mem_names.2 ⟨kind, visible, called⟩
  obtain ⟨kind, there, called, _⟩ := below.carries renamed.subquery
  have leaf := (Reachable.lineage_stems renamed.subquery member).2.2.1 _ known
  have unknown := (Reachable.lineage_stems renamed.subquery there).2.2.2 _ (called ▸ below)
  obtain ⟨table, column, stems, _, _, _, same⟩ := leaf
  exact ⟨animals.asSubquery, animal, kind, renamed.subquery, member, named, there, called,
    ⟨table, column, named ▸ stems, same⟩, unknown.1,
    (unknown.2 _ (Heading.mem_names.2 ⟨kind, there, rfl⟩)).1⟩

end QueryAlgebra
