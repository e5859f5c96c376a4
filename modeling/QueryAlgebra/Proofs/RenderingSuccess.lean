/-
This file determines when renderings succeed.
Statements do when their clauses do, and so do conditions, mappings and semijoins.
-/
import QueryAlgebra.Proofs.CarriedRestriction
import QueryAlgebra.Proofs.ClauseFlattening

namespace QueryAlgebra

/-- A rendering gives a value when it starts from this count. -/
def Rendering.SucceedsFrom {α : Type} (rendering : Rendering α) (count : AliasCount) : Prop :=
  ∃ value later, rendering.Yields count value later

/-- A rendering gives a value when no alias has been given before. -/
def Rendering.Succeeds {α : Type} (rendering : Rendering α) : Prop :=
  rendering.SucceedsFrom AliasCount.zero

section Steps

variable {α β : Type} {count : AliasCount}

@[simp] theorem Rendering.succeedsFrom_pure (value : α) :
    (pure value : Rendering α).SucceedsFrom count :=
  ⟨value, count, yields_pure.2 ⟨rfl, rfl⟩⟩

@[simp] theorem Rendering.succeedsFrom_ofExcept {result : Except Fault α} :
    (Rendering.ofExcept result).SucceedsFrom count ↔ ∃ value, result = .ok value := by
  simp [SucceedsFrom]

@[simp] theorem Rendering.succeedsFrom_alias (kind : AliasKind) :
    (Rendering.alias kind).SucceedsFrom count :=
  ⟨_, _, runFrom_alias kind count⟩

/-- A chain succeeds when its first step does and the rest does after whatever comes out. -/
theorem Rendering.succeedsFrom_bind {first : Rendering α} {next : α → Rendering β}
    (rest : Prop) (steady : ∀ value later, (next value).SucceedsFrom later ↔ rest) :
    (first >>= next).SucceedsFrom count ↔ first.SucceedsFrom count ∧ rest := by
  unfold SucceedsFrom
  simp only [yields_bind]
  constructor
  · rintro ⟨result, later, value, between, start, finish⟩
    exact ⟨⟨value, between, start⟩, (steady value between).1 ⟨result, later, finish⟩⟩
  · rintro ⟨⟨value, between, start⟩, passes⟩
    obtain ⟨result, later, finish⟩ := (steady value between).2 passes
    exact ⟨result, later, value, between, start, finish⟩

theorem Rendering.Shifts.succeedsFrom_iff {shift : α → α} {rendering : Rendering α}
    (shifts : Rendering.Shifts count shift rendering rendering) :
    rendering.SucceedsFrom count ↔ rendering.Succeeds :=
  shifts.exists_yields_iff

end Steps

/-- Everything but the SELECT list of a statement can be rendered. -/
structure Expression.Prints (e : Expression) (checked : Bool) : Prop where
  origin : (e.origin checked).Succeeds
  sourceCondition : ∀ source ∈ e.sourceCondition checked, source.Succeeds
  condition : (e.condition checked).Succeeds

/-- The clauses of a statement are rendered one after the other. -/
theorem Expression.assemble_succeedsFrom_iff (e : Expression) {fields : Option (List String)}
    {origin : Rendering Relation} {sourceCondition : Option (Rendering Condition)}
    {condition : Rendering Condition}
    (origins : ∀ count, origin.SucceedsFrom count ↔ origin.Succeeds)
    (sources : ∀ source ∈ sourceCondition, ∀ count,
      source.SucceedsFrom count ↔ source.Succeeds)
    (conditions : ∀ count, condition.SucceedsFrom count ↔ condition.Succeeds)
    {count : AliasCount} :
    (e.assemble fields origin sourceCondition condition).SucceedsFrom count ↔
      (∃ list, e.selectList? fields = .ok list) ∧ origin.Succeeds ∧
        (∀ source ∈ sourceCondition, source.Succeeds) ∧ condition.Succeeds := by
  unfold assemble
  rw [Rendering.succeedsFrom_bind, Rendering.succeedsFrom_ofExcept]
  intro list later
  rw [Rendering.succeedsFrom_bind, origins]
  intro relation between
  cases sourceCondition with
  | none =>
      dsimp only
      rw [Rendering.succeedsFrom_bind True, conditions]
      · simp
      · simp
  | some source =>
      dsimp only
      rw [Rendering.succeedsFrom_bind condition.Succeeds, sources source rfl]
      · simp
      · intro filter next
        rw [Rendering.succeedsFrom_bind True, conditions, and_true]
        simp

section Printing

variable {e : Expression} {checked : Bool} {count : AliasCount}

theorem Expression.origin_succeedsFrom_iff :
    (e.origin checked).SucceedsFrom count ↔ (e.origin checked).Succeeds :=
  (e.origin_shifts checked).succeedsFrom_iff

theorem Expression.condition_succeedsFrom_iff :
    (e.condition checked).SucceedsFrom count ↔ (e.condition checked).Succeeds :=
  (e.condition_shifts checked).succeedsFrom_iff

/-- Whether a statement can be rendered does not depend on the aliases given before. -/
theorem Expression.statement_succeedsFrom_iff {fields : Option (List String)} :
    (e.statement checked fields).SucceedsFrom count ↔
      (∃ list, e.selectList? fields = .ok list) ∧ e.Prints checked := by
  rw [statement, e.assemble_succeedsFrom_iff (fun _ => origin_succeedsFrom_iff)
    (fun source inside _ => (e.sourceCondition_shifts checked source inside).succeedsFrom_iff)
    (fun _ => condition_succeedsFrom_iff)]
  apply and_congr_right
  intro _
  exact ⟨fun ⟨origin, source, condition⟩ => ⟨origin, source, condition⟩,
    fun ⟨origin, source, condition⟩ => ⟨origin, source, condition⟩⟩

/-- A condition can be rendered when every restriction compiles. -/
theorem Expression.condition_succeeds_iff :
    (e.condition checked).Succeeds ↔
      ∀ restriction ∈ e.restrictions, restriction.Compiles (e.scope checked) := by
  rw [condition_eq_compiledRestriction, Rendering.Succeeds,
    Rendering.succeedsFrom_bind True fun _ _ => by simp, and_true]
  exact Restriction.compiles_conjunction

theorem Expression.condition_succeeds_of_bare (bare : e.restrictions = []) :
    (e.condition checked).Succeeds := by
  rw [condition_succeeds_iff, bare]
  exact List.forall_mem_nil _

theorem Expression.origin_eq (e : Expression) (checked : Bool) :
    e.origin checked = e.operator.origin checked e.heading.names := by
  cases e
  rw [Expression.origin]

theorem Expression.sourceCondition_eq (e : Expression) (checked : Bool) :
    e.sourceCondition checked = e.operator.sourceCondition checked := by
  cases e
  rw [Expression.sourceCondition]

/-- Only groupings have a condition on what a group collects. -/
theorem Expression.prints_iff (ungrouped : e.operator.isGrouping = false) :
    e.Prints checked ↔ (e.origin checked).Succeeds ∧ (e.condition checked).Succeeds := by
  have none : e.sourceCondition checked = none := by
    rw [sourceCondition_eq]
    cases operator : e.operator with
    | grouping source => exact absurd operator (Operator.isGrouping_eq_false.1 ungrouped source)
    | table _ | join _ _ _ | projection _ | union _ _ | subquery _ =>
        simp [Operator.sourceCondition]
  exact ⟨fun prints => ⟨prints.origin, prints.condition⟩,
    fun ⟨origin, condition⟩ => ⟨origin, by simp [none], condition⟩⟩

/-- Names that a heading shows can be selected. -/
theorem Heading.exists_select {heading : Heading} {fields : Option (List String)}
    (shown : ∀ names ∈ fields, ∀ name ∈ names, name ∈ heading.names) :
    ∃ items, heading.select? fields = .ok items := by
  cases fields with
  | none => exact ⟨_, rfl⟩
  | some names =>
      refine exists_mapM fun name inside => ?_
      obtain ⟨attr, visible, named⟩ := mem_names.1 (shown names rfl name inside)
      rw [get?_eq_some.2 ⟨visible, named⟩]
      exact ⟨_, rfl⟩

theorem Expression.exists_selectList {fields : Option (List String)}
    (shown : ∀ names ∈ fields, ∀ name ∈ names, name ∈ e.heading.names) :
    ∃ list, e.selectList? fields = .ok list := by
  obtain ⟨items, selected⟩ := Heading.exists_select shown
  unfold selectList?
  split
  · exact ⟨_, rfl⟩
  · rw [selected]
    exact ⟨_, rfl⟩

end Printing

/-- A flat operand is printed when its FROM clause and its condition are. -/
theorem Expression.Flat.prints_iff {e : Expression} {checked : Bool} (flat : e.Flat) :
    e.Prints checked ↔ (e.origin checked).Succeeds ∧ (e.condition checked).Succeeds :=
  Expression.prints_iff (Operator.isGrouping_eq_false.2 flat.ungrouped)

section Origins

variable {left right inner : Expression} {checked : Bool}

theorem Operator.origin_join_succeeds_iff {keepAll : Bool} {names : List String} :
    ((Operator.join left right keepAll).origin checked names).Succeeds ↔
      (left.origin checked).Succeeds ∧ (right.origin checked).Succeeds := by
  rw [Operator.origin, Rendering.Succeeds,
    Rendering.succeedsFrom_bind (right.origin checked).Succeeds, Expression.origin_succeedsFrom_iff]
  intro first later
  rw [Rendering.succeedsFrom_bind True (by simp), and_true]
  exact Expression.origin_succeedsFrom_iff

/-- A union renders both operands with the names that it shows. -/
theorem Operator.origin_union_succeeds_iff {names : List String}
    (shown : ∀ name ∈ names, name ∈ left.heading.names ∧ name ∈ right.heading.names) :
    ((Operator.union left right).origin checked names).Succeeds ↔
      left.Prints checked ∧ right.Prints checked := by
  have first : ∃ list, left.selectList? (some names) = .ok list :=
    Expression.exists_selectList fun _ same name inside =>
      (shown name (Option.some.inj same ▸ inside)).1
  have second : ∃ list, right.selectList? (some names) = .ok list :=
    Expression.exists_selectList fun _ same name inside =>
      (shown name (Option.some.inj same ▸ inside)).2
  rw [Operator.origin, Rendering.Succeeds, ← Expression.statement, ← Expression.statement,
    Rendering.succeedsFrom_bind (right.Prints checked), Expression.statement_succeedsFrom_iff,
    and_iff_right first]
  intro statement later
  rw [Rendering.succeedsFrom_bind True, Expression.statement_succeedsFrom_iff,
    and_iff_right second, and_true]
  intro other between
  rw [Rendering.succeedsFrom_bind True (by simp)]
  simp

/-- A subquery renders the whole statement of what stands inside it. -/
theorem Operator.origin_subquery_succeeds_iff {names : List String} :
    ((Operator.subquery inner).origin checked names).Succeeds ↔ inner.Prints checked := by
  have list : ∃ list, inner.selectList? none = .ok list :=
    Expression.exists_selectList (by simp)
  rw [Operator.origin, Rendering.Succeeds, ← Expression.statement,
    Rendering.succeedsFrom_bind True, Expression.statement_succeedsFrom_iff,
    and_iff_right list, and_true]
  intro statement later
  rw [Rendering.succeedsFrom_bind True (by simp)]
  simp

end Origins

section Compiling

variable {scope : Scope} {partner : Expression} {checked : Bool}

/-- Pairs compile when those that name visible attributes can be compared. -/
theorem Scope.compare_succeeds_iff {negated : Bool} {pairs : List (String × Literal)} :
    (∃ compiled, scope.compare negated pairs = .ok compiled) ↔
      ∀ pair ∈ pairs, (splitPath pair.1).1 ∈ scope.heading.names →
        ∃ comparison, scope.heading.compare? pair.1 pair.2 = .ok comparison := by
  simp only [Scope.compare_eq_ok]
  have matching : ∀ pair, pair ∈ scope.matching pairs ↔
      pair ∈ pairs ∧ (splitPath pair.1).1 ∈ scope.heading.names := fun pair => by
    rw [Scope.matching, List.mem_filter, scope.heading.contains_iff]
  constructor
  · rintro ⟨_, comparisons, translated, _⟩ pair inside shown
    exact exists_of_mapM translated ((matching pair).2 ⟨inside, shown⟩)
  · intro compared
    obtain ⟨comparisons, translated⟩ := exists_mapM fun pair inside =>
      compared pair ((matching pair).1 inside).1 ((matching pair).1 inside).2
    exact ⟨_, comparisons, translated, rfl⟩

theorem Restriction.compiles_mapping {pairs : List (String × Literal)} :
    (Restriction.mapping pairs).Compiles scope ↔
      ∀ pair ∈ pairs, (splitPath pair.1).1 ∈ scope.heading.names →
        ∃ comparison, scope.heading.compare? pair.1 pair.2 = .ok comparison := by
  rw [← Scope.compare_succeeds_iff, Compiles, Restriction.compile]
  exact Rendering.succeedsFrom_ofExcept

theorem Restriction.compiles_record {members : List (String × Document)} :
    (Restriction.record members).Compiles scope ↔ (Restriction.mapping
      (members.map fun member => (member.1, Literal.ofDocument member.2))).Compiles scope := by
  rw [Compiles, Compiles, Restriction.compile, Restriction.compile]

/-- The names that both sides show can be selected from a partner, in a subquery or not. -/
theorem Expression.assemblePartner_succeedsFrom_iff {common : List String} {count : AliasCount}
    (shown : ∀ name ∈ common, name ∈ partner.heading.names) :
    (partner.assemblePartner common (partner.statement checked)).SucceedsFrom count ↔
      partner.Prints checked := by
  have whole : ∃ list, partner.selectList? none = .ok list := exists_selectList (by simp)
  have part : ∃ list, partner.selectList? (some common) = .ok list :=
    exists_selectList fun _ same name inside => shown name (Option.some.inj same ▸ inside)
  have wrapped : ∃ list, partner.asSubquery.selectList? (some common) = .ok list :=
    exists_selectList fun _ same name inside => by
      rw [names_asSubquery]
      exact shown name (Option.some.inj same ▸ inside)
  unfold assemblePartner
  split
  · rw [Rendering.succeedsFrom_bind (partner.Prints checked), Rendering.succeedsFrom_ofExcept,
      and_iff_right wrapped]
    intro list later
    rw [Rendering.succeedsFrom_bind True, statement_succeedsFrom_iff, and_iff_right whole, and_true]
    intro inner between
    rw [Rendering.succeedsFrom_bind True (by simp)]
    simp
  · rw [statement_succeedsFrom_iff, and_iff_right part]

/-- A semijoin on shared names is compiled, negated or not and whatever aliases were given before,
when its partner is accepted and can be rendered. -/
theorem Restriction.semijoin_succeedsFrom_iff {negated required : Bool} {count : AliasCount}
    (shared : scope.heading.common partner.heading ≠ []) :
    ((Restriction.semijoin partner required).compile scope negated).SucceedsFrom count ↔
      scope.accept partner required = .ok () ∧ partner.Prints scope.checked := by
  have shown : ∀ name ∈ scope.heading.common partner.heading, name ∈ partner.heading.names :=
    fun name inside => (Heading.mem_common.1 inside).2
  have joined : (partner.semijoined scope.checked negated
      (scope.heading.common partner.heading)).SucceedsFrom count ↔
        partner.Prints scope.checked := by
    unfold Expression.semijoined
    split
    · contradiction
    · rw [Rendering.succeedsFrom_bind True (by simp), and_true]
      exact Expression.assemblePartner_succeedsFrom_iff shown
  rw [← joined]
  unfold Rendering.SucceedsFrom
  simp only [yields_semijoin]
  constructor
  · rintro ⟨compiled, later, accepted, run⟩
    exact ⟨accepted, compiled, later, run⟩
  · rintro ⟨accepted, compiled, later, run⟩
    exact ⟨compiled, later, accepted, run⟩

/-- A semijoin on shared names compiles when its partner is accepted and can be rendered. -/
theorem Restriction.compiles_semijoin {required : Bool}
    (shared : scope.heading.common partner.heading ≠ []) :
    (Restriction.semijoin partner required).Compiles scope ↔
      scope.accept partner required = .ok () ∧ partner.Prints scope.checked :=
  semijoin_succeedsFrom_iff shared

end Compiling

theorem Rendering.succeeds_iff_fresh {α : Type} {rendering : Rendering α} :
    rendering.Succeeds ↔ ∃ value, rendering.fresh = .ok value :=
  ⟨fun ⟨value, _, run⟩ => ⟨value, congrArg Prod.fst run⟩,
    fun ⟨value, run⟩ => ⟨value, _, Prod.ext run rfl⟩⟩

/-- The text of an expression is that of its statement. -/
theorem Expression.sql_eq_ok {e : Expression} {fields : Option (List String)} {text : String} :
    e.sql fields = .ok text ↔ ∃ statement,
      (e.statement e.session.config.semanticCheck fields).fresh = .ok statement ∧
        text = statement.text e.session.config := by
  unfold sql
  cases (e.statement e.session.config.semanticCheck fields).fresh <;> simp [Except.map, eq_comm]

/-- An expression has SQL text when its statement can be rendered. -/
theorem Expression.sql_succeeds_iff {e : Expression} :
    (∃ text, e.sql none = .ok text) ↔ e.Prints e.session.config.semanticCheck := by
  have list : ∃ list, e.selectList? none = .ok list := exists_selectList (by simp)
  have statement : (e.statement e.session.config.semanticCheck none).Succeeds ↔
      e.Prints e.session.config.semanticCheck :=
    statement_succeedsFrom_iff.trans (and_iff_right list)
  rw [← statement, Rendering.succeeds_iff_fresh]
  simp [sql_eq_ok]

end QueryAlgebra
