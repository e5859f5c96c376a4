/-
This file shows that later alias counts shift the aliases of a rendering and change nothing else.
-/
import QueryAlgebra.Proofs.RenderingRuns

namespace QueryAlgebra

def AliasCount.plus (count offset : AliasCount) : AliasCount :=
  ⟨count.subqueries + offset.subqueries, count.unions + offset.unions⟩

theorem AliasCount.zero_plus (count : AliasCount) : AliasCount.zero.plus count = count := by
  simp [plus, zero]

def Alias.shift (offset : AliasCount) : Alias → Alias
  | ⟨.subquery, number⟩ => ⟨.subquery, number + offset.subqueries⟩
  | ⟨.union, number⟩ => ⟨.union, number + offset.unions⟩

theorem AliasCount.next_plus (count offset : AliasCount) (kind : AliasKind) :
    (count.plus offset).next kind =
      ((count.next kind).1.shift offset, (count.next kind).2.plus offset) := by
  cases kind <;> simp [next, plus, Alias.shift, Nat.add_right_comm]

mutual

/-- Every alias inside a formula is shifted. -/
def Formula.shift (offset : AliasCount) : Formula → Formula
  | .raw sql => .raw sql
  | .comparison comparison => .comparison comparison
  | .negation formula => .negation (formula.shift offset)
  | .conjunction formulas => .conjunction (shiftFormulas offset formulas)
  | .disjunction formulas => .disjunction (shiftFormulas offset formulas)
  | .membership columns negated statement =>
      .membership columns negated (statement.shift offset)
  | .existence negated statement => .existence negated (statement.shift offset)

def shiftFormulas (offset : AliasCount) : List Formula → List Formula
  | [] => []
  | formula :: rest => formula.shift offset :: shiftFormulas offset rest

def Condition.shift (offset : AliasCount) : Condition → Condition
  | .constant value => .constant value
  | .formula inner => .formula (inner.shift offset)

def Relation.shift (offset : AliasCount) : Relation → Relation
  | .table name => .table name
  | .join left right keepAll => .join (left.shift offset) (right.shift offset) keepAll
  | .derived statement name => .derived (statement.shift offset) (name.shift offset)
  | .union left right name =>
      .union (left.shift offset) (right.shift offset) (name.shift offset)

def Statement.shift (offset : AliasCount) : Statement → Statement
  | ⟨distinct, list, origin, filter, groups, groupFilter⟩ =>
      ⟨distinct, list, origin.shift offset, filter.shift offset, groups,
        groupFilter.shift offset⟩

end

theorem shiftFormulas_eq_map (offset : AliasCount) (formulas : List Formula) :
    shiftFormulas offset formulas = formulas.map (Formula.shift offset) := by
  induction formulas with
  | nil => rfl
  | cons formula rest ih => rw [shiftFormulas, ih, List.map_cons]

/-- The mentioned columns have nothing to do with aliases. -/
def Compiled.shift (offset : AliasCount) (compiled : Compiled) : Compiled :=
  ⟨compiled.condition.shift offset, compiled.columns⟩

@[simp] theorem Condition.isConstant_shift (offset : AliasCount) (value : Bool)
    (condition : Condition) :
    (condition.shift offset).isConstant value = condition.isConstant value := by
  cases condition <;> rfl

theorem Formula.negatedWhen_shift (offset : AliasCount) (negated : Bool) (formula : Formula) :
    (Formula.negatedWhen negated formula).shift offset =
      Formula.negatedWhen negated (formula.shift offset) := by
  cases negated <;> rfl

theorem Condition.formula?_shift (offset : AliasCount) (conditions : List Condition) :
    (conditions.map (Condition.shift offset)).filterMap Condition.formula? =
      (conditions.filterMap Condition.formula?).map (Formula.shift offset) := by
  rw [List.filterMap_map, List.map_filterMap]
  congr 1
  funext condition
  cases condition <;> rfl

theorem Condition.any_isConstant_shift (offset : AliasCount) (value : Bool)
    (conditions : List Condition) :
    (conditions.map (Condition.shift offset)).any (Condition.isConstant value) =
      conditions.any (Condition.isConstant value) := by
  rw [List.any_map]
  congr 1
  funext condition
  exact condition.isConstant_shift offset value

theorem Condition.combine_shift (offset : AliasCount) (absorbing negated : Bool)
    (connective : List Formula → Formula) (conditions : List Condition)
    (inside : ∀ formulas, (connective formulas).shift offset =
      connective (formulas.map (Formula.shift offset))) :
    (Condition.combine absorbing connective negated conditions).shift offset =
      Condition.combine absorbing connective negated
        (conditions.map (Condition.shift offset)) := by
  unfold Condition.combine
  rw [any_isConstant_shift, formula?_shift]
  cases conditions.any (Condition.isConstant absorbing) with
  | true => rfl
  | false =>
      cases conditions.filterMap Condition.formula? with
      | nil => rfl
      | cons formula rest =>
          simp only [Bool.false_eq_true, if_false, List.map_cons, Condition.shift,
            Formula.negatedWhen_shift, inside]

theorem Condition.conjunction_shift (offset : AliasCount) (negated : Bool)
    (conditions : List Condition) :
    (Condition.conjunction negated conditions).shift offset =
      Condition.conjunction negated (conditions.map (Condition.shift offset)) := by
  rw [conjunction_eq_combine, conjunction_eq_combine]
  exact combine_shift offset false negated .conjunction conditions fun formulas => by
    rw [Formula.shift, shiftFormulas_eq_map]

theorem Condition.disjunction_shift (offset : AliasCount) (negated : Bool)
    (conditions : List Condition) :
    (Condition.disjunction negated conditions).shift offset =
      Condition.disjunction negated (conditions.map (Condition.shift offset)) := by
  rw [disjunction_eq_combine, disjunction_eq_combine]
  exact combine_shift offset true negated .disjunction conditions fun formulas => by
    rw [Formula.shift, shiftFormulas_eq_map]

/-- From a count that is ahead by an offset, the second rendering has the shifted outcome. -/
def Rendering.Shifts {α : Type} (offset : AliasCount) (shift : α → α)
    (first second : Rendering α) : Prop :=
  ∀ count, second.runFrom (count.plus offset) =
    ((first.runFrom count).1.map shift, (first.runFrom count).2.plus offset)

section Steps

variable {α β : Type} {offset : AliasCount} {shift : α → α} {shift' : β → β}

theorem Rendering.Shifts.pure (value : α) :
    Rendering.Shifts offset shift (Pure.pure value) (Pure.pure (shift value)) :=
  fun _ => rfl

theorem Rendering.Shifts.ofExcept {result : Except Fault α} (same : result.map shift = result) :
    Rendering.Shifts offset shift (.ofExcept result) (.ofExcept result) := by
  intro count
  rw [runFrom_ofExcept, runFrom_ofExcept, same]

theorem Rendering.Shifts.bind {first second : Rendering α} {next next' : α → Rendering β}
    (start : Rendering.Shifts offset shift first second)
    (step : ∀ value, Rendering.Shifts offset shift' (next value) (next' (shift value))) :
    Rendering.Shifts offset shift' (first >>= next) (second >>= next') := by
  intro count
  rw [runFrom_bind, runFrom_bind, start count]
  rcases first.runFrom count with ⟨fault | value, later⟩
  · rfl
  · exact step value later

theorem Rendering.Shifts.alias (kind : AliasKind) :
    Rendering.Shifts offset (Alias.shift offset) (.alias kind) (.alias kind) := by
  intro count
  rw [runFrom_alias, runFrom_alias, count.next_plus offset kind]
  rfl

/-- Whatever does not depend on aliases is passed on unchanged. -/
theorem Rendering.Shifts.lift {result : Except Fault α} {next next' : α → Rendering β}
    (step : ∀ value, Rendering.Shifts offset shift' (next value) (next' value)) :
    Rendering.Shifts offset shift' (.ofExcept result >>= next) (.ofExcept result >>= next') := by
  intro count
  rw [runFrom_bind, runFrom_bind, runFrom_ofExcept, runFrom_ofExcept]
  cases result with
  | error fault => rfl
  | ok value => exact step value count

end Steps

variable {offset : AliasCount}

theorem Expression.assemble_shifts (e : Expression) (fields : Option (List String))
    {origin : Rendering Relation} {sourceCondition : Option (Rendering Condition)}
    {condition : Rendering Condition}
    (origins : Rendering.Shifts offset (Relation.shift offset) origin origin)
    (sources : ∀ source ∈ sourceCondition,
      Rendering.Shifts offset (Condition.shift offset) source source)
    (conditions : Rendering.Shifts offset (Condition.shift offset) condition condition) :
    Rendering.Shifts offset (Statement.shift offset)
      (e.assemble fields origin sourceCondition condition)
      (e.assemble fields origin sourceCondition condition) := by
  unfold Expression.assemble
  refine .lift fun list => .bind origins fun relation => ?_
  cases sourceCondition with
  | none => exact .bind conditions fun filter => .pure _
  | some source =>
      exact .bind (sources source rfl) fun filter =>
        .bind conditions fun groupFilter => .pure _

theorem Expression.assemblePartner_shifts (partner : Expression) (common : List String)
    {statement : Option (List String) → Rendering Statement}
    (statements : ∀ fields, Rendering.Shifts offset (Statement.shift offset)
      (statement fields) (statement fields)) :
    Rendering.Shifts offset (Statement.shift offset)
      (partner.assemblePartner common statement) (partner.assemblePartner common statement) := by
  unfold Expression.assemblePartner
  split
  · exact .lift fun list => .bind (statements none) fun inner => .bind (.alias .subquery)
      fun name => .pure _
  · exact statements (some common)

theorem Compiled.compared_shift (negated : Bool) (columns : NameSet)
    (comparisons : List Comparison) :
    (Compiled.compared negated columns comparisons).shift offset =
      Compiled.compared negated columns comparisons := by
  cases comparisons with
  | nil => rfl
  | cons first rest =>
      have inside : ∀ items : List Comparison,
          shiftFormulas offset (items.map Formula.comparison) =
            items.map Formula.comparison := by
        intro items
        rw [shiftFormulas_eq_map, List.map_map]
        rfl
      simp only [Compiled.compared, Compiled.shift, Condition.shift, Formula.negatedWhen_shift,
        Formula.shift, inside]

theorem Scope.compare_shifts (scope : Scope) (negated : Bool) (pairs : List (String × Literal)) :
    (scope.compare negated pairs).map (Compiled.shift offset) = scope.compare negated pairs := by
  rw [Scope.compare_eq_map]
  cases (scope.matching pairs).mapM fun pair => scope.heading.compare? pair.1 pair.2 with
  | error fault => rfl
  | ok comparisons => exact congrArg Except.ok (Compiled.compared_shift negated _ comparisons)

theorem compileRaw_shifts (negated : Bool) (sql : String) :
    (compileRaw negated sql).map (Compiled.shift offset) = compileRaw negated sql := by
  unfold compileRaw
  dsimp only
  split
  · rfl
  · simp only [Except.map, Compiled.shift, Condition.shift, Formula.negatedWhen_shift,
      Formula.shift]

theorem map_condition_shift (parts : List Compiled) :
    (parts.map (Compiled.shift offset)).map (·.condition) =
      (parts.map (·.condition)).map (Condition.shift offset) := by
  rw [List.map_map, List.map_map]
  rfl

theorem allColumns_shift (parts : List Compiled) :
    allColumns (parts.map (Compiled.shift offset)) = allColumns parts := by
  unfold allColumns
  rw [List.foldl_map]
  rfl

mutual

/-- A restriction compiles alike from all counts. -/
theorem Restriction.compile_shifts (scope : Scope) (negated : Bool) :
    ∀ restriction : Restriction, Rendering.Shifts offset (Compiled.shift offset)
      (restriction.compile scope negated) (restriction.compile scope negated)
  | .constant value => by
      rw [Restriction.compile]
      exact .pure _
  | .raw sql => by
      rw [Restriction.compile]
      exact .ofExcept (compileRaw_shifts negated sql)
  | .mapping pairs => by
      rw [Restriction.compile]
      exact .ofExcept (scope.compare_shifts negated pairs)
  | .record members => by
      rw [Restriction.compile]
      exact .ofExcept (scope.compare_shifts negated _)
  | .disjunction items => by
      rw [Restriction.compile]
      refine .bind (compileAll_shifts scope items) fun parts => ?_
      rw [map_condition_shift, allColumns_shift, ← Condition.disjunction_shift]
      exact .pure _
  | .conjunction items => by
      rw [Restriction.compile]
      refine .bind (compileAll_shifts scope items) fun parts => ?_
      rw [map_condition_shift, allColumns_shift, ← Condition.conjunction_shift]
      exact .pure _
  | .negation restriction => by
      rw [Restriction.compile]
      exact restriction.compile_shifts scope (!negated)
  | .universal _ => by
      rw [Restriction.compile]
      exact .pure _
  | .semijoin partner checked => by
      rw [Restriction.compile]
      have statements : ∀ fields, Rendering.Shifts offset (Statement.shift offset) _ _ :=
        fun fields => partner.assemble_shifts fields (partner.origin_shifts scope.checked)
          (partner.sourceCondition_shifts scope.checked) (partner.condition_shifts scope.checked)
      refine .lift fun accepted => ?_
      dsimp only
      split
      · refine .bind (partner.condition_shifts scope.checked) fun condition => ?_
        rw [Condition.isConstant_shift]
        split
        · exact .pure _
        · exact .bind (statements none) fun inner => .pure _
      · exact .bind (partner.assemblePartner_shifts _ statements) fun inner => .pure _

theorem compileAll_shifts (scope : Scope) :
    ∀ items : List Restriction, Rendering.Shifts offset (List.map (Compiled.shift offset))
      (compileAll scope items) (compileAll scope items)
  | [] => by
      rw [compileAll]
      exact .pure _
  | restriction :: rest => by
      rw [compileAll]
      exact .bind (restriction.compile_shifts scope false) fun first =>
        .bind (compileAll_shifts scope rest) fun others => .pure _

theorem Operator.origin_shifts (checked : Bool) :
    ∀ (operator : Operator) (names : List String),
      Rendering.Shifts offset (Relation.shift offset) (operator.origin checked names)
        (operator.origin checked names)
  | .table name, _ => by
      rw [Operator.origin]
      exact .pure _
  | .join left right keepAll, _ => by
      rw [Operator.origin]
      exact .bind (left.origin_shifts checked) fun _ =>
        .bind (right.origin_shifts checked) fun _ => .pure _
  | .projection source, _ => by
      rw [Operator.origin]
      exact source.origin_shifts checked
  | .grouping source, _ => by
      rw [Operator.origin]
      exact source.origin_shifts checked
  | .union left right, names => by
      rw [Operator.origin]
      exact .bind (left.assemble_shifts _ (left.origin_shifts checked)
          (left.sourceCondition_shifts checked) (left.condition_shifts checked)) fun _ =>
        .bind (right.assemble_shifts _ (right.origin_shifts checked)
          (right.sourceCondition_shifts checked) (right.condition_shifts checked)) fun _ =>
        .bind (.alias .union) fun _ => .pure _
  | .subquery inner, _ => by
      rw [Operator.origin]
      exact .bind (inner.assemble_shifts _ (inner.origin_shifts checked)
          (inner.sourceCondition_shifts checked) (inner.condition_shifts checked)) fun _ =>
        .bind (.alias .subquery) fun _ => .pure _

theorem Operator.sourceCondition_shifts (checked : Bool) :
    ∀ operator : Operator, ∀ source ∈ operator.sourceCondition checked,
      Rendering.Shifts offset (Condition.shift offset) source source
  | .table _ => by simp [Operator.sourceCondition]
  | .join _ _ _ => by simp [Operator.sourceCondition]
  | .projection _ => by simp [Operator.sourceCondition]
  | .union _ _ => by simp [Operator.sourceCondition]
  | .subquery _ => by simp [Operator.sourceCondition]
  | .grouping source => by
      intro condition found
      rw [Operator.sourceCondition, Option.mem_some_iff] at found
      rw [← found]
      exact source.condition_shifts checked

theorem Expression.origin_shifts (checked : Bool) :
    ∀ e : Expression, Rendering.Shifts offset (Relation.shift offset) (e.origin checked)
      (e.origin checked)
  | ⟨_, operator, heading, _, _, _, _⟩ => by
      rw [Expression.origin]
      exact operator.origin_shifts checked heading.names

theorem Expression.sourceCondition_shifts (checked : Bool) :
    ∀ e : Expression, ∀ source ∈ e.sourceCondition checked,
      Rendering.Shifts offset (Condition.shift offset) source source
  | ⟨_, operator, _, _, _, _, _⟩ => by
      rw [Expression.sourceCondition]
      exact operator.sourceCondition_shifts checked

theorem Expression.condition_shifts (checked : Bool) :
    ∀ e : Expression, Rendering.Shifts offset (Condition.shift offset) (e.condition checked)
      (e.condition checked)
  | ⟨session, _, heading, _, restrictions, _, _⟩ => by
      rw [Expression.condition]
      refine .bind (compileAll_shifts _ restrictions) fun parts => ?_
      rw [map_condition_shift, ← Condition.conjunction_shift]
      exact .pure _

end

/-- A rendering succeeds from every count if it succeeds from one of them. -/
theorem Rendering.Shifts.exists_yields_iff {α : Type} {count : AliasCount} {shift : α → α}
    {rendering : Rendering α} (shifts : Rendering.Shifts count shift rendering rendering) :
    (∃ value later, rendering.Yields count value later) ↔
      ∃ value later, rendering.Yields AliasCount.zero value later := by
  have start := shifts AliasCount.zero
  rw [count.zero_plus] at start
  unfold Yields
  rw [start]
  rcases rendering.runFrom AliasCount.zero with ⟨fault | original, before⟩
  · simp [Except.map]
  · simp [Except.map]

/-- A restriction compiles in a scope when no part of it is refused. -/
def Restriction.Compiles (scope : Scope) (restriction : Restriction) : Prop :=
  ∃ compiled later, (restriction.compile scope false).Yields AliasCount.zero compiled later

section Compiling

variable {scope : Scope}

/-- Whether a restriction compiles does not depend on the aliases given before. -/
theorem Restriction.compiles_iff {restriction : Restriction} (count : AliasCount) :
    restriction.Compiles scope ↔
      ∃ compiled later, (restriction.compile scope false).Yields count compiled later :=
  (restriction.compile_shifts scope false).exists_yields_iff.symm

/-- A list compiles when all of its restrictions do. -/
theorem compileAll_yields_iff {items : List Restriction} (count : AliasCount) :
    (∃ parts later, (compileAll scope items).Yields count parts later) ↔
      ∀ restriction ∈ items, restriction.Compiles scope := by
  induction items generalizing count with
  | nil => simp [compileAll]
  | cons first rest ih =>
      rw [List.forall_mem_cons, Restriction.compiles_iff count]
      constructor
      · rintro ⟨parts, later, run⟩
        obtain ⟨head, between, others, start, tail, _⟩ := yields_compileAll_cons.1 run
        exact ⟨⟨head, between, start⟩, (ih between).1 ⟨others, later, tail⟩⟩
      · rintro ⟨⟨head, between, start⟩, tail⟩
        obtain ⟨others, later, run⟩ := (ih between).2 tail
        have whole := yields_compileAll_cons.2 ⟨head, between, others, start, run, rfl⟩
        exact ⟨head :: others, later, whole⟩

theorem Restriction.compiles_conjunction {items : List Restriction} :
    (Restriction.conjunction items).Compiles scope ↔
      ∀ restriction ∈ items, restriction.Compiles scope := by
  rw [← compileAll_yields_iff AliasCount.zero]
  constructor
  · rintro ⟨compiled, later, run⟩
    obtain ⟨parts, inside, _⟩ := yields_conjunction.1 run
    exact ⟨parts, later, inside⟩
  · rintro ⟨parts, later, inside⟩
    exact ⟨_, later, yields_conjunction.2 ⟨parts, inside, rfl⟩⟩

end Compiling

end QueryAlgebra
