/-
This file follows the numbers that renderings give to aliases.
They ascend in reading order, also over several statements that share one count.
-/
import QueryAlgebra.Expression.Sql
import QueryAlgebra.Proofs.AliasReading
import QueryAlgebra.Proofs.Reachability

namespace QueryAlgebra

def AliasCount.given (count : AliasCount) : AliasKind → Nat
  | .subquery => count.subqueries
  | .union => count.unions

/-- Aliases of one kind ascend from one count to a later one, and numbers may be skipped. -/
structure Numbered (count : AliasCount) (aliases : List Alias) (later : AliasCount) : Prop where
  grows : ∀ kind, count.given kind ≤ later.given kind
  ascends : aliases.Pairwise fun first second =>
    first.kind = second.kind → first.number < second.number
  after : ∀ derived ∈ aliases, count.given derived.kind < derived.number
  upTo : ∀ derived ∈ aliases, derived.number ≤ later.given derived.kind

section Numbers

variable {count between later : AliasCount} {aliases others : List Alias}

theorem Numbered.nil (count : AliasCount) : Numbered count [] count where
  grows := fun _ => Nat.le_refl _
  ascends := .nil
  after := List.forall_mem_nil _
  upTo := List.forall_mem_nil _

theorem Numbered.next (count : AliasCount) (kind : AliasKind) :
    Numbered count [(count.next kind).1] (count.next kind).2 where
  grows := by cases kind <;> rintro ⟨⟩ <;> simp [AliasCount.next, AliasCount.given]
  ascends := List.pairwise_singleton _ _
  after := by cases kind <;> simp [AliasCount.next, AliasCount.given]
  upTo := by cases kind <;> simp [AliasCount.next, AliasCount.given]

/-- Aliases that are given later are read later. -/
theorem Numbered.append (first : Numbered count aliases between)
    (second : Numbered between others later) : Numbered count (aliases ++ others) later where
  grows := fun kind => Nat.le_trans (first.grows kind) (second.grows kind)
  ascends := by
    refine List.pairwise_append.2 ⟨first.ascends, second.ascends, ?_⟩
    intro early inside late member kinds
    have reached := first.upTo early inside
    rw [kinds] at reached
    exact Nat.lt_of_le_of_lt reached (second.after late member)
  after := by
    refine List.forall_mem_append.2 ⟨first.after, fun late member => ?_⟩
    exact Nat.lt_of_le_of_lt (first.grows late.kind) (second.after late member)
  upTo := by
    refine List.forall_mem_append.2 ⟨fun early inside => ?_, second.upTo⟩
    exact Nat.le_trans (first.upTo early inside) (second.grows early.kind)

/-- Aliases that are given and not written leave a gap. -/
theorem Numbered.sublist (numbered : Numbered count aliases later)
    (part : others.Sublist aliases) : Numbered count others later where
  grows := numbered.grows
  ascends := numbered.ascends.sublist part
  after := fun derived inside => numbered.after derived (part.subset inside)
  upTo := fun derived inside => numbered.upTo derived (part.subset inside)

end Numbers

/-- A rendering gives ascending numbers. What it yields reads the aliases that are held already
and then those that it has given, and it can leave out some of both. -/
def Rendering.Numbers {α : Type} (held : List Alias) (aliases : α → List Alias)
    (rendering : Rendering α) : Prop :=
  ∀ count, ∃ given, Numbered count given (rendering.runFrom count).2 ∧
    ∀ value, (rendering.runFrom count).1 = .ok value → (aliases value).Sublist (held ++ given)

section Steps

variable {α β : Type} {held : List Alias} {aliases : α → List Alias} {aliases' : β → List Alias}

theorem Rendering.Numbers.pure {value : α} (part : (aliases value).Sublist held) :
    Rendering.Numbers held aliases (Pure.pure value) := by
  intro count
  refine ⟨[], Numbered.nil count, fun result same => ?_⟩
  injection same with same
  rwa [← same, List.append_nil]

theorem Rendering.Numbers.ofExcept {result : Except Fault α}
    (none : ∀ value, result = .ok value → aliases value = []) :
    Rendering.Numbers held aliases (.ofExcept result) := by
  intro count
  refine ⟨[], Numbered.nil count, fun value same => ?_⟩
  rw [none value same]
  exact List.nil_sublist _

theorem Rendering.Numbers.alias (kind : AliasKind) :
    Rendering.Numbers [] (fun derived => [derived]) (.alias kind) := by
  intro count
  refine ⟨_, Numbered.next count kind, fun derived same => ?_⟩
  injection same with same
  rw [← same]
  exact List.Sublist.refl _

/-- A second rendering holds what the first one yields. -/
theorem Rendering.Numbers.bind {first : Rendering α} {next : α → Rendering β}
    (start : Rendering.Numbers [] aliases first)
    (step : ∀ value, Rendering.Numbers (held ++ aliases value) aliases' (next value)) :
    Rendering.Numbers held aliases' (first >>= next) := by
  intro count
  obtain ⟨given, numbered, read⟩ := start count
  rw [runFrom_bind]
  generalize first.runFrom count = outcome at numbered read ⊢
  rcases outcome with ⟨fault | value, between⟩
  · exact ⟨given, numbered, fun _ same => nomatch same⟩
  · obtain ⟨others, later, readOn⟩ := step value between
    refine ⟨given ++ others, numbered.append later, fun result same => ?_⟩
    rw [← List.append_assoc]
    exact (readOn result same).trans
      (((List.Sublist.refl held).append (read value rfl)).append (.refl others))

/-- Whatever gives no aliases changes nothing. -/
theorem Rendering.Numbers.lift {result : Except Fault α} {next : α → Rendering β}
    (step : ∀ value, Rendering.Numbers held aliases' (next value)) :
    Rendering.Numbers held aliases' (.ofExcept result >>= next) := by
  have none : Rendering.Numbers [] (fun _ : α => ([] : List Alias)) (.ofExcept result) :=
    .ofExcept fun _ _ => rfl
  refine .bind none fun value => ?_
  rw [List.append_nil]
  exact step value

end Steps

/-- Folding constants leaves aliases out and keeps the others in order. -/
theorem Condition.aliases_combine {absorbing negated : Bool}
    {connective : List Formula → Formula} (conditions : List Condition)
    (inside : ∀ formulas, (connective formulas).aliases = formulaAliases formulas) :
    (Condition.combine absorbing connective negated conditions).aliases.Sublist
      (conditions.flatMap Condition.aliases) := by
  have kept : formulaAliases (conditions.filterMap Condition.formula?) =
      conditions.flatMap Condition.aliases := by
    rw [formulaAliases_eq_flatMap]
    induction conditions with
    | nil => rfl
    | cons first rest ih =>
        rw [List.flatMap_cons, ← ih, List.filterMap_cons]
        cases first with
        | constant value => simp [Condition.formula?, Condition.aliases]
        | formula inner => simp [Condition.formula?, Condition.aliases]
  unfold Condition.combine
  split
  · rw [Condition.aliases]
    exact List.nil_sublist _
  · split
    · rw [Condition.aliases]
      exact List.nil_sublist _
    · rw [Condition.aliases, Formula.aliases_negatedWhen, inside, kept]

theorem Condition.aliases_conjunction (negated : Bool) (conditions : List Condition) :
    (Condition.conjunction negated conditions).aliases.Sublist
      (conditions.flatMap Condition.aliases) := by
  rw [conjunction_eq_combine]
  exact aliases_combine conditions fun formulas => by rw [Formula.aliases]

theorem Condition.aliases_disjunction (negated : Bool) (conditions : List Condition) :
    (Condition.disjunction negated conditions).aliases.Sublist
      (conditions.flatMap Condition.aliases) := by
  rw [disjunction_eq_combine]
  exact aliases_combine conditions fun formulas => by rw [Formula.aliases]

def Compiled.aliases (compiled : Compiled) : List Alias := compiled.condition.aliases

theorem flatMap_condition_aliases (parts : List Compiled) :
    (parts.map (·.condition)).flatMap Condition.aliases = parts.flatMap Compiled.aliases :=
  List.flatMap_map _ _ _

theorem Compiled.aliases_compared (negated : Bool) (columns : NameSet)
    (comparisons : List Comparison) :
    (Compiled.compared negated columns comparisons).aliases = [] := by
  cases comparisons with
  | nil => rfl
  | cons first rest =>
      have inside : ∀ items : List Comparison,
          formulaAliases (items.map Formula.comparison) = [] := by
        intro items
        rw [formulaAliases_eq_flatMap, List.flatMap_map]
        simp [Formula.aliases]
      show (Condition.formula _).aliases = []
      rw [Condition.aliases, Formula.aliases_negatedWhen, Formula.aliases, inside]

theorem Scope.aliases_of_compare {scope : Scope} {negated : Bool}
    {pairs : List (String × Literal)} {compiled : Compiled}
    (compared : scope.compare negated pairs = .ok compiled) : compiled.aliases = [] := by
  obtain ⟨comparisons, _, rfl⟩ := Scope.compare_eq_ok.1 compared
  exact Compiled.aliases_compared negated _ comparisons

theorem aliases_of_compileRaw {negated : Bool} {sql : String} {compiled : Compiled}
    (built : compileRaw negated sql = .ok compiled) : compiled.aliases = [] := by
  obtain ⟨_, rfl⟩ := compileRaw_eq_ok.1 built
  rw [Compiled.aliases, Condition.aliases, Formula.aliases_negatedWhen, Formula.aliases]

/-- The clauses of a statement are rendered in the order in which they are read. -/
theorem Expression.assemble_numbers (e : Expression) (fields : Option (List String))
    {origin : Rendering Relation} {sourceCondition : Option (Rendering Condition)}
    {condition : Rendering Condition}
    (origins : Rendering.Numbers [] Relation.aliases origin)
    (sources : ∀ source ∈ sourceCondition, Rendering.Numbers [] Condition.aliases source)
    (conditions : Rendering.Numbers [] Condition.aliases condition) :
    Rendering.Numbers [] Statement.aliases
      (e.assemble fields origin sourceCondition condition) := by
  unfold Expression.assemble
  refine .lift fun list => .bind origins fun relation => ?_
  cases sourceCondition with
  | none =>
      refine .bind conditions fun filter => .pure ?_
      simp [Statement.aliases, Condition.aliases]
  | some source =>
      refine .bind (sources source rfl) fun filter => .bind conditions fun groupFilter => .pure ?_
      simp [Statement.aliases]

theorem Expression.assemblePartner_numbers (partner : Expression) (common : List String)
    {statement : Option (List String) → Rendering Statement}
    (statements : ∀ fields, Rendering.Numbers [] Statement.aliases (statement fields)) :
    Rendering.Numbers [] Statement.aliases (partner.assemblePartner common statement) := by
  unfold Expression.assemblePartner
  split
  · refine .lift fun list => .bind (statements none) fun inner =>
      .bind (.alias .subquery) fun name => .pure ?_
    simp [Statement.aliases, Relation.aliases, Condition.aliases]
  · exact statements (some common)

mutual

/-- A restriction gives the numbers of its aliases in reading order. -/
theorem Restriction.compile_numbers (scope : Scope) (negated : Bool) :
    ∀ restriction : Restriction,
      Rendering.Numbers [] Compiled.aliases (restriction.compile scope negated)
  | .constant value => by
      rw [Restriction.compile]
      exact .pure (List.nil_sublist _)
  | .raw sql => by
      rw [Restriction.compile]
      exact .ofExcept fun _ => aliases_of_compileRaw
  | .mapping pairs => by
      rw [Restriction.compile]
      exact .ofExcept fun _ => Scope.aliases_of_compare
  | .record members => by
      rw [Restriction.compile]
      exact .ofExcept fun _ => Scope.aliases_of_compare
  | .disjunction items => by
      rw [Restriction.compile]
      refine .bind (compileAll_numbers scope items) fun parts => .pure ?_
      rw [List.nil_append, ← flatMap_condition_aliases]
      exact Condition.aliases_disjunction negated _
  | .conjunction items => by
      rw [Restriction.compile]
      refine .bind (compileAll_numbers scope items) fun parts => .pure ?_
      rw [List.nil_append, ← flatMap_condition_aliases]
      exact Condition.aliases_conjunction negated _
  | .negation restriction => by
      rw [Restriction.compile]
      exact restriction.compile_numbers scope (!negated)
  | .universal _ => by
      rw [Restriction.compile]
      exact .pure (List.nil_sublist _)
  | .semijoin partner checked => by
      rw [Restriction.compile]
      have statements : ∀ fields, Rendering.Numbers [] Statement.aliases _ := fun fields =>
        partner.assemble_numbers fields (partner.origin_numbers scope.checked)
          (partner.sourceCondition_numbers scope.checked) (partner.condition_numbers scope.checked)
      refine .lift fun accepted => ?_
      dsimp only
      split
      · -- the condition of the partner is rendered once more inside its statement
        refine .bind (partner.condition_numbers scope.checked) fun condition => ?_
        split
        · exact .pure (List.nil_sublist _)
        · refine .bind (statements none) fun inner => .pure ?_
          rw [Compiled.aliases, Condition.aliases, Formula.aliases]
          exact List.sublist_append_right _ _
      · refine .bind (partner.assemblePartner_numbers _ statements) fun inner => .pure ?_
        rw [Compiled.aliases, Condition.aliases, Formula.aliases, List.nil_append]

theorem compileAll_numbers (scope : Scope) :
    ∀ items : List Restriction,
      Rendering.Numbers [] (List.flatMap Compiled.aliases) (compileAll scope items)
  | [] => by
      rw [compileAll]
      exact .pure (List.nil_sublist _)
  | restriction :: rest => by
      rw [compileAll]
      refine .bind (restriction.compile_numbers scope false) fun first =>
        .bind (compileAll_numbers scope rest) fun others => .pure ?_
      rw [List.nil_append, List.flatMap_cons]

theorem Operator.origin_numbers (checked : Bool) :
    ∀ (operator : Operator) (names : List String),
      Rendering.Numbers [] Relation.aliases (operator.origin checked names)
  | .table name, _ => by
      rw [Operator.origin]
      refine .pure ?_
      rw [Relation.aliases]
  | .join left right keepAll, _ => by
      rw [Operator.origin]
      refine .bind (left.origin_numbers checked) fun _ =>
        .bind (right.origin_numbers checked) fun _ => .pure ?_
      rw [Relation.aliases, List.nil_append]
  | .projection source, _ => by
      rw [Operator.origin]
      exact source.origin_numbers checked
  | .grouping source, _ => by
      rw [Operator.origin]
      exact source.origin_numbers checked
  | .union left right, names => by
      rw [Operator.origin]
      refine .bind (left.assemble_numbers _ (left.origin_numbers checked)
          (left.sourceCondition_numbers checked) (left.condition_numbers checked)) fun _ =>
        .bind (right.assemble_numbers _ (right.origin_numbers checked)
          (right.sourceCondition_numbers checked) (right.condition_numbers checked)) fun _ =>
        .bind (.alias .union) fun _ => .pure ?_
      rw [Relation.aliases, List.nil_append]
  | .subquery inner, _ => by
      rw [Operator.origin]
      refine .bind (inner.assemble_numbers _ (inner.origin_numbers checked)
          (inner.sourceCondition_numbers checked) (inner.condition_numbers checked)) fun _ =>
        .bind (.alias .subquery) fun _ => .pure ?_
      rw [Relation.aliases, List.nil_append]

theorem Operator.sourceCondition_numbers (checked : Bool) :
    ∀ operator : Operator, ∀ source ∈ operator.sourceCondition checked,
      Rendering.Numbers [] Condition.aliases source
  | .table _ => by simp [Operator.sourceCondition]
  | .join _ _ _ => by simp [Operator.sourceCondition]
  | .projection _ => by simp [Operator.sourceCondition]
  | .union _ _ => by simp [Operator.sourceCondition]
  | .subquery _ => by simp [Operator.sourceCondition]
  | .grouping source => by
      intro condition found
      rw [Operator.sourceCondition, Option.mem_some_iff] at found
      rw [← found]
      exact source.condition_numbers checked

theorem Expression.origin_numbers (checked : Bool) :
    ∀ e : Expression, Rendering.Numbers [] Relation.aliases (e.origin checked)
  | ⟨_, operator, heading, _, _, _, _⟩ => by
      rw [Expression.origin]
      exact operator.origin_numbers checked heading.names

theorem Expression.sourceCondition_numbers (checked : Bool) :
    ∀ e : Expression, ∀ source ∈ e.sourceCondition checked,
      Rendering.Numbers [] Condition.aliases source
  | ⟨_, operator, _, _, _, _, _⟩ => by
      rw [Expression.sourceCondition]
      exact operator.sourceCondition_numbers checked

theorem Expression.condition_numbers (checked : Bool) :
    ∀ e : Expression, Rendering.Numbers [] Condition.aliases (e.condition checked)
  | ⟨session, _, heading, _, restrictions, _, _⟩ => by
      rw [Expression.condition]
      refine .bind (compileAll_numbers _ restrictions) fun parts => .pure ?_
      rw [List.nil_append, ← flatMap_condition_aliases]
      exact Condition.aliases_conjunction false _

end

theorem Expression.statement_numbers (e : Expression) (checked : Bool)
    (fields : Option (List String)) :
    Rendering.Numbers [] Statement.aliases (e.statement checked fields) :=
  e.assemble_numbers fields (e.origin_numbers checked) (e.sourceCondition_numbers checked)
    (e.condition_numbers checked)

/-- A statement is asked for under a configuration, with all fields or with chosen ones. -/
structure Request where
  expression : Expression
  config : Config
  fields : Option (List String)

def Request.rendering (request : Request) : Rendering Statement :=
  request.expression.statement request.config.semanticCheck request.fields

/-- The statements of requests that share one count. A request that fails leaves no statement,
and its aliases stay given. -/
def renderEach : List Request → AliasCount → List Statement × AliasCount
  | [], count => ([], count)
  | request :: rest, count =>
      match request.rendering.runFrom count with
      | (.ok statement, between) =>
          (statement :: (renderEach rest between).1, (renderEach rest between).2)
      | (.error _, between) => renderEach rest between

/-- Numbers ascend from one statement to the next. -/
theorem renderEach_numbered (requests : List Request) (count : AliasCount) :
    Numbered count ((renderEach requests count).1.flatMap Statement.aliases)
      (renderEach requests count).2 := by
  induction requests generalizing count with
  | nil => exact Numbered.nil count
  | cons request rest ih =>
      obtain ⟨given, numbered, read⟩ :=
        request.expression.statement_numbers request.config.semanticCheck request.fields count
      rw [renderEach]
      unfold Request.rendering
      split
      · rename_i statement between outcome
        rw [outcome] at numbered read
        exact (numbered.sublist (read statement rfl)).append (ih between)
      · rename_i fault between outcome
        rw [outcome] at numbered
        exact (numbered.sublist (List.nil_sublist _)).append (ih between)

/-- Aliases of one kind that are read at different places differ in their texts. -/
theorem Numbered.texts_differ {count later : AliasCount} {aliases : List Alias}
    (numbered : Numbered count aliases later) :
    aliases.Pairwise fun first second => first.kind = second.kind → ∀ config other : Config,
      config.label first.kind = other.label first.kind →
        first.text config ≠ second.text other := by
  refine numbered.ascends.imp fun {first second} ascends kinds config other labels same => ?_
  have equal := Alias.number_of_text kinds labels same
  exact Nat.ne_of_lt (ascends kinds) equal

/-- What a rendering yields from one count it yields shifted from every count. -/
theorem Rendering.exists_base {α : Type} {shift : AliasCount → α → α} {rendering : Rendering α}
    (shifts : ∀ offset, Rendering.Shifts offset (shift offset) rendering rendering)
    {count later : AliasCount} {value : α} (yields : rendering.Yields count value later) :
    ∃ (base : α) (used : AliasCount), value = shift count base ∧ later = used.plus count ∧
      ∀ start, rendering.Yields start (shift start base) (used.plus start) := by
  have started : ∀ start, rendering.runFrom start =
      ((rendering.runFrom AliasCount.zero).1.map (shift start),
        (rendering.runFrom AliasCount.zero).2.plus start) := by
    intro start
    rw [← shifts start AliasCount.zero, start.zero_plus]
  unfold Yields at yields ⊢
  rw [started count] at yields
  rcases outcome : rendering.runFrom AliasCount.zero with ⟨fault | base, used⟩
  · rw [outcome] at yields
    cases yields
  · rw [outcome] at yields
    cases yields
    refine ⟨base, used, rfl, rfl, fun start => ?_⟩
    rw [started start, outcome]
    rfl

theorem Expression.statement_shifts (e : Expression) (checked : Bool)
    (fields : Option (List String)) (offset : AliasCount) :
    Rendering.Shifts offset (Statement.shift offset) (e.statement checked fields)
      (e.statement checked fields) :=
  e.assemble_shifts fields (e.origin_shifts checked) (e.sourceCondition_shifts checked)
    (e.condition_shifts checked)

theorem Expression.numbered_of_yields {e : Expression} {checked : Bool}
    {fields : Option (List String)} {count later : AliasCount} {statement : Statement}
    (rendered : (e.statement checked fields).Yields count statement later) :
    Numbered count statement.aliases later := by
  obtain ⟨given, ascending, read⟩ := e.statement_numbers checked fields count
  unfold Rendering.Yields at rendered
  rw [rendered] at ascending read
  exact ascending.sublist (read statement rfl)

/-- The aliases of a statement ascend in the order in which its text shows them, between the
counts before and after. They differ from those of all statements that share the count later,
and another start adds a constant to each number and changes nothing else. -/
theorem Expression.numbered_of_statement {e : Expression} {checked : Bool}
    {fields : Option (List String)} {count later : AliasCount} {statement : Statement}
    (rendered : (e.statement checked fields).Yields count statement later) :
    Numbered count statement.aliases later ∧
      (∀ config, Shows config statement.aliases (statement.text config)) ∧
      (∀ requests,
        let written := statement.aliases ++
          (renderEach requests later).1.flatMap Statement.aliases
        Numbered count written (renderEach requests later).2 ∧
          written.Pairwise fun first second => first.kind = second.kind →
            ∀ config other : Config, config.label first.kind = other.label first.kind →
              first.text config ≠ second.text other) ∧
      ∃ (base : Statement) (used : AliasCount), statement = base.shift count ∧
        later = used.plus count ∧ ∀ start,
          (e.statement checked fields).Yields start (base.shift start) (used.plus start) := by
  have numbered := Expression.numbered_of_yields rendered
  refine ⟨numbered, fun config => statement.shows_text config, fun requests => ?_,
    Rendering.exists_base (e.statement_shifts checked fields) rendered⟩
  have whole := numbered.append (renderEach_numbered requests later)
  exact ⟨whole, whole.texts_differ⟩

/-- Subjects behind a subquery, if any animal is an animal. -/
def guardedSubjects : Except Fault Expression := do
  let subjects ← Expression.ofTable laboratory subjectDeclaration
  let animals ← subjects.projectItems [] (Renames.ofList [("animal", "subject_id")]) true
  let herd ← animals.asSubquery.restrict (.semijoin animals true)
  subjects.asSubquery.restrict (.semijoin herd true)

/-- The condition of a partner without common names is rendered twice, so the aliases skip a
number. -/
theorem Expression.numbered_of_statement_of_animals :
    ∃ guarded statement later, guardedSubjects = .ok guarded ∧
      (guarded.statement true none).Yields ⟨16, 4⟩ statement later ∧
      statement.aliases = [⟨.subquery, 17⟩, ⟨.subquery, 19⟩, ⟨.subquery, 20⟩] ∧
      Numbered ⟨16, 4⟩ statement.aliases later := by
  have evaluates : (guardedSubjects.bind fun guarded =>
      ((guarded.statement true none).runFrom ⟨16, 4⟩).1.map Statement.aliases).toOption =
        some [⟨.subquery, 17⟩, ⟨.subquery, 19⟩, ⟨.subquery, 20⟩] := by
    decide +kernel
  cases built : guardedSubjects with
  | error fault =>
    rw [built] at evaluates
    contradiction
  | ok guarded =>
    rcases rendered : (guarded.statement true none).runFrom ⟨16, 4⟩ with ⟨fault | statement, later⟩
    · simp only [built, Except.bind, rendered, Except.map] at evaluates
      contradiction
    · simp only [built, Except.bind, rendered, Except.map] at evaluates
      exact ⟨guarded, statement, later, rfl, rendered, Option.some.inj evaluates,
        (Expression.numbered_of_statement rendered).1⟩

end QueryAlgebra
