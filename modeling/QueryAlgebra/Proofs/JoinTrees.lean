/-
This file shows that the text of a FROM clause determines the joins of an expression. The joins
are those that are reached through projections and groupings, and the clause reads as their tree.
-/
import QueryAlgebra.Proofs.JoinGrammar
import QueryAlgebra.Proofs.Renderability

namespace QueryAlgebra

section Marking

/-- The text of a relation in which the derived tables stand as wholes. -/
def Relation.symbols (config : Config) : Relation → List FromSymbol
  | .table name => characters name
  | .join left right keepAll =>
      left.symbols config ++ characters (joinText keepAll) ++
        if right.isJoin then [.char '('] ++ right.symbols config ++ [.char ')']
        else right.symbols config
  | .derived statement name => [.derived ((Relation.derived statement name).text config)]
  | .union left right name => [.derived ((Relation.union left right name).text config)]

theorem chars_characters (text : String) :
    (characters text).flatMap FromSymbol.chars = text.toList := by
  rw [characters, List.flatMap_map]
  exact List.flatMap_singleton' _

theorem Relation.text_join (config : Config) (left right : Relation) (keepAll : Bool) :
    (Relation.join left right keepAll).text config =
      left.text config ++ joinText keepAll ++
        if right.isJoin then "(" ++ right.text config ++ ")" else right.text config := by
  rw [Relation.text]
  rfl

/-- The symbols spell out the text. -/
theorem Relation.chars_symbols (config : Config) (relation : Relation) :
    (relation.symbols config).flatMap FromSymbol.chars = (relation.text config).toList := by
  cases relation with
  | table name => rw [symbols, chars_characters, text]
  | derived statement name => simp [symbols, FromSymbol.chars]
  | union left right name => simp [symbols, FromSymbol.chars]
  | join left right keepAll =>
      have first := left.chars_symbols config
      have second := right.chars_symbols config
      rw [text_join, symbols, List.flatMap_append, List.flatMap_append, first, chars_characters,
        String.toList_append, String.toList_append]
      congr 1
      split
      · simp [second, FromSymbol.chars]
      · exact second

/-- A relation that is no join and whose name, if it is a table, can be read back. -/
inductive Relation.IsUnit : Relation → Prop where
  | table (declaration : TableDeclaration) (schema : backtick ∉ declaration.schema.toList)
      (table : backtick ∉ declaration.table.toList) : (Relation.table declaration.fullName).IsUnit
  | derived (statement : Statement) (name : Alias) : (Relation.derived statement name).IsUnit
  | union (left right : Statement) (name : Alias) : (Relation.union left right name).IsUnit

theorem Relation.IsUnit.isJoin {relation : Relation} (unit : relation.IsUnit) :
    relation.isJoin = false := by
  cases unit <;> rfl

theorem scans_fullName {declaration : TableDeclaration}
    (schema : backtick ∉ declaration.schema.toList)
    (table : backtick ∉ declaration.table.toList) :
    Scans (characters declaration.fullName)
      [.quoted declaration.schema, .dot, .quoted declaration.table] := by
  have split : characters declaration.fullName =
      characters (quoteName declaration.schema) ++ [.char '.'] ++
        characters (quoteName declaration.table) := by
    simp [characters, TableDeclaration.fullName]
  rw [split]
  exact ((scans_quoteName schema).append scans_dot).append (scans_quoteName table)

/-- A unit reads as itself. -/
theorem Relation.IsUnit.reads {relation : Relation} (unit : relation.IsUnit) (config : Config) :
    ∃ tokens, Scans (relation.symbols config) tokens ∧
      ReadsAs .operand tokens (.unit (relation.text config)) := by
  cases unit with
  | table declaration schema table =>
      refine ⟨_, by rw [symbols]; exact scans_fullName schema table, ?_⟩
      rw [text]
      exact .table declaration.schema declaration.table
  | derived statement name =>
      exact ⟨_, by rw [symbols]; exact scans_derived _, .derived _⟩
  | union left right name =>
      exact ⟨_, by rw [symbols]; exact scans_derived _, .derived _⟩

def JoinTree.isJoin {α : Type} : JoinTree α → Bool
  | .unit _ => false
  | .join _ _ _ => true

/-- The relation whose joins a tree describes. -/
def JoinTree.relation : JoinTree Relation → Relation
  | .unit relation => relation
  | .join left right keepAll => .join left.relation right.relation keepAll

theorem JoinTree.isJoin_relation {units : JoinTree Relation}
    (all : ∀ unit ∈ units.leaves, unit.IsUnit) : units.relation.isJoin = units.isJoin := by
  cases units with
  | unit relation => exact (all relation List.mem_cons_self).isJoin
  | join left right keepAll => rfl

/-- A right operand is a unit or a join between parentheses. -/
def JoinTree.text : JoinTree String → String
  | .unit text => text
  | .join left right keepAll =>
      left.text ++ joinText keepAll ++
        if right.isJoin then "(" ++ right.text ++ ")" else right.text

theorem JoinTree.isJoin_map {α β : Type} (f : α → β) (tree : JoinTree α) :
    (tree.map f).isJoin = tree.isJoin := by
  cases tree <;> rfl

theorem JoinTree.text_relation {units : JoinTree Relation}
    (all : ∀ unit ∈ units.leaves, unit.IsUnit) (config : Config) :
    units.relation.text config = (units.map (Relation.text config)).text := by
  induction units with
  | unit relation => rfl
  | join left right keepAll first second =>
      obtain ⟨before, behind⟩ := List.forall_mem_append.1 all
      rw [relation, Relation.text_join, isJoin_relation behind, first before, second behind,
        JoinTree.map, JoinTree.text, isJoin_map]

/-- The relation of a tree reads as that tree, and without a join it is an operand too. -/
theorem JoinTree.reads_relation {units : JoinTree Relation}
    (all : ∀ unit ∈ units.leaves, unit.IsUnit) (config : Config) :
    ∃ tokens, Scans (units.relation.symbols config) tokens ∧
      ReadsAs .clause tokens (units.map (Relation.text config)) ∧
      (units.isJoin = false → ReadsAs .operand tokens (units.map (Relation.text config))) := by
  induction units with
  | unit relation =>
      obtain ⟨tokens, scans, reads⟩ := (all relation List.mem_cons_self).reads config
      exact ⟨tokens, scans, .operand reads, fun _ => reads⟩
  | join left right keepAll first second =>
      obtain ⟨before, behind⟩ := List.forall_mem_append.1 all
      obtain ⟨leftTokens, leftScans, leftReads, _⟩ := first before
      obtain ⟨rightTokens, rightScans, rightReads, alone⟩ := second behind
      rw [relation, Relation.symbols, isJoin_relation behind]
      have head := leftScans.append (scans_joinText keepAll)
      cases nested : right.isJoin with
      | true =>
          have enclosed := (scans_opening.append rightScans).append scans_closing
          exact ⟨_, head.append enclosed,
            .join keepAll leftReads (.parenthesised rightReads), nofun⟩
      | false =>
          exact ⟨_, head.append rightScans, .join keepAll leftReads (alone nested), nofun⟩

end Marking

section Expressions

mutual

/-- The joins that an operator reads from, unless it is a unit. -/
def Operator.joinTree? : Operator → Option (JoinTree Expression)
  | .table _ | .union _ _ | .subquery _ => none
  | .join left right keepAll => some (.join left.joinTree right.joinTree keepAll)
  | .projection source | .grouping source => some source.joinTree

/-- The joins that are reached through the sources of projections and groupings. -/
def Expression.joinTree : Expression → JoinTree Expression
  | ⟨session, operator, heading, columns, restrictions, restricting, distinct⟩ =>
      operator.joinTree?.getD
        (.unit ⟨session, operator, heading, columns, restrictions, restricting, distinct⟩)

end

theorem Expression.joinTree_eq (e : Expression) :
    e.joinTree = e.operator.joinTree?.getD (.unit e) := by
  cases e
  rw [joinTree]

/-- The units are rendered from left to right. -/
def JoinTree.render (checked : Bool) : JoinTree Expression → Rendering (JoinTree Relation)
  | .unit e => do return .unit (← e.origin checked)
  | .join left right keepAll => do
      let left ← left.render checked
      let right ← right.render checked
      return .join left right keepAll

theorem Expression.joinTree_of_unit {e : Expression} (unit : e.operator.joinTree? = none) :
    e.joinTree = .unit e := by
  rw [joinTree_eq, unit]
  rfl

/-- A join reads from the join of what its operands read from. -/
theorem Expression.origin_of_join {e left right : Expression} {keepAll checked : Bool}
    {count later : AliasCount} {relation : Relation}
    (operator : e.operator = .join left right keepAll)
    (yields : (e.origin checked).Yields count relation later) :
    ∃ first between second, (left.origin checked).Yields count first between ∧
      (right.origin checked).Yields between second later ∧
      relation = .join first second keepAll := by
  rw [e.origin_eq, operator, Operator.origin] at yields
  obtain ⟨first, between, head, yields⟩ := Rendering.yields_bind.1 yields
  obtain ⟨second, tail, rfl⟩ := Rendering.yields_map.1 yields
  exact ⟨first, between, second, head, tail, rfl⟩

/-- The FROM clause of an expression is that of its tree. -/
theorem Expression.exists_units (e : Expression) {checked : Bool} {count later : AliasCount}
    {relation : Relation} (yields : (e.origin checked).Yields count relation later) :
    ∃ units, (e.joinTree.render checked).Yields count units later ∧ units.relation = relation := by
  have alone : e.operator.joinTree? = none → ∃ units,
      (e.joinTree.render checked).Yields count units later ∧ units.relation = relation := by
    intro unit
    rw [joinTree_of_unit unit]
    exact ⟨.unit relation, Rendering.yields_map.2 ⟨relation, yields, rfl⟩, rfl⟩
  cases operator : e.operator with
  | table name => exact alone (by rw [operator, Operator.joinTree?])
  | union left right => exact alone (by rw [operator, Operator.joinTree?])
  | subquery inner => exact alone (by rw [operator, Operator.joinTree?])
  | projection source | grouping source =>
      rw [e.origin_eq, operator, Operator.origin] at yields
      rw [e.joinTree_eq, operator, Operator.joinTree?]
      exact source.exists_units yields
  | join left right keepAll =>
      obtain ⟨first, between, second, head, tail, rfl⟩ := origin_of_join operator yields
      obtain ⟨before, start, rfl⟩ := left.exists_units head
      obtain ⟨behind, rest, rfl⟩ := right.exists_units tail
      rw [e.joinTree_eq, operator, Operator.joinTree?]
      refine ⟨.join before behind keepAll, ?_, rfl⟩
      refine Rendering.yields_bind.2 ⟨before, between, start, ?_⟩
      exact Rendering.yields_map.2 ⟨behind, rest, rfl⟩
termination_by sizeOf e
decreasing_by
  all_goals exact Expression.sizeOf_operand (by simp [operator, Operator.operands])

/-- The units of an expression are tables, unions and subqueries. -/
theorem Expression.unit_of_joinTree (e : Expression) :
    ∀ leaf ∈ e.joinTree.leaves, leaf.operator.joinTree? = none := by
  intro leaf inside
  cases operator : e.operator with
  | table name | union left right | subquery inner =>
      have unit : e.operator.joinTree? = none := by rw [operator, Operator.joinTree?]
      rw [joinTree_of_unit unit] at inside
      rw [List.mem_singleton.1 inside, unit]
  | projection source | grouping source =>
      rw [e.joinTree_eq, operator, Operator.joinTree?] at inside
      exact source.unit_of_joinTree leaf inside
  | join left right keepAll =>
      rw [e.joinTree_eq, operator, Operator.joinTree?] at inside
      rcases List.mem_append.1 inside with before | behind
      · exact left.unit_of_joinTree leaf before
      · exact right.unit_of_joinTree leaf behind
termination_by sizeOf e
decreasing_by
  all_goals exact Expression.sizeOf_operand (by simp [operator, Operator.operands])

variable {checked : Bool} {count later : AliasCount} {relation : Relation}

/-- What holds of the FROM clauses of all units holds of what the tree is rendered to. -/
theorem JoinTree.forall_leaves_render {holds : Relation → Prop} {tree : JoinTree Expression}
    (each : ∀ e ∈ tree.leaves, ∀ count relation later,
      (e.origin checked).Yields count relation later → holds relation)
    {units : JoinTree Relation} (yields : (tree.render checked).Yields count units later) :
    ∀ unit ∈ units.leaves, holds unit := by
  induction tree generalizing units count later with
  | unit e =>
      obtain ⟨relation, run, rfl⟩ := Rendering.yields_map.1 yields
      rw [leaves, List.forall_mem_singleton]
      exact each e List.mem_cons_self count relation later run
  | join left right keepAll first second =>
      obtain ⟨before, between, head, yields⟩ := Rendering.yields_bind.1 yields
      obtain ⟨behind, tail, rfl⟩ := Rendering.yields_map.1 yields
      obtain ⟨lefts, rights⟩ := List.forall_mem_append.1 each
      rw [leaves, List.forall_mem_append]
      exact ⟨first lefts head, second rights tail⟩

def Operator.tableName? : Operator → Option String
  | .table name => some name
  | _ => none

/-- The full names of the tables among the units. -/
def JoinTree.tableNames (tree : JoinTree Expression) : List String :=
  tree.leaves.filterMap (·.operator.tableName?)

/-- The full name of a table whose own name and schema can be read back from it. -/
def IsPlainName (name : String) : Prop :=
  ∃ declaration : TableDeclaration, name = declaration.fullName ∧
    backtick ∉ declaration.schema.toList ∧ backtick ∉ declaration.table.toList

/-- A unit reads from a table under its own name or from a derived table. -/
theorem Expression.origin_of_unit {e : Expression} (unit : e.operator.joinTree? = none)
    (yields : (e.origin checked).Yields count relation later) :
    (∃ name, e.operator = .table name ∧ relation = .table name) ∨
      (∃ statement name, relation = .derived statement name) ∨
      ∃ first second name, relation = .union first second name := by
  rw [e.origin_eq] at yields
  cases operator : e.operator with
  | table name =>
      rw [operator, Operator.origin] at yields
      exact .inl ⟨name, rfl, (Rendering.yields_pure.1 yields).1.symm⟩
  | union left right =>
      rw [operator, Operator.origin] at yields
      obtain ⟨first, _, _, yields⟩ := Rendering.yields_bind.1 yields
      obtain ⟨second, _, _, yields⟩ := Rendering.yields_bind.1 yields
      obtain ⟨name, _, rfl⟩ := Rendering.yields_map.1 yields
      exact .inr (.inr ⟨first, second, name, rfl⟩)
  | subquery inner =>
      rw [operator, Operator.origin] at yields
      obtain ⟨statement, _, _, yields⟩ := Rendering.yields_bind.1 yields
      obtain ⟨name, _, rfl⟩ := Rendering.yields_map.1 yields
      exact .inr (.inl ⟨statement, name, rfl⟩)
  | projection source | grouping source | join left right keepAll =>
      rw [operator, Operator.joinTree?] at unit
      contradiction

theorem Expression.readsFromJoin_eq (e : Expression) :
    e.readsFromJoin = e.operator.readsFromJoin := by
  cases e
  rw [readsFromJoin]

/-- Whether the FROM clause is a join can be told before it is rendered. -/
theorem Expression.isJoin_of_origin (e : Expression)
    (yields : (e.origin checked).Yields count relation later) :
    relation.isJoin = e.readsFromJoin := by
  rw [e.readsFromJoin_eq]
  have alone (unit : e.operator.joinTree? = none) : relation.isJoin = false := by
    obtain ⟨_, _, rfl⟩ | ⟨_, _, rfl⟩ | ⟨_, _, _, rfl⟩ := origin_of_unit unit yields <;> rfl
  cases operator : e.operator with
  | table name | union left right | subquery inner =>
      rw [Operator.readsFromJoin]
      exact alone (by rw [operator, Operator.joinTree?])
  | projection source | grouping source =>
      rw [e.origin_eq, operator, Operator.origin] at yields
      rw [Operator.readsFromJoin]
      exact source.isJoin_of_origin yields
  | join left right keepAll =>
      obtain ⟨first, _, second, _, _, rfl⟩ := origin_of_join operator yields
      rw [Operator.readsFromJoin, Relation.isJoin]
termination_by sizeOf e
decreasing_by
  all_goals exact Expression.sizeOf_operand (by simp [operator, Operator.operands])

/-- The right operand of a join stands between parentheses when it reads from a join itself. -/
theorem Expression.text_of_join {e left right : Expression} {keepAll : Bool} (config : Config)
    (operator : e.operator = .join left right keepAll)
    (yields : (e.origin checked).Yields count relation later) :
    ∃ first between second, (left.origin checked).Yields count first between ∧
      (right.origin checked).Yields between second later ∧
      relation.text config = first.text config ++ joinText keepAll ++
        if right.readsFromJoin then "(" ++ second.text config ++ ")" else second.text config := by
  obtain ⟨first, between, second, head, tail, rfl⟩ := origin_of_join operator yields
  refine ⟨first, between, second, head, tail, ?_⟩
  rw [Relation.text_join, right.isJoin_of_origin tail]

/-- The FROM clause of a unit is a unit, if the names of its table can be read back. -/
theorem Expression.isUnit_of_origin {e : Expression} (unit : e.operator.joinTree? = none)
    (plain : ∀ name ∈ e.operator.tableName?, IsPlainName name)
    (yields : (e.origin checked).Yields count relation later) : relation.IsUnit := by
  obtain ⟨name, operator, rfl⟩ | ⟨statement, name, rfl⟩ | ⟨first, second, name, rfl⟩ :=
    origin_of_unit unit yields
  · rw [operator] at plain
    obtain ⟨declaration, rfl, schema, table⟩ := plain name rfl
    exact .table declaration schema table
  · exact .derived statement name
  · exact .union first second name

/-- Where the names of the tables have no backticks, the text of a FROM clause determines the tree
of the joins that are reached through projections and groupings, each with its kind, and their
units in order. Every right operand is a unit or a join between parentheses. -/
theorem Expression.from_text_determines_joins {e : Expression} (config : Config)
    (rendered : (e.origin checked).Yields count relation later)
    (plain : ∀ name ∈ e.joinTree.tableNames, IsPlainName name) :
    ∃ units : JoinTree Relation, (e.joinTree.render checked).Yields count units later ∧
      (relation.symbols config).flatMap FromSymbol.chars = (relation.text config).toList ∧
      relation.text config = (units.map (Relation.text config)).text ∧
      ∀ tree, (∃ tokens, scanFrom (relation.symbols config) = some tokens ∧
        ReadsAs .clause tokens tree) ↔ tree = units.map (Relation.text config) := by
  obtain ⟨units, yields, rfl⟩ := e.exists_units rendered
  have named : ∀ leaf ∈ e.joinTree.leaves, ∀ name ∈ leaf.operator.tableName?, IsPlainName name :=
    fun leaf inside name table => plain name (List.mem_filterMap.2 ⟨leaf, inside, table⟩)
  have all : ∀ unit ∈ units.leaves, unit.IsUnit :=
    JoinTree.forall_leaves_render (fun leaf inside _ _ _ =>
      isUnit_of_origin (e.unit_of_joinTree leaf inside) (named leaf inside)) yields
  obtain ⟨tokens, scans, reads, _⟩ := units.reads_relation all config
  refine ⟨units, yields, units.relation.chars_symbols config, units.text_relation all config,
    fun tree => ⟨?_, ?_⟩⟩
  · rintro ⟨others, scanned, again⟩
    rw [scans.scanFrom] at scanned
    exact reads.unique (Option.some.inj scanned ▸ again)
  · rintro rfl
    exact ⟨tokens, scans.scanFrom, reads⟩

/-- A table that keeps all its rows is joined with a projected join of two subqueries. -/
def keptEntries : JoinTree String :=
  .join (.unit "`lab`.`log`")
    (.join (.unit "(SELECT `subject_id`,`species`,`sex` FROM `lab`.`subject`) AS `_s1`")
      (.unit "(SELECT `subject_id`,upper(species) AS `label` FROM `lab`.`subject`) AS `_s2`") false)
    true

theorem Expression.from_text_determines_joins_of_log :
    ∃ (e : Expression) (relation : Relation) (later : AliasCount),
      Reachable (· = laboratory) e ∧ (e.origin true).Yields AliasCount.zero relation later ∧
      relation.text laboratory.config = keptEntries.text ∧
      ∀ tree, (∃ tokens, scanFrom (relation.symbols laboratory.config) = some tokens ∧
        ReadsAs .clause tokens tree) ↔ tree = keptEntries := by
  have subjects := @Reachable.table (· = laboratory) laboratory subjectDeclaration _ rfl rfl
  have entries := @Reachable.table (· = laboratory) laboratory logDeclaration _ rfl rfl
  have labelled := @Reachable.project (· = laboratory) _ _ []
    (Renames.ofList [("label", "upper(species)")]) true subjects rfl
  have joined := @Reachable.join (· = laboratory) _ _ _ ⟨false, true, true⟩ subjects labelled rfl
  have projected := @Reachable.project (· = laboratory) _ _ [.named "sex"] Renames.empty true
    joined rfl
  obtain ⟨e, reached, ⟨relation, rendered⟩, names, shape⟩ :
      ∃ e : Expression, Reachable (· = laboratory) e ∧
        (∃ relation, (e.origin true).fresh = .ok relation) ∧
        e.joinTree.tableNames = [logDeclaration.fullName] ∧
        (e.joinTree.render true).fresh.toOption.map (·.map (Relation.text laboratory.config)) =
          some keptEntries := by
    have kept := @Reachable.join (· = laboratory) _ _ _ ⟨true, true, true⟩ entries projected rfl
    exact ⟨_, kept, isOk_iff.1 (by decide +kernel), by decide +kernel, by decide +kernel⟩
  have plain : ∀ name ∈ e.joinTree.tableNames, IsPlainName name := by
    rw [names, List.forall_mem_singleton]
    exact ⟨logDeclaration, rfl, by decide, by decide⟩
  have run : (e.origin true).Yields AliasCount.zero relation _ := Prod.ext rendered rfl
  obtain ⟨units, yields, _, text, reads⟩ :=
    from_text_determines_joins laboratory.config run plain
  have ready : (e.joinTree.render true).fresh = .ok units := congrArg Prod.fst yields
  rw [ready] at shape
  have same : units.map (Relation.text laboratory.config) = keptEntries := Option.some.inj shape
  rw [same] at text reads
  exact ⟨e, relation, _, reached, run, text, reads⟩

end Expressions

end QueryAlgebra
