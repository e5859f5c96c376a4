/-
This file shows that equal expressions have alike statements. Alike statements agree in all
clauses, conditions and aliases, but they may list attributes in another order and compare with
equal literals that are written differently.
-/
import QueryAlgebra.Proofs.HeadingOrder
import QueryAlgebra.Proofs.Renderability
import QueryAlgebra.Proofs.SessionUnity

namespace QueryAlgebra

/-- Comparands come from equal literals, and equal literals may be written differently. -/
inductive Comparand.Alike : Comparand → Comparand → Prop where
  | same (comparand : Comparand) : Alike comparand comparand
  | literal {value other : Literal} (equal : (value == other) = true) :
      Alike value.comparand other.comparand
  | document {value other : Literal} (equal : (value == other) = true) :
      Alike (.singleQuoted value.text) (.singleQuoted other.text)

/-- The left sides of alike comparisons are the same. -/
structure Comparison.Alike (first second : Comparison) : Prop where
  operand : first.operand = second.operand
  comparand : first.comparand.Alike second.comparand

/-- The same entries are selected in any order. -/
inductive SelectList.Alike : SelectList → SelectList → Prop where
  | all : Alike .all .all
  | items {entries others : List SelectItem} (perm : entries.Perm others) :
      Alike (.items entries) (.items others)

mutual

inductive Formula.Alike : Formula → Formula → Prop where
  | raw (sql : String) : Formula.Alike (.raw sql) (.raw sql)
  | comparison {first second : Comparison} (alike : first.Alike second) :
      Formula.Alike (.comparison first) (.comparison second)
  | negation {first second : Formula} (inner : Formula.Alike first second) :
      Formula.Alike (.negation first) (.negation second)
  | conjunction {first second : List Formula} (each : List.Forall₂ Formula.Alike first second) :
      Formula.Alike (.conjunction first) (.conjunction second)
  | disjunction {first second : List Formula} (each : List.Forall₂ Formula.Alike first second) :
      Formula.Alike (.disjunction first) (.disjunction second)
  | membership {columns others : List String} {negated : Bool} {first second : Statement}
      (perm : columns.Perm others) (inner : Statement.Alike first second) :
      Formula.Alike (.membership columns negated first) (.membership others negated second)
  | existence {negated : Bool} {first second : Statement}
      (inner : Statement.Alike first second) :
      Formula.Alike (.existence negated first) (.existence negated second)

inductive Condition.Alike : Condition → Condition → Prop where
  | constant (value : Bool) : Condition.Alike (.constant value) (.constant value)
  | formula {first second : Formula} (inner : Formula.Alike first second) :
      Condition.Alike (.formula first) (.formula second)

inductive Relation.Alike : Relation → Relation → Prop where
  | table (name : String) : Relation.Alike (.table name) (.table name)
  | join {left left' right right' : Relation} {keepAll : Bool}
      (leftAlike : Relation.Alike left left') (rightAlike : Relation.Alike right right') :
      Relation.Alike (.join left right keepAll) (.join left' right' keepAll)
  | derived {first second : Statement} {name : Alias} (inner : Statement.Alike first second) :
      Relation.Alike (.derived first name) (.derived second name)
  | union {left left' right right' : Statement} {name : Alias}
      (leftAlike : Statement.Alike left left') (rightAlike : Statement.Alike right right') :
      Relation.Alike (.union left right name) (.union left' right' name)

inductive Statement.Alike : Statement → Statement → Prop where
  | select {distinct : Bool} {list list' : SelectList} {origin origin' : Relation}
      {filter filter' : Condition} {groups groups' : List String}
      {groupFilter groupFilter' : Condition} (lists : list.Alike list')
      (origins : Relation.Alike origin origin') (filters : Condition.Alike filter filter')
      (perm : groups.Perm groups') (groupFilters : Condition.Alike groupFilter groupFilter') :
      Statement.Alike ⟨distinct, list, origin, filter, groups, groupFilter⟩
        ⟨distinct, list', origin', filter', groups', groupFilter'⟩

end

/-- Compiled restrictions are alike when their conditions are and the columns are the same. -/
structure Compiled.Alike (first second : Compiled) : Prop where
  condition : first.condition.Alike second.condition
  columns : ∀ name, name ∈ first.columns ↔ name ∈ second.columns

/-- Both outcomes are faults, or related values are yielded and one count is left. -/
inductive SameOutcome {α β : Type} (related : α → β → Prop) :
    Except Fault α × AliasCount → Except Fault β × AliasCount → Prop where
  | refused (fault other : Fault) (later last : AliasCount) :
      SameOutcome related (.error fault, later) (.error other, last)
  | given {value : α} {other : β} (alike : related value other) (later : AliasCount) :
      SameOutcome related (.ok value, later) (.ok other, later)

/-- From every count, both renderings have the same outcome up to a relation. -/
def Rendering.Parallels {α β : Type} (related : α → β → Prop) (first : Rendering α)
    (second : Rendering β) : Prop :=
  ∀ count, SameOutcome related (first.runFrom count) (second.runFrom count)

section Steps

variable {α β γ δ : Type} {related : α → β → Prop} {related' : γ → δ → Prop}

theorem Rendering.Parallels.pure {value : α} {other : β} (alike : related value other) :
    Rendering.Parallels related (Pure.pure value) (Pure.pure other) :=
  fun count => .given alike count

theorem Rendering.Parallels.ofExcept {first : Except Fault α} {second : Except Fault β}
    (concurs : Concurs related first second) :
    Rendering.Parallels related (.ofExcept first) (.ofExcept second) := by
  intro count
  rw [runFrom_ofExcept, runFrom_ofExcept]
  cases concurs with
  | refused fault other => exact .refused fault other count count
  | given alike => exact .given alike count

theorem Rendering.Parallels.alias (kind : AliasKind) :
    Rendering.Parallels Eq (.alias kind) (.alias kind) :=
  fun count => .given rfl (count.next kind).2

theorem Rendering.Parallels.bind {first : Rendering α} {second : Rendering β}
    {next : α → Rendering γ} {next' : β → Rendering δ}
    (start : Rendering.Parallels related first second)
    (step : ∀ value other, related value other →
      Rendering.Parallels related' (next value) (next' other)) :
    Rendering.Parallels related' (first >>= next) (second >>= next') := by
  intro count
  rw [runFrom_bind, runFrom_bind]
  generalize first.runFrom count = outcome, second.runFrom count = outcome', start count = same
  cases same with
  | refused fault other later last => exact .refused fault other later last
  | given alike later => exact step _ _ alike later

theorem Rendering.Parallels.fresh {first : Rendering α} {second : Rendering β}
    (parallels : Rendering.Parallels related first second) :
    Concurs related first.fresh second.fresh := by
  have start := parallels AliasCount.zero
  unfold Rendering.fresh
  unfold Rendering.runFrom at start
  generalize first.run AliasCount.zero = outcome, second.run AliasCount.zero = outcome' at start
  cases start with
  | refused fault other _ _ => exact .refused fault other
  | given alike _ => exact .given alike

end Steps

/-- Equal literals are the same unless numbers with a sign are inside. -/
theorem Literal.same_cases {value other : Literal} (equal : (value == other) = true) :
    value = other ∨ (∃ x y, value = .float x ∧ other = .float y) ∨
      (∃ items others, value = .list items ∧ other = .list others) ∨
      ∃ first second, value = .document first ∧ other = .document second ∧
        (first == second) = true := by
  have same : value.same other = true := equal
  cases value <;> cases other <;> simp_all [Literal.same]

theorem Document.isObject_congr {first second : Document} (equal : (first == second) = true) :
    first.isObject = second.isObject := by
  have same : first.same second = true := equal
  cases first <;> cases second <;> simp_all [Document.same, Document.isObject]

section Literals

variable {value other : Literal}

theorem Literal.isNull_congr (equal : (value == other) = true) : value.isNull = other.isNull := by
  rcases same_cases equal with rfl | ⟨_, _, rfl, rfl⟩ | ⟨_, _, rfl, rfl⟩ | ⟨_, _, rfl, rfl, _⟩
  all_goals rfl

theorem Literal.isObject_congr (equal : (value == other) = true) :
    value.isObject = other.isObject := by
  rcases same_cases equal with rfl | ⟨_, _, rfl, rfl⟩ | ⟨_, _, rfl, rfl⟩ | ⟨_, _, rfl, rfl, inner⟩
  · rfl
  · rfl
  · rfl
  · exact Document.isObject_congr inner

theorem Attribute.uuidComparand?_congr (attr : Attribute) (equal : (value == other) = true) :
    Concurs Comparand.Alike (attr.uuidComparand? value) (attr.uuidComparand? other) := by
  rcases Literal.same_cases equal with
    rfl | ⟨_, _, rfl, rfl⟩ | ⟨_, _, rfl, rfl⟩ | ⟨_, _, rfl, rfl, _⟩
  · exact .same .same _
  all_goals exact .refused _ _

/-- Equal literals are compared alike. -/
theorem Attribute.comparand?_congr (attr : Attribute) (path : Option String)
    (equal : (value == other) = true) :
    Concurs Comparand.Alike (attr.comparand? path value) (attr.comparand? path other) := by
  unfold Attribute.comparand?
  rw [Literal.isObject_congr equal, Literal.isNull_congr equal]
  split
  · exact .given (.document equal)
  · split
    · exact .given (.same .absent)
    · split
      · exact attr.uuidComparand?_congr equal
      · exact .given (.literal equal)

theorem Heading.Reorders.compare? {first second : Heading} (same : first.Reorders second)
    (key : String) (equal : (value == other) = true) :
    Concurs Comparison.Alike (first.compare? key value) (second.compare? key other) := by
  unfold Heading.compare?
  rw [same.get?]
  split
  · exact .refused _ _
  · rename_i attr _
    refine .bind (.same Eq.refl (attr.operand? _)) fun operand _ operands => ?_
    exact .bind (attr.comparand?_congr _ equal) fun _ _ comparands =>
      .given ⟨operands, comparands⟩

end Literals

mutual

/-- Equal documents are equal as literals. -/
theorem Literal.ofDocument_congr : ∀ first second : Document, first.same second = true →
    (Literal.ofDocument first).same (Literal.ofDocument second) = true
  | .null => by
      intro second same
      cases second <;> simp_all [Document.same, Literal.ofDocument, Literal.same]
  | .bool _ => by
      intro second same
      cases second <;> simp_all [Document.same, Literal.ofDocument, Literal.same]
  | .int _ => by
      intro second same
      cases second <;> simp only [Document.same, Bool.false_eq_true, beq_iff_eq] at same
      rw [same]
      exact (BEq.rfl : (Literal.ofDocument _ == Literal.ofDocument _) = true)
  | .float _ => by
      intro second same
      cases second <;> simp_all [Document.same, Literal.ofDocument, Literal.same]
  | .string _ => by
      intro second same
      cases second <;> simp_all [Document.same, Literal.ofDocument, Literal.same]
  | .array items => by
      intro second same
      cases second <;> simp only [Document.same, Bool.false_eq_true] at same
      exact ofItems_congr items _ same
  | .object _ => by
      intro second same
      cases second <;> simp only [Document.same, Bool.false_eq_true] at same
      exact same

theorem ofItems_congr : ∀ first second : List Document,
    Document.same.sameItems first second = true →
      Literal.same.sameItems (Literal.ofDocument.ofItems first)
        (Literal.ofDocument.ofItems second) = true
  | [] => by
      intro second same
      cases second <;> simp_all [Document.same.sameItems, Literal.ofDocument.ofItems,
        Literal.same.sameItems]
  | head :: tail => by
      intro second same
      cases second with
      | nil => simp [Document.same.sameItems] at same
      | cons other others =>
          rw [Document.same.sameItems, Bool.and_eq_true] at same
          rw [Literal.ofDocument.ofItems, Literal.ofDocument.ofItems, Literal.same.sameItems,
            Bool.and_eq_true]
          exact ⟨Literal.ofDocument_congr head other same.1, ofItems_congr tail others same.2⟩

end

/-- The conditions of a list are alike one by one. -/
theorem forall₂_conditions {parts others : List Compiled}
    (alike : List.Forall₂ Compiled.Alike parts others) :
    List.Forall₂ Condition.Alike (parts.map (·.condition)) (others.map (·.condition)) := by
  rw [List.forall₂_map_left_iff, List.forall₂_map_right_iff]
  exact alike.imp fun _ _ both => both.condition

theorem mem_allColumns_congr {parts others : List Compiled}
    (alike : List.Forall₂ Compiled.Alike parts others) (name : String) :
    name ∈ allColumns parts ↔ name ∈ allColumns others := by
  rw [mem_allColumns, mem_allColumns]
  induction alike with
  | nil => rfl
  | cons head _ ih =>
      rw [List.exists_mem_cons_iff, List.exists_mem_cons_iff, ih, head.columns name]

section Combining

variable {condition other : Condition} {conditions others : List Condition}

theorem Condition.Alike.isConstant (alike : condition.Alike other) (value : Bool) :
    condition.isConstant value = other.isConstant value := by
  cases alike <;> rfl

theorem Formula.Alike.negatedWhen {first second : Formula} (alike : first.Alike second)
    (negated : Bool) :
    (Formula.negatedWhen negated first).Alike (Formula.negatedWhen negated second) := by
  cases negated with
  | false => exact alike
  | true => exact .negation alike

theorem any_isConstant_congr (alike : List.Forall₂ Condition.Alike conditions others)
    (value : Bool) :
    conditions.any (Condition.isConstant value) = others.any (Condition.isConstant value) := by
  induction alike with
  | nil => rfl
  | cons head _ ih => rw [List.any_cons, List.any_cons, head.isConstant, ih]

theorem forall₂_formulas (alike : List.Forall₂ Condition.Alike conditions others) :
    List.Forall₂ Formula.Alike (conditions.filterMap Condition.formula?)
      (others.filterMap Condition.formula?) := by
  induction alike with
  | nil => exact .nil
  | cons head _ ih =>
      cases head with
      | constant value => exact ih
      | formula inner => exact .cons inner ih

/-- Connectives that keep formulas alike keep whole conditions alike. -/
theorem Condition.Alike.combine (alike : List.Forall₂ Condition.Alike conditions others)
    (absorbing negated : Bool) {connective : List Formula → Formula}
    (inside : ∀ {formulas formulas'}, List.Forall₂ Formula.Alike formulas formulas' →
      (connective formulas).Alike (connective formulas')) :
    (Condition.combine absorbing connective negated conditions).Alike
      (Condition.combine absorbing connective negated others) := by
  unfold Condition.combine
  rw [any_isConstant_congr alike]
  split
  · exact .constant _
  · generalize conditions.filterMap Condition.formula? = formulas,
      others.filterMap Condition.formula? = formulas', forall₂_formulas alike = each
    cases each with
    | nil => exact .constant _
    | cons head tail => exact .formula ((inside (.cons head tail)).negatedWhen negated)

theorem Condition.Alike.conjunction (alike : List.Forall₂ Condition.Alike conditions others)
    (negated : Bool) :
    (Condition.conjunction negated conditions).Alike (Condition.conjunction negated others) := by
  rw [conjunction_eq_combine, conjunction_eq_combine]
  exact .combine alike false negated .conjunction

theorem Condition.Alike.disjunction (alike : List.Forall₂ Condition.Alike conditions others)
    (negated : Bool) :
    (Condition.disjunction negated conditions).Alike (Condition.disjunction negated others) := by
  rw [disjunction_eq_combine, disjunction_eq_combine]
  exact .combine alike true negated .disjunction

end Combining

/-- Both scopes read restrictions in the same way. -/
structure Scope.Alike (first second : Scope) : Prop where
  heading : first.heading.Reorders second.heading
  session : first.session.same second.session = true
  checked : first.checked = second.checked

/-- The same keys have equal values. -/
def SamePairs (pairs others : List (String × Literal)) : Prop :=
  List.Forall₂ (fun pair other => pair.1 = other.1 ∧ (pair.2 == other.2) = true) pairs others

/-- Equal mappings have the same keys in the same order. -/
theorem keys_congr {pairs others : List (String × Literal)} (same : SamePairs pairs others) :
    pairs.map (fun pair => (splitPath pair.1).1) = others.map fun pair => (splitPath pair.1).1 := by
  rw [← List.forall₂_eq_eq_eq, List.forall₂_map_left_iff, List.forall₂_map_right_iff]
  exact same.imp fun pair other both => by rw [both.1]

section Scopes

variable {scope scope' : Scope}

theorem Scope.Alike.matching (scopes : scope.Alike scope') {pairs others : List (String × Literal)}
    (same : SamePairs pairs others) :
    SamePairs (scope.matching pairs) (scope'.matching others) := by
  unfold Scope.matching
  rw [scopes.heading.contains]
  refine List.rel_filter ?_ same
  rintro ⟨key, value⟩ ⟨_, other⟩ ⟨rfl, _⟩
  rfl

theorem Compiled.Alike.compared {comparisons others : List Comparison}
    (alike : List.Forall₂ Comparison.Alike comparisons others) (negated : Bool)
    (columns : NameSet) :
    (Compiled.compared negated columns comparisons).Alike
      (Compiled.compared negated columns others) := by
  have each : List.Forall₂ Formula.Alike (comparisons.map Formula.comparison)
      (others.map Formula.comparison) := by
    rw [List.forall₂_map_left_iff, List.forall₂_map_right_iff]
    exact alike.imp fun _ _ => .comparison
  cases alike with
  | nil => exact ⟨.constant _, fun _ => .rfl⟩
  | cons _ _ =>
      exact ⟨.formula (Formula.Alike.negatedWhen (.conjunction each) negated), fun _ => .rfl⟩

/-- Equal mappings are compared alike. -/
theorem Scope.Alike.compare (scopes : scope.Alike scope') (negated : Bool)
    {pairs others : List (String × Literal)} (same : SamePairs pairs others) :
    Concurs Compiled.Alike (scope.compare negated pairs) (scope'.compare negated others) := by
  have matching := scopes.matching same
  rw [Scope.compare_eq_map, Scope.compare_eq_map, keys_congr matching]
  refine .map (.mapM (matching.imp fun pair other both => ?_)) fun _ _ alike =>
    .compared alike negated _
  rw [both.1]
  exact scopes.heading.compare? _ both.2

/-- Equal records have the same keys with equal values. -/
theorem samePairs_of_members {members others : List (String × Document)}
    (same : (Document.object members == Document.object others) = true) :
    SamePairs (members.map fun member => (member.1, Literal.ofDocument member.2))
      (others.map fun member => (member.1, Literal.ofDocument member.2)) := by
  have inside : Document.same.sameMembers members others = true := same
  unfold SamePairs
  rw [List.forall₂_map_left_iff, List.forall₂_map_right_iff]
  induction members generalizing others with
  | nil => cases others <;> simp_all [Document.same.sameMembers]
  | cons member rest ih =>
      cases others with
      | nil => simp [Document.same.sameMembers] at inside
      | cons other tail =>
          simp only [Document.same.sameMembers, Bool.and_eq_true, beq_iff_eq] at inside
          exact .cons ⟨inside.1.1, Literal.ofDocument_congr _ _ inside.1.2⟩ (ih inside.2 inside.2)

theorem compileRaw_concurs (negated : Bool) (sql : String) :
    Concurs Compiled.Alike (compileRaw negated sql) (compileRaw negated sql) := by
  unfold compileRaw
  dsimp only
  split
  · exact .refused _ _
  · exact .given ⟨.formula (Formula.Alike.negatedWhen (.raw _) negated), fun _ => .rfl⟩

/-- The same partners are accepted. -/
theorem Scope.Alike.accept (scopes : scope.Alike scope') {partner other : Expression}
    (sessions : partner.session.same other.session = true)
    (headings : partner.heading.Reorders other.heading) (checked : Bool) :
    Concurs (fun _ _ => True) (scope.accept partner checked) (scope'.accept other checked) := by
  have same : scope.session.same partner.session = scope'.session.same other.session := by
    rw [Bool.eq_iff_iff, Session.same_iff, Session.same_iff, Session.same_iff.1 scopes.session,
      Session.same_iff.1 sessions]
  unfold Scope.accept
  rw [same, scopes.checked]
  split
  · exact .refused _ _
  · split
    · have passed := scopes.heading.homologous headings
      exact .of_iff ⟨fun ⟨_, first⟩ => ⟨(), passed.1 first⟩,
        fun ⟨_, second⟩ => ⟨(), passed.2 second⟩⟩ fun _ _ _ _ => trivial
    · exact .given trivial

end Scopes

/-- Operators of equal kinds are read in the same way. -/
theorem Operator.kind_congr {first second : Operator} (same : first.same second = true) :
    first.isGrouping = second.isGrouping ∧ first.hidesColumns = second.hidesColumns ∧
      ((∃ inner, first = .subquery inner) ↔ ∃ inner, second = .subquery inner) := by
  cases first <;> cases second <;>
    simp_all [Operator.same, Operator.isGrouping, Operator.hidesColumns]

theorem Heading.Reorders.select? {first second : Heading} (same : first.Reorders second)
    {fields fields' : Option (List String)} (chosen : Option.Rel List.Perm fields fields') :
    Concurs List.Perm (first.select? fields) (second.select? fields') := by
  unfold Heading.select?
  rw [same.get?]
  cases chosen with
  | none => exact .given (same.visible.map _)
  | some perm => exact .mapM_perm _ perm

/-- What assembling looks at in two expressions is the same. -/
structure Expression.Resembles (first second : Expression) : Prop where
  session : first.session.same second.session = true
  operator : first.operator.same second.operator = true
  heading : first.heading.Reorders second.heading
  distinct : first.distinct = second.distinct

theorem Expression.resembles_of_same {first second : Expression}
    (same : first.same second = true) : first.Resembles second := by
  rw [same_eq] at same
  simp only [Bool.and_eq_true, beq_iff_eq, Heading.beq_iff_perm] at same
  exact ⟨same.1.1.1.1, same.1.1.1.2, same.1.1.2, same.2⟩

theorem Expression.sameRestrictions_of_same {first second : Expression}
    (same : first.same second = true) :
    sameRestrictions first.restrictions second.restrictions = true := by
  rw [same_eq] at same
  simp only [Bool.and_eq_true] at same
  exact same.1.2

section Assembling

variable {first second : Expression} {fields fields' : Option (List String)}

/-- Apart from a subquery without chosen fields, the entries of the heading are selected. -/
theorem Expression.selectList?_items
    (listed : fields ≠ none ∨ ∀ inner, first.operator ≠ .subquery inner) :
    first.selectList? fields = (first.heading.select? fields).map .items := by
  unfold Expression.selectList?
  split
  · rename_i inner node
    rcases listed with chosen | direct
    · exact absurd rfl chosen
    · exact absurd node (direct inner)
  · rfl

theorem Expression.Resembles.selectList? (resembles : first.Resembles second)
    (chosen : Option.Rel List.Perm fields fields') :
    Concurs SelectList.Alike (first.selectList? fields) (second.selectList? fields') := by
  have items : Concurs SelectList.Alike ((first.heading.select? fields).map .items)
      ((second.heading.select? fields').map .items) :=
    (resembles.heading.select? chosen).map fun _ _ => .items
  obtain ⟨_, _, wholes⟩ := Operator.kind_congr resembles.operator
  cases chosen with
  | some perm =>
      have listed := fun names : List String => Option.some_ne_none names
      rwa [selectList?_items (.inl (listed _)), selectList?_items (.inl (listed _))]
  | none =>
      by_cases whole : ∃ inner, first.operator = .subquery inner
      · obtain ⟨inner, node⟩ := whole
        obtain ⟨inner', node'⟩ := wholes.1 ⟨inner, node⟩
        unfold Expression.selectList?
        rw [node, node']
        exact .given .all
      · rwa [selectList?_items (.inr fun inner node => whole ⟨inner, node⟩),
          selectList?_items (.inr fun inner node => whole (wholes.2 ⟨inner, node⟩))]

theorem Expression.Resembles.asSubquery (resembles : first.Resembles second)
    (same : first.same second = true) :
    first.asSubquery.Resembles second.asSubquery :=
  ⟨resembles.session, by simpa [Expression.asSubquery, plain, Operator.same] using same,
    resembles.heading.asColumns, rfl⟩

theorem Expression.assemble_parallels (resembles : first.Resembles second)
    (chosen : Option.Rel List.Perm fields fields') {origin origin' : Rendering Relation}
    {source source' : Option (Rendering Condition)} {condition condition' : Rendering Condition}
    (origins : Rendering.Parallels Relation.Alike origin origin')
    (sources : Option.Rel (Rendering.Parallels Condition.Alike) source source')
    (conditions : Rendering.Parallels Condition.Alike condition condition') :
    Rendering.Parallels Statement.Alike (first.assemble fields origin source condition)
      (second.assemble fields' origin' source' condition') := by
  unfold Expression.assemble
  rw [resembles.distinct]
  refine .bind (.ofExcept (resembles.selectList? chosen)) fun _ _ lists => ?_
  refine .bind origins fun _ _ origins => ?_
  cases sources with
  | none =>
      exact .bind conditions fun _ _ filters =>
        .pure (.select lists origins filters (.refl []) (.constant true))
  | some sources =>
      exact .bind sources fun _ _ filters => .bind conditions fun _ _ groupFilters =>
        .pure (.select lists origins filters resembles.heading.primaryKey groupFilters)

/-- Partners of alike semijoins are read alike. -/
theorem Expression.assemblePartner_parallels (same : first.same second = true)
    {common common' : List String} (perm : common.Perm common')
    {statement statement' : Option (List String) → Rendering Statement}
    (statements : ∀ {fields fields'}, Option.Rel List.Perm fields fields' →
      Rendering.Parallels Statement.Alike (statement fields) (statement' fields')) :
    Rendering.Parallels Statement.Alike (first.assemblePartner common statement)
      (second.assemblePartner common' statement') := by
  have resembles := resembles_of_same same
  unfold Expression.assemblePartner
  rw [(Operator.kind_congr resembles.operator).2.1]
  split
  · refine .bind (.ofExcept ((resembles.asSubquery same).selectList? (.some perm)))
      fun _ _ lists => .bind (statements .none) fun _ _ inner => .bind (.alias .subquery) ?_
    rintro name _ rfl
    exact .pure (.select lists (.derived inner) (.constant true) (.refl []) (.constant true))
  · exact statements (.some perm)

theorem Expression.semijoined_parallels (same : first.same second = true)
    {common common' : List String} (perm : common.Perm common') (checked negated : Bool)
    (statements : ∀ {fields fields'}, Option.Rel List.Perm fields fields' →
      Rendering.Parallels Statement.Alike (first.statement checked fields)
        (second.statement checked fields'))
    (conditions : Rendering.Parallels Condition.Alike (first.condition checked)
      (second.condition checked)) :
    Rendering.Parallels Compiled.Alike (first.semijoined checked negated common)
      (second.semijoined checked negated common') := by
  unfold Expression.semijoined
  cases common with
  | nil =>
      rw [perm.nil_eq.symm]
      refine .bind conditions fun _ _ alike => ?_
      rw [alike.isConstant]
      split
      · exact .pure ⟨.constant _, fun _ => .rfl⟩
      · exact .bind (statements .none) fun _ _ inner =>
          .pure ⟨.formula (.existence inner), fun _ => .rfl⟩
  | cons name rest =>
      cases common' with
      | nil => exact absurd perm.eq_nil (List.cons_ne_nil name rest)
      | cons name' rest' =>
          refine .bind (assemblePartner_parallels same perm statements) fun _ _ inner => .pure ?_
          refine ⟨.formula (.membership perm inner), fun other => ?_⟩
          rw [NameSet.mem_ofList, NameSet.mem_ofList, perm.mem_iff]

end Assembling

mutual

/-- Equal restrictions compile alike in scopes that read them in the same way. -/
theorem Restriction.compile_parallels {scope scope' : Scope} (scopes : scope.Alike scope') :
    ∀ (restriction other : Restriction), restriction.same other = true → ∀ negated : Bool,
      Rendering.Parallels Compiled.Alike (restriction.compile scope negated)
        (other.compile scope' negated)
  | .constant value => by
      intro other same negated
      cases other <;> simp only [Restriction.same, Bool.false_eq_true, beq_iff_eq] at same
      subst same
      rw [Restriction.compile, Restriction.compile]
      exact .pure ⟨.constant _, fun _ => .rfl⟩
  | .universal set => by
      intro other same negated
      cases other <;> simp only [Restriction.same, Bool.false_eq_true, beq_iff_eq] at same
      rw [Restriction.compile, Restriction.compile]
      exact .pure ⟨.constant _, fun _ => .rfl⟩
  | .raw sql => by
      intro other same negated
      cases other <;> simp only [Restriction.same, Bool.false_eq_true, beq_iff_eq] at same
      subst same
      rw [Restriction.compile, Restriction.compile]
      exact .ofExcept (compileRaw_concurs negated sql)
  | .mapping pairs => by
      intro other same negated
      cases other <;> simp only [Restriction.same, Bool.false_eq_true] at same
      rw [Restriction.compile, Restriction.compile]
      exact .ofExcept (scopes.compare negated (sameMapping_iff.1 same))
  | .record members => by
      intro other same negated
      cases other <;> simp only [Restriction.same, Bool.false_eq_true] at same
      rw [Restriction.compile, Restriction.compile]
      exact .ofExcept (scopes.compare negated (samePairs_of_members same))
  | .disjunction items => by
      intro other same negated
      cases other <;> simp only [Restriction.same, Bool.false_eq_true] at same
      rw [Restriction.compile, Restriction.compile]
      exact .bind (compileAll_parallels scopes items _ same) fun _ _ parts =>
        .pure ⟨.disjunction (forall₂_conditions parts) negated, mem_allColumns_congr parts⟩
  | .conjunction items => by
      intro other same negated
      cases other <;> simp only [Restriction.same, Bool.false_eq_true] at same
      rw [Restriction.compile, Restriction.compile]
      exact .bind (compileAll_parallels scopes items _ same) fun _ _ parts =>
        .pure ⟨.conjunction (forall₂_conditions parts) negated, mem_allColumns_congr parts⟩
  | .negation restriction => by
      intro other same negated
      cases other <;> simp only [Restriction.same, Bool.false_eq_true] at same
      rw [Restriction.compile, Restriction.compile]
      exact restriction.compile_parallels scopes _ same (!negated)
  | .semijoin partner checked => by
      intro other same negated
      cases other with
      | semijoin partner' checked' =>
          simp only [Restriction.same, Bool.and_eq_true, beq_iff_eq] at same
          obtain ⟨same, rfl⟩ := same
          have resembles := Expression.resembles_of_same same
          have conditions := partner.condition_parallels _ same scope.checked
          rw [Restriction.compile_semijoin, Restriction.compile_semijoin, ← scopes.checked]
          refine .bind (.ofExcept (scopes.accept resembles.session resembles.heading checked))
            fun _ _ _ => ?_
          exact Expression.semijoined_parallels same (scopes.heading.common resembles.heading) _ _
            (fun chosen => Expression.assemble_parallels resembles chosen
              (partner.origin_parallels _ same scope.checked)
              (partner.sourceCondition_parallels _ same scope.checked) conditions) conditions
      | _ => simp [Restriction.same] at same

theorem compileAll_parallels {scope scope' : Scope} (scopes : scope.Alike scope') :
    ∀ (items others : List Restriction), sameRestrictions items others = true →
      Rendering.Parallels (List.Forall₂ Compiled.Alike) (compileAll scope items)
        (compileAll scope' others)
  | [] => by
      intro others same
      cases others <;> simp only [sameRestrictions, Bool.false_eq_true] at same
      rw [compileAll, compileAll]
      exact .pure .nil
  | restriction :: rest => by
      intro others same
      cases others <;>
        simp only [sameRestrictions, Bool.false_eq_true, Bool.and_eq_true] at same
      rw [compileAll, compileAll]
      exact .bind (restriction.compile_parallels scopes _ same.1 false) fun _ _ head =>
        .bind (compileAll_parallels scopes rest _ same.2) fun _ _ tail => .pure (.cons head tail)

theorem Operator.origin_parallels :
    ∀ (operator other : Operator), operator.same other = true → ∀ (checked : Bool)
      {names names' : List String}, names.Perm names' →
      Rendering.Parallels Relation.Alike (operator.origin checked names)
        (other.origin checked names')
  | .table name => by
      intro other same checked names names' perm
      cases other <;> simp only [Operator.same, Bool.false_eq_true, beq_iff_eq] at same
      subst same
      rw [Operator.origin, Operator.origin]
      exact .pure (.table name)
  | .join left right _ => by
      intro other same checked names names' perm
      cases other <;>
        simp only [Operator.same, Bool.false_eq_true, Bool.and_eq_true, beq_iff_eq] at same
      obtain ⟨⟨first, second⟩, rfl⟩ := same
      rw [Operator.origin, Operator.origin]
      exact .bind (left.origin_parallels _ first checked) fun _ _ first =>
        .bind (right.origin_parallels _ second checked) fun _ _ second =>
          .pure (.join first second)
  | .projection source => by
      intro other same checked names names' perm
      cases other <;> simp only [Operator.same, Bool.false_eq_true] at same
      rw [Operator.origin, Operator.origin]
      exact source.origin_parallels _ same checked
  | .grouping source => by
      intro other same checked names names' perm
      cases other <;> simp only [Operator.same, Bool.false_eq_true] at same
      rw [Operator.origin, Operator.origin]
      exact source.origin_parallels _ same checked
  | .union left right => by
      intro other same checked names names' perm
      cases other <;>
        simp only [Operator.same, Bool.false_eq_true, Bool.and_eq_true] at same
      rw [Operator.origin, Operator.origin]
      refine .bind (Expression.assemble_parallels (Expression.resembles_of_same same.1) (.some perm)
        (left.origin_parallels _ same.1 checked) (left.sourceCondition_parallels _ same.1 checked)
        (left.condition_parallels _ same.1 checked)) fun _ _ first => ?_
      refine .bind (Expression.assemble_parallels (Expression.resembles_of_same same.2) (.some perm)
        (right.origin_parallels _ same.2 checked)
        (right.sourceCondition_parallels _ same.2 checked)
        (right.condition_parallels _ same.2 checked)) fun _ _ second => ?_
      refine .bind (.alias .union) ?_
      rintro name _ rfl
      exact .pure (.union first second)
  | .subquery inner => by
      intro other same checked names names' perm
      cases other <;> simp only [Operator.same, Bool.false_eq_true] at same
      rw [Operator.origin, Operator.origin]
      refine .bind (Expression.assemble_parallels (Expression.resembles_of_same same) .none
        (inner.origin_parallels _ same checked) (inner.sourceCondition_parallels _ same checked)
        (inner.condition_parallels _ same checked)) fun _ _ statement => ?_
      refine .bind (.alias .subquery) ?_
      rintro name _ rfl
      exact .pure (.derived statement)

theorem Operator.sourceCondition_parallels :
    ∀ (operator other : Operator), operator.same other = true → ∀ checked : Bool,
      Option.Rel (Rendering.Parallels Condition.Alike) (operator.sourceCondition checked)
        (other.sourceCondition checked)
  | .table _ => by
      intro other same checked
      cases other <;> simp only [Operator.same, Bool.false_eq_true] at same
      exact .none
  | .join _ _ _ => by
      intro other same checked
      cases other <;> simp only [Operator.same, Bool.false_eq_true] at same
      exact .none
  | .projection _ => by
      intro other same checked
      cases other <;> simp only [Operator.same, Bool.false_eq_true] at same
      exact .none
  | .union _ _ => by
      intro other same checked
      cases other <;> simp only [Operator.same, Bool.false_eq_true] at same
      exact .none
  | .subquery _ => by
      intro other same checked
      cases other <;> simp only [Operator.same, Bool.false_eq_true] at same
      exact .none
  | .grouping source => by
      intro other same checked
      cases other <;> simp only [Operator.same, Bool.false_eq_true] at same
      rw [Operator.sourceCondition, Operator.sourceCondition]
      exact .some (source.condition_parallels _ same checked)

theorem Expression.origin_parallels :
    ∀ (e other : Expression), e.same other = true → ∀ checked : Bool,
      Rendering.Parallels Relation.Alike (e.origin checked) (other.origin checked)
  | ⟨_, operator, heading, _, _, _, _⟩ => by
      intro other same checked
      have resembles := Expression.resembles_of_same same
      cases other
      rw [Expression.origin, Expression.origin]
      exact operator.origin_parallels _ resembles.operator checked resembles.heading.names

theorem Expression.sourceCondition_parallels :
    ∀ (e other : Expression), e.same other = true → ∀ checked : Bool,
      Option.Rel (Rendering.Parallels Condition.Alike) (e.sourceCondition checked)
        (other.sourceCondition checked)
  | ⟨_, operator, _, _, _, _, _⟩ => by
      intro other same checked
      have resembles := Expression.resembles_of_same same
      cases other
      rw [Expression.sourceCondition, Expression.sourceCondition]
      exact operator.sourceCondition_parallels _ resembles.operator checked

theorem Expression.condition_parallels :
    ∀ (e other : Expression), e.same other = true → ∀ checked : Bool,
      Rendering.Parallels Condition.Alike (e.condition checked) (other.condition checked)
  | ⟨session, _, heading, _, restrictions, _, _⟩ => by
      intro other same checked
      have resembles := Expression.resembles_of_same same
      have restricted := Expression.sameRestrictions_of_same same
      cases other
      rw [Expression.condition, Expression.condition]
      have scopes : Scope.Alike ⟨heading, session, checked⟩ ⟨_, _, checked⟩ :=
        ⟨resembles.heading, resembles.session, rfl⟩
      exact .bind (compileAll_parallels scopes restrictions _ restricted) fun _ _ parts =>
        .pure (.conjunction (forall₂_conditions parts) false)

end

/-- Equal expressions have alike statements from every count, or none of them has one. -/
theorem Expression.statement_parallels {e other : Expression} (same : e.same other = true)
    (checked : Bool) {fields fields' : Option (List String)}
    (chosen : Option.Rel List.Perm fields fields') :
    Rendering.Parallels Statement.Alike (e.statement checked fields)
      (other.statement checked fields') :=
  assemble_parallels (resembles_of_same same) chosen (e.origin_parallels other same checked)
    (e.sourceCondition_parallels other same checked) (e.condition_parallels other same checked)

theorem rel_perm_refl (fields : Option (List String)) : Option.Rel List.Perm fields fields := by
  cases fields with
  | none => exact .none
  | some names => exact .some (.refl names)

/-- Where sessions are told apart by their numbers, equal reachable expressions either have no
SQL text, or their texts are those of alike statements. -/
theorem Reachable.sql_alike {sessions : Session → Prop} {e other : Expression}
    (apart : ∀ first second, sessions first → sessions second → first.same second = true →
      first = second)
    (reached : Reachable sessions e) (reached' : Reachable sessions other)
    (equal : (e == other) = true) (fields : Option (List String)) :
    ((∃ fault, e.sql fields = .error fault) ∧ ∃ fault, other.sql fields = .error fault) ∨
      ∃ statement statement',
        (e.statement e.session.config.semanticCheck fields).fresh = .ok statement ∧
        (other.statement other.session.config.semanticCheck fields).fresh = .ok statement' ∧
        e.sql fields = .ok (statement.text e.session.config) ∧
        other.sql fields = .ok (statement'.text e.session.config) ∧
        statement.Alike statement' := by
  have same : e.same other = true := equal
  have sessions := apart _ _ reached.session_mem reached'.session_mem
    (Expression.resembles_of_same same).session
  have concurs := (Expression.statement_parallels same e.session.config.semanticCheck
    (rel_perm_refl fields)).fresh
  unfold Expression.sql
  rw [← sessions]
  generalize (e.statement _ fields).fresh = first, (other.statement _ fields).fresh = second
    at concurs
  cases concurs with
  | refused fault fault' => exact .inl ⟨⟨fault, rfl⟩, fault', rfl⟩
  | given alike => exact .inr ⟨_, _, rfl, rfl, rfl, rfl, alike⟩

/-- The same values are computed in another order and the key is compared with the other zero. -/
theorem Reachable.sql_alike_of_zeros :
    ∃ e other : Expression, Reachable (· = laboratory) e ∧ Reachable (· = laboratory) other ∧
      (e == other) = true ∧
      e.sql none = .ok ("SELECT * FROM (SELECT `subject_id`,lower(species) AS `low`," ++
        "upper(species) AS `up` FROM `lab`.`subject`) AS `_s1` WHERE ((`subject_id`=0))") ∧
      other.sql none = .ok ("SELECT * FROM (SELECT `subject_id`,upper(species) AS `up`," ++
        "lower(species) AS `low` FROM `lab`.`subject`) AS `_s1` WHERE ((`subject_id`=-0))") ∧
      ∃ statement statement' : Statement, statement.Alike statement' ∧
        e.sql none = .ok (statement.text e.session.config) ∧
        other.sql none = .ok (statement'.text e.session.config) := by
  have subjects := @Reachable.table (· = laboratory) laboratory subjectDeclaration _ rfl rfl
  have first := @Reachable.project (· = laboratory) _ _ []
    (Renames.ofList [("low", "lower(species)"), ("up", "upper(species)")]) true subjects rfl
  have second := @Reachable.project (· = laboratory) _ _ []
    (Renames.ofList [("up", "upper(species)"), ("low", "lower(species)")]) true subjects rfl
  have positive := @Reachable.restrict (· = laboratory) _ _
    (.mapping [("subject_id", .float ⟨0, by decide⟩)]) first (by simp [Restriction.partners]) rfl
  have negative := @Reachable.restrict (· = laboratory) _ _
    (.mapping [("subject_id", .float ⟨0x8000000000000000, by decide⟩)]) second
    (by simp [Restriction.partners]) rfl
  have alike : ∀ {e other : Expression} {text : String}, Reachable (· = laboratory) e →
      Reachable (· = laboratory) other → (e == other) = true → e.sql none = .ok text →
        ∃ statement statement' : Statement, statement.Alike statement' ∧
          e.sql none = .ok (statement.text e.session.config) ∧
          other.sql none = .ok (statement'.text e.session.config) := by
    intro e other text reached reached' equal built
    rcases reached.sql_alike (by rintro _ _ rfl rfl _; rfl) reached' equal none with
      ⟨⟨fault, refused⟩, _⟩ | ⟨statement, statement', _, _, first, second, same⟩
    · rw [built] at refused
      contradiction
    · exact ⟨statement, statement', same, first, second⟩
  refine ⟨_, _, positive, negative, ?equal, ?text, ?_, alike positive negative ?equal ?text⟩
  · decide +kernel
  · decide +kernel
  · decide +kernel

/-- Computed values are listed as they were given, and equality does not see their order. -/
theorem Reachable.sql_differs_of_computed :
    ∃ e other, Reachable (· = laboratory) e ∧ Reachable (· = laboratory) other ∧
      (e == other) = true ∧
      e.sql none = .ok ("SELECT `subject_id`,lower(species) AS `low`,upper(species) AS `up` " ++
        "FROM `lab`.`subject`") ∧
      other.sql none = .ok ("SELECT `subject_id`,upper(species) AS `up`,lower(species) AS `low` " ++
        "FROM `lab`.`subject`") := by
  have subjects := @Reachable.table (· = laboratory) laboratory subjectDeclaration _ rfl rfl
  have first := @Reachable.project (· = laboratory) _ _ []
    (Renames.ofList [("low", "lower(species)"), ("up", "upper(species)")]) true subjects rfl
  have second := @Reachable.project (· = laboratory) _ _ []
    (Renames.ofList [("up", "upper(species)"), ("low", "lower(species)")]) true subjects rfl
  exact ⟨_, _, first, second, by decide +kernel, by decide +kernel, by decide +kernel⟩

end QueryAlgebra
