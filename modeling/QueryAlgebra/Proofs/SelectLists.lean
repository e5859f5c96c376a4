/-
This file shows that no SELECT inside a statement has an empty list where every expression that
is rendered shows some attribute.
-/
import QueryAlgebra.Proofs.Reachability
import QueryAlgebra.Proofs.RenderingRuns

namespace QueryAlgebra

mutual

/-- Every SELECT inside has an entry in its list. -/
def Formula.Filled : Formula → Prop
  | .raw _ | .comparison _ => True
  | .negation formula => formula.Filled
  | .conjunction formulas | .disjunction formulas => AllFilled formulas
  | .membership _ _ statement | .existence _ statement => statement.Filled

def AllFilled : List Formula → Prop
  | [] => True
  | formula :: rest => formula.Filled ∧ AllFilled rest

def Condition.Filled : Condition → Prop
  | .constant _ => True
  | .formula inner => inner.Filled

def Relation.Filled : Relation → Prop
  | .table _ => True
  | .join left right _ => left.Filled ∧ right.Filled
  | .derived statement _ => statement.Filled
  | .union left right _ => left.Filled ∧ right.Filled

def Statement.Filled : Statement → Prop
  | ⟨_, list, origin, filter, _, groupFilter⟩ =>
      list ≠ .items [] ∧ origin.Filled ∧ filter.Filled ∧ groupFilter.Filled

end

theorem allFilled_iff {formulas : List Formula} :
    AllFilled formulas ↔ ∀ formula ∈ formulas, formula.Filled := by
  induction formulas with
  | nil => simp [AllFilled]
  | cons formula rest ih => rw [AllFilled, ih, List.forall_mem_cons]

theorem Formula.filled_negatedWhen {negated : Bool} {formula : Formula} :
    (Formula.negatedWhen negated formula).Filled ↔ formula.Filled := by
  cases negated
  · rfl
  · rw [negatedWhen, if_pos rfl, Filled]

/-- Constants that are folded leave formulas out and change no other. -/
theorem Condition.filled_combine {absorbing negated : Bool}
    {connective : List Formula → Formula} {conditions : List Condition}
    (inside : ∀ formulas, (connective formulas).Filled = AllFilled formulas)
    (all : ∀ condition ∈ conditions, condition.Filled) :
    (Condition.combine absorbing connective negated conditions).Filled := by
  have formulas : AllFilled (conditions.filterMap Condition.formula?) := by
    refine allFilled_iff.2 fun formula member => ?_
    obtain ⟨condition, listed, found⟩ := List.mem_filterMap.1 member
    have filled := all condition listed
    cases condition with
    | constant value => contradiction
    | formula inner =>
        rw [Condition.Filled] at filled
        exact Option.some.inj found ▸ filled
  unfold Condition.combine
  split
  · rw [Condition.Filled]
    trivial
  · split
    · rw [Condition.Filled]
      trivial
    · rw [Condition.Filled, Formula.filled_negatedWhen, inside]
      exact formulas

theorem Condition.filled_conjunction {negated : Bool} {conditions : List Condition}
    (all : ∀ condition ∈ conditions, condition.Filled) :
    (Condition.conjunction negated conditions).Filled := by
  rw [conjunction_eq_combine]
  exact filled_combine (fun formulas => by rw [Formula.Filled]) all

theorem Condition.filled_disjunction {negated : Bool} {conditions : List Condition}
    (all : ∀ condition ∈ conditions, condition.Filled) :
    (Condition.disjunction negated conditions).Filled := by
  rw [disjunction_eq_combine]
  exact filled_combine (fun formulas => by rw [Formula.Filled]) all

/-- Whatever a rendering yields satisfies a property. -/
def Rendering.Ensures {α : Type} (holds : α → Prop) (rendering : Rendering α) : Prop :=
  ∀ count value later, rendering.Yields count value later → holds value

section Ensuring

variable {α β : Type} {holds : α → Prop} {holds' : β → Prop}

theorem Rendering.Ensures.pure {value : α} (known : holds value) :
    Rendering.Ensures holds (Pure.pure value) := by
  intro _ result _ yields
  exact (Rendering.yields_pure.1 yields).1 ▸ known

theorem Rendering.Ensures.ofExcept {result : Except Fault α}
    (known : ∀ value, result = .ok value → holds value) :
    Rendering.Ensures holds (.ofExcept result) := by
  intro _ value _ yields
  exact known value (Rendering.yields_ofExcept.1 yields).1

theorem Rendering.Ensures.bind {first : Rendering α} {next : α → Rendering β}
    (start : Rendering.Ensures holds first)
    (step : ∀ value, holds value → Rendering.Ensures holds' (next value)) :
    Rendering.Ensures holds' (first >>= next) := by
  intro count result later yields
  obtain ⟨value, between, run, yields⟩ := Rendering.yields_bind.1 yields
  exact step value (start count value between run) between result later yields

/-- The value of the first rendering does not matter. -/
theorem Rendering.Ensures.after {first : Rendering α} {next : α → Rendering β}
    (step : ∀ value, Rendering.Ensures holds' (next value)) :
    Rendering.Ensures holds' (first >>= next) := by
  have any : Rendering.Ensures (fun _ => True) first := fun _ _ _ _ => trivial
  exact .bind any fun value _ => step value

end Ensuring

def Compiled.Filled (compiled : Compiled) : Prop := compiled.condition.Filled

theorem Compiled.filled_constant (value : Bool) (columns : NameSet) :
    (⟨.constant value, columns⟩ : Compiled).Filled := by
  rw [Compiled.Filled, Condition.Filled]
  trivial

theorem Compiled.filled_compared (negated : Bool) (columns : NameSet)
    (comparisons : List Comparison) : (Compiled.compared negated columns comparisons).Filled := by
  cases comparisons with
  | nil => exact filled_constant _ columns
  | cons first rest =>
      show (Condition.formula _).Filled
      rw [Condition.Filled, Formula.filled_negatedWhen, Formula.Filled, allFilled_iff]
      intro formula inside
      obtain ⟨comparison, _, rfl⟩ := List.mem_map.1 inside
      rw [Formula.Filled]
      trivial

theorem Scope.filled_of_compare {scope : Scope} {negated : Bool} {pairs : List (String × Literal)}
    {compiled : Compiled} (compared : scope.compare negated pairs = .ok compiled) :
    compiled.Filled := by
  obtain ⟨comparisons, _, rfl⟩ := Scope.compare_eq_ok.1 compared
  exact Compiled.filled_compared negated _ comparisons

theorem filled_of_compileRaw {negated : Bool} {sql : String} {compiled : Compiled}
    (built : compileRaw negated sql = .ok compiled) : compiled.Filled := by
  obtain ⟨_, rfl⟩ := compileRaw_eq_ok.1 built
  rw [Compiled.Filled, Condition.Filled, Formula.filled_negatedWhen, Formula.Filled]
  trivial

/-- Every expression that occurs in a tree shows some attribute. -/
def Expression.AllShow (e : Expression) : Prop :=
  ∀ node, Occurs node e → node.heading.names ≠ []

theorem Expression.AllShow.part {e part : Expression} (all : e.AllShow) (member : part ∈ e.parts) :
    part.AllShow :=
  fun node below => all node (.inside member below)

theorem Heading.select?_ne_nil {heading : Heading} {fields : Option (List String)}
    (shown : heading.names ≠ []) (chosen : ∀ names, fields = some names → names ≠ [])
    {entries : List SelectItem} (selected : heading.select? fields = .ok entries) :
    entries ≠ [] := by
  cases fields with
  | none =>
      injection selected with same
      rw [← same]
      intro nothing
      apply shown
      rw [names, List.map_eq_nil_iff]
      exact List.map_eq_nil_iff.1 nothing
  | some names =>
      cases names with
      | nil => exact absurd rfl (chosen [] rfl)
      | cons first rest =>
          unfold select? at selected
          dsimp only at selected
          rw [List.mapM_cons] at selected
          obtain ⟨item, _, selected⟩ := bind_eq_ok.1 selected
          obtain ⟨others, _, selected⟩ := bind_eq_ok.1 selected
          injection selected with same
          rw [← same]
          exact List.cons_ne_nil _ _

/-- A chosen list of fields is kept, and without a choice all that is shown is selected. -/
theorem Expression.selectList?_ne {e : Expression} {fields : Option (List String)}
    (shown : e.heading.names ≠ []) (chosen : ∀ names, fields = some names → names ≠ [])
    {list : SelectList} (selected : e.selectList? fields = .ok list) : list ≠ .items [] := by
  unfold selectList? at selected
  split at selected
  · injection selected with same
    rw [← same]
    nofun
  · rename_i fields _ _ _
    cases found : e.heading.select? fields with
    | error fault =>
        rw [found] at selected
        contradiction
    | ok entries =>
        rw [found] at selected
        injection selected with same
        rw [← same]
        intro nothing
        injection nothing with nothing
        exact Heading.select?_ne_nil shown chosen found nothing

theorem Expression.assemble_ensures {e : Expression} {fields : Option (List String)}
    {origin : Rendering Relation} {sourceCondition : Option (Rendering Condition)}
    {condition : Rendering Condition}
    (list : ∀ list, e.selectList? fields = .ok list → list ≠ .items [])
    (origins : Rendering.Ensures Relation.Filled origin)
    (sources : ∀ source ∈ sourceCondition, Rendering.Ensures Condition.Filled source)
    (conditions : Rendering.Ensures Condition.Filled condition) :
    Rendering.Ensures Statement.Filled (e.assemble fields origin sourceCondition condition) := by
  unfold assemble
  refine .bind (.ofExcept list) fun list filled => .bind origins fun relation below => ?_
  cases sourceCondition with
  | none =>
      refine .bind conditions fun filter filters => .pure ?_
      rw [Statement.Filled, Condition.Filled]
      exact ⟨filled, below, filters, trivial⟩
  | some source =>
      refine .bind (sources source rfl) fun filter filters =>
        .bind conditions fun groupFilter groupFilters => .pure ?_
      rw [Statement.Filled]
      exact ⟨filled, below, filters, groupFilters⟩

/-- A partner is asked for the attributes in common, or it is rendered as it is. -/
theorem Expression.assemblePartner_ensures {partner : Expression} {common : List String}
    {statement : Option (List String) → Rendering Statement} (shared : common ≠ [])
    (shown : partner.heading.names ≠ [])
    (statements : ∀ fields, (∀ names, fields = some names → names ≠ []) →
      Rendering.Ensures Statement.Filled (statement fields)) :
    Rendering.Ensures Statement.Filled (partner.assemblePartner common statement) := by
  have chosen : ∀ names, some common = some names → names ≠ [] := by
    rintro _ ⟨⟩
    exact shared
  unfold assemblePartner
  split
  · have list : ∀ list, partner.asSubquery.selectList? (some common) = .ok list →
        list ≠ .items [] := by
      refine fun _ => selectList?_ne ?_ chosen
      rwa [names_asSubquery]
    refine .bind (.ofExcept list) fun list filled =>
      .bind (statements none nofun) fun inner below => .after fun name => .pure ?_
    rw [Statement.Filled, Relation.Filled, Condition.Filled]
    exact ⟨filled, below, trivial, trivial⟩
  · exact statements (some common) chosen

mutual

/-- What a restriction becomes has no SELECT without a list, if its partners show something. -/
theorem Restriction.compile_ensures (scope : Scope) (negated : Bool) :
    ∀ restriction : Restriction, (∀ partner ∈ restriction.partners, partner.AllShow) →
      Rendering.Ensures Compiled.Filled (restriction.compile scope negated)
  | .constant value => by
      intro _
      rw [Restriction.compile]
      exact .pure (Compiled.filled_constant _ _)
  | .raw sql => by
      intro _
      rw [Restriction.compile]
      exact .ofExcept fun _ => filled_of_compileRaw
  | .mapping pairs => by
      intro _
      rw [Restriction.compile]
      exact .ofExcept fun _ => Scope.filled_of_compare
  | .record members => by
      intro _
      rw [Restriction.compile]
      exact .ofExcept fun _ => Scope.filled_of_compare
  | .disjunction items => by
      intro partners
      rw [Restriction.partners] at partners
      rw [Restriction.compile]
      refine .bind (compileAll_ensures scope items partners) fun parts all => .pure ?_
      exact Condition.filled_disjunction (List.forall_mem_map.2 all)
  | .conjunction items => by
      intro partners
      rw [Restriction.partners] at partners
      rw [Restriction.compile]
      refine .bind (compileAll_ensures scope items partners) fun parts all => .pure ?_
      exact Condition.filled_conjunction (List.forall_mem_map.2 all)
  | .negation restriction => by
      intro partners
      rw [Restriction.partners] at partners
      rw [Restriction.compile]
      exact restriction.compile_ensures scope (!negated) partners
  | .universal _ => by
      intro _
      rw [Restriction.compile]
      exact .pure (Compiled.filled_constant _ _)
  | .semijoin partner checked => by
      intro partners
      rw [Restriction.partners, List.forall_mem_singleton] at partners
      rw [Restriction.compile]
      have shown := partners partner .root
      have statements : ∀ fields, (∀ names, fields = some names → names ≠ []) →
          Rendering.Ensures Statement.Filled _ := fun fields chosen =>
        Expression.assemble_ensures (fun _ => Expression.selectList?_ne shown chosen)
          (partner.origin_ensures scope.checked partners)
          (partner.sourceCondition_ensures scope.checked partners)
          (partner.condition_ensures scope.checked partners)
      refine .after fun accepted => ?_
      dsimp only
      split
      · refine .after fun condition => ?_
        split
        · exact .pure (Compiled.filled_constant _ _)
        · refine .bind (statements none nofun) fun inner below => .pure ?_
          rwa [Compiled.Filled, Condition.Filled, Formula.Filled]
      · rename_i shared
        refine .bind (Expression.assemblePartner_ensures shared shown statements)
          fun inner below => .pure ?_
        rwa [Compiled.Filled, Condition.Filled, Formula.Filled]

theorem compileAll_ensures (scope : Scope) :
    ∀ items : List Restriction, (∀ partner ∈ partnersOfAll items, partner.AllShow) →
      Rendering.Ensures (fun parts => ∀ part ∈ parts, part.Filled) (compileAll scope items)
  | [] => by
      intro _
      rw [compileAll]
      exact .pure (List.forall_mem_nil _)
  | restriction :: rest => by
      intro partners
      rw [partnersOfAll, List.forall_mem_append] at partners
      rw [compileAll]
      refine .bind (restriction.compile_ensures scope false partners.1) fun first filled =>
        .bind (compileAll_ensures scope rest partners.2) fun others all => .pure ?_
      exact List.forall_mem_cons.2 ⟨filled, all⟩

theorem Operator.origin_ensures (checked : Bool) :
    ∀ (operator : Operator) (names : List String), names ≠ [] →
      (∀ operand ∈ operator.operands, operand.AllShow) →
      Rendering.Ensures Relation.Filled (operator.origin checked names)
  | .table name, _ => by
      intro _ _
      rw [Operator.origin]
      refine .pure ?_
      rw [Relation.Filled]
      trivial
  | .join left right keepAll, _ => by
      intro _ operands
      rw [Operator.origin]
      have first := operands left List.mem_cons_self
      have second := operands right (List.mem_cons_of_mem _ List.mem_cons_self)
      refine .bind (left.origin_ensures checked first) fun below filled =>
        .bind (right.origin_ensures checked second) fun above others => .pure ?_
      rw [Relation.Filled]
      exact ⟨filled, others⟩
  | .projection source, _ => by
      intro _ operands
      rw [Operator.origin]
      exact source.origin_ensures checked (operands source List.mem_cons_self)
  | .grouping source, _ => by
      intro _ operands
      rw [Operator.origin]
      exact source.origin_ensures checked (operands source List.mem_cons_self)
  | .union left right, names => by
      intro shown operands
      have chosen : ∀ others, some names = some others → others ≠ [] := by
        rintro _ ⟨⟩
        exact shown
      have first := operands left List.mem_cons_self
      have second := operands right (List.mem_cons_of_mem _ List.mem_cons_self)
      rw [Operator.origin]
      refine .bind (Expression.assemble_ensures
          (fun _ => Expression.selectList?_ne (first left .root) chosen)
          (left.origin_ensures checked first) (left.sourceCondition_ensures checked first)
          (left.condition_ensures checked first)) fun below filled =>
        .bind (Expression.assemble_ensures
          (fun _ => Expression.selectList?_ne (second right .root) chosen)
          (right.origin_ensures checked second) (right.sourceCondition_ensures checked second)
          (right.condition_ensures checked second)) fun above others =>
        .after fun name => .pure ?_
      rw [Relation.Filled]
      exact ⟨filled, others⟩
  | .subquery inner, _ => by
      intro _ operands
      have all := operands inner List.mem_cons_self
      rw [Operator.origin]
      refine .bind (Expression.assemble_ensures
          (fun _ => Expression.selectList?_ne (all inner .root) (by nofun))
          (inner.origin_ensures checked all) (inner.sourceCondition_ensures checked all)
          (inner.condition_ensures checked all)) fun below filled =>
        .after fun name => .pure ?_
      rwa [Relation.Filled]

theorem Operator.sourceCondition_ensures (checked : Bool) :
    ∀ operator : Operator, (∀ operand ∈ operator.operands, operand.AllShow) →
      ∀ source ∈ operator.sourceCondition checked, Rendering.Ensures Condition.Filled source
  | .table _ => by simp [Operator.sourceCondition]
  | .join _ _ _ => by simp [Operator.sourceCondition]
  | .projection _ => by simp [Operator.sourceCondition]
  | .union _ _ => by simp [Operator.sourceCondition]
  | .subquery _ => by simp [Operator.sourceCondition]
  | .grouping source => by
      intro operands condition found
      rw [Operator.sourceCondition, Option.mem_some_iff] at found
      rw [← found]
      exact source.condition_ensures checked (operands source List.mem_cons_self)

theorem Expression.origin_ensures (checked : Bool) :
    ∀ e : Expression, e.AllShow → Rendering.Ensures Relation.Filled (e.origin checked)
  | ⟨session, operator, heading, columns, restrictions, restricting, distinct⟩ => by
      intro all
      rw [Expression.origin]
      exact operator.origin_ensures checked heading.names (all _ .root)
        fun operand member => all.part (List.mem_append_left _ member)

theorem Expression.sourceCondition_ensures (checked : Bool) :
    ∀ e : Expression, e.AllShow →
      ∀ source ∈ e.sourceCondition checked, Rendering.Ensures Condition.Filled source
  | ⟨session, operator, heading, columns, restrictions, restricting, distinct⟩ => by
      intro all
      rw [Expression.sourceCondition]
      exact operator.sourceCondition_ensures checked
        fun operand member => all.part (List.mem_append_left _ member)

theorem Expression.condition_ensures (checked : Bool) :
    ∀ e : Expression, e.AllShow → Rendering.Ensures Condition.Filled (e.condition checked)
  | ⟨session, operator, heading, columns, restrictions, restricting, distinct⟩ => by
      intro all
      rw [Expression.condition]
      refine .bind (compileAll_ensures _ restrictions fun partner member =>
        all.part (List.mem_append_right _ member)) fun parts filled => .pure ?_
      exact Condition.filled_conjunction (List.forall_mem_map.2 filled)

end

/-- No SELECT inside a statement has an empty list if all expressions show some attribute. -/
theorem Expression.statement_ensures {e : Expression} (all : e.AllShow) (checked : Bool) :
    Rendering.Ensures Statement.Filled (e.statement checked none) :=
  assemble_ensures (fun _ => selectList?_ne (all e .root) (by nofun))
    (e.origin_ensures checked all) (e.sourceCondition_ensures checked all)
    (e.condition_ensures checked all)

end QueryAlgebra
