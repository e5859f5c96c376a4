/-
This file describes renderings by what they yield and by the aliases that they use up.
-/
import QueryAlgebra.Rendering

namespace QueryAlgebra

/-- The outcome of a rendering and the count that it leaves. -/
def Rendering.runFrom {α : Type} (rendering : Rendering α) (count : AliasCount) :
    Except Fault α × AliasCount :=
  rendering.run count

/-- A rendering that starts from a count yields a value and leaves another count. -/
def Rendering.Yields {α : Type} (rendering : Rendering α) (count : AliasCount) (value : α)
    (later : AliasCount) : Prop :=
  rendering.runFrom count = (.ok value, later)

section Steps

variable {α β : Type} {count later : AliasCount}

theorem Rendering.runFrom_pure (value : α) (count : AliasCount) :
    (pure value : Rendering α).runFrom count = (.ok value, count) := rfl

theorem Rendering.runFrom_ofExcept (result : Except Fault α) (count : AliasCount) :
    (Rendering.ofExcept result).runFrom count = (result, count) := rfl

theorem Rendering.runFrom_alias (kind : AliasKind) (count : AliasCount) :
    (Rendering.alias kind).runFrom count = (.ok (count.next kind).1, (count.next kind).2) := rfl

/-- A second rendering starts from the count that the first one leaves. -/
theorem Rendering.runFrom_bind (first : Rendering α) (next : α → Rendering β)
    (count : AliasCount) :
    (first >>= next).runFrom count =
      match first.runFrom count with
      | (.ok value, later) => (next value).runFrom later
      | (.error fault, later) => (.error fault, later) := by
  have step : (first >>= next).runFrom count =
      (ExceptT.bindCont next (first.runFrom count).1).run (first.runFrom count).2 := rfl
  rw [step]
  rcases first.runFrom count with ⟨_ | value, later⟩ <;> rfl

@[simp] theorem Rendering.yields_pure {value result : α} :
    (pure value : Rendering α).Yields count result later ↔ value = result ∧ count = later := by
  simp [Rendering.Yields, Rendering.runFrom_pure]

@[simp] theorem Rendering.yields_ofExcept {value : Except Fault α} {result : α} :
    (Rendering.ofExcept value).Yields count result later ↔ value = .ok result ∧ count = later := by
  simp [Rendering.Yields, Rendering.runFrom_ofExcept]

theorem Rendering.yields_bind {first : Rendering α} {next : α → Rendering β} {result : β} :
    (first >>= next).Yields count result later ↔ ∃ value between,
      first.Yields count value between ∧ (next value).Yields between result later := by
  unfold Rendering.Yields
  rw [Rendering.runFrom_bind]
  rcases first.runFrom count with ⟨fault | value, between⟩
  · simp
  · constructor
    · exact fun yields => ⟨value, between, rfl, yields⟩
    · rintro ⟨other, middle, same, yields⟩
      cases same
      exact yields

/-- What is computed from a yielded value uses up no further aliases. -/
theorem Rendering.yields_map {first : Rendering α} {f : α → β} {result : β} :
    (first >>= fun value => pure (f value)).Yields count result later ↔
      ∃ value, first.Yields count value later ∧ f value = result := by
  rw [yields_bind]
  constructor
  · rintro ⟨value, between, run, yields⟩
    obtain ⟨same, last⟩ := yields_pure.1 yields
    exact ⟨value, last ▸ run, same⟩
  · rintro ⟨value, run, same⟩
    exact ⟨value, later, run, yields_pure.2 ⟨same, rfl⟩⟩

end Steps

/-- A statement has the SELECT list and the FROM clause that it was asked for, and it is grouped by
the key where the rows of a source are filtered first. -/
theorem Expression.yields_assemble {e : Expression} {fields : Option (List String)}
    {origin : Rendering Relation} {sourceCondition : Option (Rendering Condition)}
    {condition : Rendering Condition} {count later : AliasCount} {statement : Statement}
    (yields : (e.assemble fields origin sourceCondition condition).Yields count statement later) :
    e.selectList? fields = .ok statement.list ∧
      (∃ between, origin.Yields count statement.origin between) ∧
      (sourceCondition.isSome = true → statement.groups = e.heading.primaryKey) := by
  unfold assemble at yields
  obtain ⟨list, first, selected, yields⟩ := Rendering.yields_bind.1 yields
  obtain ⟨chosen, rfl⟩ := Rendering.yields_ofExcept.1 selected
  obtain ⟨relation, between, read, yields⟩ := Rendering.yields_bind.1 yields
  cases sourceCondition with
  | none =>
      obtain ⟨filter, _, rfl⟩ := Rendering.yields_map.1 yields
      exact ⟨chosen, ⟨between, read⟩, nofun⟩
  | some source =>
      obtain ⟨filter, _, _, yields⟩ := Rendering.yields_bind.1 yields
      obtain ⟨groupFilter, _, rfl⟩ := Rendering.yields_map.1 yields
      exact ⟨chosen, ⟨between, read⟩, fun _ => rfl⟩

/-- A member with the absorbing value decides, and members with the other one do not matter. -/
def Condition.combine (absorbing : Bool) (connective : List Formula → Formula) (negated : Bool)
    (conditions : List Condition) : Condition :=
  if conditions.any (Condition.isConstant absorbing) then .constant (negated != absorbing)
  else
    match conditions.filterMap Condition.formula? with
    | [] => .constant (negated != !absorbing)
    | formulas => .formula (Formula.negatedWhen negated (connective formulas))

theorem Condition.conjunction_eq_combine (negated : Bool) (conditions : List Condition) :
    Condition.conjunction negated conditions =
      Condition.combine false .conjunction negated conditions := by
  cases negated <;> rfl

theorem Condition.disjunction_eq_combine (negated : Bool) (conditions : List Condition) :
    Condition.disjunction negated conditions =
      Condition.combine true .disjunction negated conditions := by
  cases negated <;> rfl

/-- The pairs that name visible attributes of a scope. -/
def Scope.matching (scope : Scope) (pairs : List (String × Literal)) :
    List (String × Literal) :=
  pairs.filter fun pair => scope.heading.contains (splitPath pair.1).1

/-- All comparisons of a mapping hold together. -/
def Compiled.compared (negated : Bool) (columns : NameSet) : List Comparison → Compiled
  | [] => ⟨.constant !negated, columns⟩
  | comparisons => ⟨.formula (Formula.negatedWhen negated
      (.conjunction (comparisons.map Formula.comparison))), columns⟩

theorem Scope.compare_eq_map (scope : Scope) (negated : Bool) (pairs : List (String × Literal)) :
    scope.compare negated pairs =
      ((scope.matching pairs).mapM fun pair => scope.heading.compare? pair.1 pair.2).map
        (Compiled.compared negated
          (NameSet.ofList ((scope.matching pairs).map fun pair => (splitPath pair.1).1))) := by
  have unfolded : scope.compare negated pairs =
      (scope.matching pairs).mapM (fun pair => scope.heading.compare? pair.1 pair.2) >>=
        fun comparisons => .ok (Compiled.compared negated
          (NameSet.ofList ((scope.matching pairs).map fun pair => (splitPath pair.1).1))
          comparisons) := by
    unfold Scope.compare
    refine congrArg (Bind.bind _) (funext fun comparisons => ?_)
    cases comparisons <;> rfl
  rw [unfolded]
  cases (scope.matching pairs).mapM fun pair => scope.heading.compare? pair.1 pair.2 <;> rfl

/-- A mapping is compiled when all of its matching pairs can be compared. -/
theorem Scope.compare_eq_ok {scope : Scope} {negated : Bool} {pairs : List (String × Literal)}
    {compiled : Compiled} : scope.compare negated pairs = .ok compiled ↔ ∃ comparisons,
      (scope.matching pairs).mapM (fun pair => scope.heading.compare? pair.1 pair.2) =
        .ok comparisons ∧
      Compiled.compared negated
        (NameSet.ofList ((scope.matching pairs).map fun pair => (splitPath pair.1).1))
        comparisons = compiled := by
  rw [Scope.compare_eq_map]
  cases (scope.matching pairs).mapM fun pair => scope.heading.compare? pair.1 pair.2 <;>
    simp [Except.map]

/-- Raw SQL is compiled unless it is blank. -/
theorem compileRaw_eq_ok {negated : Bool} {sql : String} {compiled : Compiled} :
    compileRaw negated sql = .ok compiled ↔ (trim sql).isEmpty = false ∧
      ⟨.formula (Formula.negatedWhen negated (.raw (trim sql))), mentionedColumns (trim sql)⟩ =
        compiled := by
  unfold compileRaw
  cases blank : (trim sql).isEmpty <;> simp [blank]

/-- What a semijoin with an accepted partner becomes, given the names that both sides show. -/
def Expression.semijoined (partner : Expression) (checked negated : Bool)
    (common : List String) : Rendering Compiled :=
  match common with
  | [] => do
      let condition ← partner.condition checked
      if condition.isConstant false then return ⟨.constant negated, NameSet.empty⟩
      else
        return ⟨.formula (.existence negated (← partner.statement checked none)), NameSet.empty⟩
  | _ => do
      let inner ← partner.assemblePartner common (partner.statement checked)
      return ⟨.formula (.membership common negated inner), NameSet.ofList common⟩

theorem Restriction.compile_semijoin (scope : Scope) (negated : Bool) (partner : Expression)
    (checked : Bool) :
    (Restriction.semijoin partner checked).compile scope negated =
      (Rendering.ofExcept (scope.accept partner checked) >>= fun _ =>
        partner.semijoined scope.checked negated (scope.heading.common partner.heading)) := by
  rw [Restriction.compile]
  unfold Expression.semijoined
  rfl

section Compiling

variable {scope : Scope} {negated : Bool} {count later : AliasCount} {compiled : Compiled}

/-- A conjunction is compiled from the compiled members of its list. -/
theorem Restriction.yields_conjunction {items : List Restriction} :
    ((Restriction.conjunction items).compile scope negated).Yields count compiled later ↔
      ∃ parts, (compileAll scope items).Yields count parts later ∧
        ⟨Condition.conjunction negated (parts.map (·.condition)), allColumns parts⟩ =
          compiled := by
  rw [Restriction.compile, Rendering.yields_map]

/-- A disjunction is compiled from the compiled members of its list. -/
theorem Restriction.yields_disjunction {items : List Restriction} :
    ((Restriction.disjunction items).compile scope negated).Yields count compiled later ↔
      ∃ parts, (compileAll scope items).Yields count parts later ∧
        ⟨Condition.disjunction negated (parts.map (·.condition)), allColumns parts⟩ =
          compiled := by
  rw [Restriction.compile, Rendering.yields_map]

/-- A semijoin is compiled once its partner is accepted. -/
theorem Restriction.yields_semijoin {partner : Expression} {checked : Bool} :
    ((Restriction.semijoin partner checked).compile scope negated).Yields count compiled later ↔
      scope.accept partner checked = .ok () ∧
        (partner.semijoined scope.checked negated
          (scope.heading.common partner.heading)).Yields count compiled later := by
  rw [Restriction.compile_semijoin, Rendering.yields_bind]
  constructor
  · rintro ⟨_, between, accepted, yields⟩
    obtain ⟨accepted, same⟩ := Rendering.yields_ofExcept.1 accepted
    exact ⟨accepted, same ▸ yields⟩
  · rintro ⟨accepted, yields⟩
    exact ⟨(), count, Rendering.yields_ofExcept.2 ⟨accepted, rfl⟩, yields⟩

/-- A list is compiled from its first member to its last. -/
theorem yields_compileAll_cons {restriction : Restriction} {rest : List Restriction}
    {parts : List Compiled} :
    (compileAll scope (restriction :: rest)).Yields count parts later ↔
      ∃ first between others, (restriction.compile scope false).Yields count first between ∧
        (compileAll scope rest).Yields between others later ∧ first :: others = parts := by
  rw [compileAll, Rendering.yields_bind]
  simp only [Rendering.yields_map, exists_and_left]

end Compiling

end QueryAlgebra
