/-
This file reads restrictions as propositions about leaves that only the database decides.
A compiled restriction has the truth value of its reading under every valuation of the leaves.
-/
import QueryAlgebra.Proofs.PropositionText
import QueryAlgebra.Proofs.Reachability
import QueryAlgebra.Proofs.RenderingRuns

namespace QueryAlgebra

/-- A mapping asks for all equalities whose keys name visible attributes. -/
def Scope.equalities (scope : Scope) (pairs : List (String × Literal)) :
    Rendering Proposition := do
  let comparisons ← Rendering.ofExcept
    ((scope.matching pairs).mapM fun pair => scope.heading.compare? pair.1 pair.2)
  return .conjunction (comparisons.map fun comparison => .leaf (.comparison comparison))

/-- A partner that shares no attribute matters only by whether it has rows. -/
def Expression.semijoinReading (partner : Expression) (checked : Bool) (common : List String) :
    Rendering Proposition :=
  match common with
  | [] => do
      let condition ← partner.condition checked
      if condition.isConstant false then return .constant false
      else return .leaf (.existence (← partner.statement checked none))
  | _ => do
      let inner ← partner.assemblePartner common (partner.statement checked)
      return .leaf (.membership common inner)

mutual

/-- What a restriction means, without folding constants and without moving negations. -/
def Restriction.reading (scope : Scope) : Restriction → Rendering Proposition
  | .constant value => return .constant value
  | .raw sql => return .leaf (.raw (trim sql))
  | .mapping pairs => scope.equalities pairs
  | .record members =>
      scope.equalities (members.map fun member => (member.1, Literal.ofDocument member.2))
  | .disjunction items => return .disjunction (← readAll scope items)
  | .conjunction items => return .conjunction (← readAll scope items)
  | .negation restriction => return .negation (← restriction.reading scope)
  | .semijoin partner _ =>
      partner.semijoinReading scope.checked (scope.heading.common partner.heading)
  | .universal _ => return .constant true

def readAll (scope : Scope) : List Restriction → Rendering (List Proposition)
  | [] => return []
  | restriction :: rest => do
      let first ← restriction.reading scope
      let others ← readAll scope rest
      return first :: others

end

def Condition.holds (valuation : Leaf → Bool) : Condition → Bool
  | .constant value => value
  | .formula inner => inner.proposition.holds valuation

def Condition.Proper : Condition → Prop
  | .constant _ => True
  | .formula inner => inner.Proper

theorem Formula.holds_negatedWhen (valuation : Leaf → Bool) (negated : Bool) (formula : Formula) :
    (Formula.negatedWhen negated formula).proposition.holds valuation =
      (negated != formula.proposition.holds valuation) := by
  cases negated
  · simp [negatedWhen]
  · simp [negatedWhen, proposition, Proposition.holds]

theorem Formula.proper_negatedWhen {negated : Bool} {formula : Formula} (proper : formula.Proper) :
    (Formula.negatedWhen negated formula).Proper := by
  cases negated
  · exact proper
  · exact proper

section Combinations

variable {absorbing negated : Bool} {connective : List Formula → Formula}
  {conditions : List Condition}

/-- A formula keeps the conditions that are no constants. -/
theorem Condition.mem_formulas {formula : Formula} :
    formula ∈ conditions.filterMap Condition.formula? ↔ .formula formula ∈ conditions := by
  rw [List.mem_filterMap]
  constructor
  · rintro ⟨condition, inside, kept⟩
    cases condition with
    | constant value => contradiction
    | formula inner =>
        injection kept with same
        exact same ▸ inside
  · exact fun inside => ⟨_, inside, rfl⟩

/-- Leaving out the constants that do not decide changes nothing. -/
theorem Condition.decided_formulas (valuation : Leaf → Bool)
    (open' : conditions.any (Condition.isConstant absorbing) = false) :
    decided absorbing (conditions.map (Condition.holds valuation)) =
      decided absorbing ((conditions.filterMap Condition.formula?).map
        fun formula => formula.proposition.holds valuation) := by
  have same : (conditions.map (Condition.holds valuation)).contains absorbing =
      ((conditions.filterMap Condition.formula?).map
        fun formula => formula.proposition.holds valuation).contains absorbing := by
    rw [Bool.eq_iff_iff, List.contains_iff_mem, List.contains_iff_mem, List.mem_map, List.mem_map]
    constructor
    · rintro ⟨condition, inside, value⟩
      cases condition with
      | constant other =>
          have differs : ¬ (absorbing == other) = true := List.any_eq_false.1 open' _ inside
          exact absurd (beq_iff_eq.2 value.symm) differs
      | formula inner => exact ⟨inner, mem_formulas.2 inside, value⟩
    · rintro ⟨inner, inside, value⟩
      exact ⟨.formula inner, mem_formulas.1 inside, value⟩
  rw [decided, decided, same]

/-- A combination has the value that its members decide. -/
theorem Condition.holds_combine (valuation : Leaf → Bool)
    (meaning : ∀ formulas, (connective formulas).proposition.holds valuation =
      decided absorbing (formulas.map fun formula => formula.proposition.holds valuation)) :
    (Condition.combine absorbing connective negated conditions).holds valuation =
      (negated != decided absorbing (conditions.map (Condition.holds valuation))) := by
  unfold Condition.combine
  cases absorbed : conditions.any (Condition.isConstant absorbing) with
  | true =>
      obtain ⟨condition, inside, constant⟩ := List.any_eq_true.1 absorbed
      have value : condition.holds valuation = absorbing := by
        cases condition with
        | constant other => exact (beq_iff_eq.1 constant).symm
        | formula inner => contradiction
      have present : (conditions.map (Condition.holds valuation)).contains absorbing = true :=
        List.contains_iff_mem.2 (List.mem_map.2 ⟨condition, inside, value⟩)
      rw [if_pos rfl, decided, present, if_pos rfl, holds]
  | false =>
      rw [if_neg Bool.false_ne_true, decided_formulas valuation absorbed]
      cases conditions.filterMap Condition.formula? with
      | nil => rfl
      | cons formula rest =>
          dsimp only
          rw [holds, Formula.holds_negatedWhen, meaning]

theorem Condition.proper_combine
    (built : ∀ formulas, formulas ≠ [] → AllProper formulas → (connective formulas).Proper)
    (members : ∀ condition ∈ conditions, condition.Proper) :
    (Condition.combine absorbing connective negated conditions).Proper := by
  have inside : AllProper (conditions.filterMap Condition.formula?) :=
    allProper_iff.2 fun formula kept => members _ (mem_formulas.1 kept)
  unfold Condition.combine
  split
  · trivial
  · split
    · trivial
    · rename_i some
      exact Formula.proper_negatedWhen (built _ some inside)

end Combinations

/-- A condition stands for a reading, or for its negation, under every valuation. -/
def Condition.StandsFor (condition : Condition) (negated : Bool) (reading : Proposition) : Prop :=
  condition.Proper ∧ ∀ valuation, condition.holds valuation = (negated != reading.holds valuation)

theorem Condition.standsFor_constant {value negated result : Bool}
    (same : result = (negated != value)) :
    (Condition.constant result).StandsFor negated (.constant value) :=
  ⟨trivial, fun _ => same⟩

theorem Condition.standsFor_negatedWhen {negated : Bool} {formula : Formula}
    {reading : Proposition} (proper : formula.Proper)
    (same : ∀ valuation, formula.proposition.holds valuation = reading.holds valuation) :
    (Condition.formula (Formula.negatedWhen negated formula)).StandsFor negated reading :=
  ⟨Formula.proper_negatedWhen proper, fun valuation => by
    rw [holds, Formula.holds_negatedWhen, same]⟩

theorem Condition.standsFor_existence (negated : Bool) (statement : Statement) :
    (Condition.formula (.existence negated statement)).StandsFor negated
      (.leaf (.existence statement)) := by
  refine ⟨trivial, fun valuation => ?_⟩
  cases negated <;> simp [holds, Formula.proposition, Proposition.holds]

theorem Condition.standsFor_membership (columns : List String) (negated : Bool)
    (statement : Statement) :
    (Condition.formula (.membership columns negated statement)).StandsFor negated
      (.leaf (.membership columns statement)) := by
  refine ⟨trivial, fun valuation => ?_⟩
  cases negated <;> simp [holds, Formula.proposition, Proposition.holds]

/-- The conditions of a list stand for the readings of the same list. -/
def AllStandFor (parts : List Compiled) (readings : List Proposition) : Prop :=
  List.Forall₂ (fun part reading => part.condition.StandsFor false reading) parts readings

theorem AllStandFor.proper {parts : List Compiled} {readings : List Proposition}
    (stand : AllStandFor parts readings) :
    ∀ condition ∈ parts.map (·.condition), condition.Proper := by
  unfold AllStandFor at stand
  induction stand with
  | nil => simp
  | cons first _ ih =>
      rw [List.map_cons, List.forall_mem_cons]
      exact ⟨first.1, ih⟩

theorem AllStandFor.values {parts : List Compiled} {readings : List Proposition}
    (stand : AllStandFor parts readings) (valuation : Leaf → Bool) :
    (parts.map (·.condition)).map (Condition.holds valuation) =
      readings.map (Proposition.holds valuation) := by
  unfold AllStandFor at stand
  induction stand with
  | nil => rfl
  | cons first _ ih =>
      rw [List.map_cons, List.map_cons, List.map_cons, ih, first.2 valuation]
      simp

/-- Conditions that are combined stand for the combination of their readings. -/
theorem AllStandFor.combine {parts : List Compiled} {readings : List Proposition}
    {absorbing : Bool} {connective : List Formula → Formula}
    {combined : List Proposition → Proposition} (stand : AllStandFor parts readings)
    (negated : Bool)
    (proper : ∀ formulas, formulas ≠ [] → AllProper formulas → (connective formulas).Proper)
    (inside : ∀ formulas,
      (connective formulas).proposition = combined (formulas.map Formula.proposition))
    (meaning : ∀ valuation propositions, (combined propositions).holds valuation =
      decided absorbing (propositions.map (Proposition.holds valuation))) :
    (Condition.combine absorbing connective negated (parts.map (·.condition))).StandsFor negated
      (combined readings) := by
  refine ⟨Condition.proper_combine proper stand.proper, fun valuation => ?_⟩
  rw [Condition.holds_combine, stand.values valuation, meaning]
  intro formulas
  rw [inside, meaning, List.map_map]
  rfl

theorem AllStandFor.conjunction {parts : List Compiled} {readings : List Proposition}
    (stand : AllStandFor parts readings) (negated : Bool) :
    (Condition.conjunction negated (parts.map (·.condition))).StandsFor negated
      (.conjunction readings) := by
  rw [Condition.conjunction_eq_combine]
  apply stand.combine negated
  · intro formulas some proper
    rw [Formula.Proper]
    exact ⟨some, proper⟩
  · intro formulas
    rw [Formula.proposition, formulaPropositions_eq_map]
  · exact Proposition.holds_conjunction

theorem AllStandFor.disjunction {parts : List Compiled} {readings : List Proposition}
    (stand : AllStandFor parts readings) (negated : Bool) :
    (Condition.disjunction negated (parts.map (·.condition))).StandsFor negated
      (.disjunction readings) := by
  rw [Condition.disjunction_eq_combine]
  apply stand.combine negated
  · intro formulas some proper
    rw [Formula.Proper]
    exact ⟨some, proper⟩
  · intro formulas
    rw [Formula.proposition, formulaPropositions_eq_map]
  · exact Proposition.holds_disjunction

/-- A mapping stands for its equalities, and without any for the truth. -/
theorem Compiled.compared_standsFor (negated : Bool) (columns : NameSet)
    (comparisons : List Comparison) :
    (Compiled.compared negated columns comparisons).condition.StandsFor negated
      (.conjunction (comparisons.map fun comparison => .leaf (.comparison comparison))) := by
  cases comparisons with
  | nil => exact ⟨trivial, fun valuation => by cases negated <;> rfl⟩
  | cons first rest =>
      apply Condition.standsFor_negatedWhen
      · rw [Formula.Proper, allProper_iff]
        refine ⟨List.cons_ne_nil _ _, fun formula inside => ?_⟩
        obtain ⟨comparison, _, rfl⟩ := List.mem_map.1 inside
        trivial
      · intro valuation
        rw [Formula.proposition, formulaPropositions_eq_map, List.map_map]
        rfl

section Runs

variable {count later : AliasCount} {compiled : Compiled}

/-- A mapping stands for the equalities of its matching keys. -/
theorem Scope.compare_standsFor {scope : Scope} {negated : Bool} {pairs : List (String × Literal)}
    (compared : scope.compare negated pairs = .ok compiled) (count : AliasCount) :
    ∃ reading, (scope.equalities pairs).Yields count reading count ∧
      compiled.condition.StandsFor negated reading := by
  obtain ⟨comparisons, matched, rfl⟩ := Scope.compare_eq_ok.1 compared
  have read := Rendering.yields_ofExcept.2 ⟨matched, Eq.refl count⟩
  exact ⟨_, Rendering.yields_map.2 ⟨comparisons, read, rfl⟩,
    Compiled.compared_standsFor negated _ comparisons⟩

theorem compileRaw_standsFor {negated : Bool} {sql : String}
    (accepted : compileRaw negated sql = .ok compiled) :
    compiled.condition.StandsFor negated (.leaf (.raw (trim sql))) := by
  obtain ⟨_, rfl⟩ := compileRaw_eq_ok.1 accepted
  exact Condition.standsFor_negatedWhen trivial fun _ => rfl

/-- A semijoin stands for its leaf, or for falsehood when its partner is known to be empty. -/
theorem Expression.semijoined_standsFor {partner : Expression} {checked negated : Bool}
    {common : List String}
    (yields : (partner.semijoined checked negated common).Yields count compiled later) :
    ∃ reading, (partner.semijoinReading checked common).Yields count reading later ∧
      compiled.condition.StandsFor negated reading := by
  cases common with
  | nil =>
      obtain ⟨condition, between, own, rest⟩ := Rendering.yields_bind.1 yields
      have reads : ∀ reading, ((if condition.isConstant false then pure (.constant false)
          else partner.statement checked none >>= fun inner =>
            pure (.leaf (.existence inner)) : Rendering Proposition).Yields
              between reading later) →
          (partner.semijoinReading checked []).Yields count reading later :=
        fun reading run => Rendering.yields_bind.2 ⟨condition, between, own, run⟩
      cases empty : condition.isConstant false with
      | true =>
          rw [empty, if_pos rfl, Rendering.yields_pure] at rest
          rw [empty, if_pos rfl] at reads
          obtain ⟨rfl, rfl⟩ := rest
          have run := reads (.constant false) (Rendering.yields_pure.2 ⟨rfl, rfl⟩)
          exact ⟨.constant false, run, Condition.standsFor_constant (by simp)⟩
      | false =>
          rw [empty, if_neg Bool.false_ne_true, Rendering.yields_map] at rest
          rw [empty, if_neg Bool.false_ne_true] at reads
          obtain ⟨inner, rendered, rfl⟩ := rest
          have run := reads (.leaf (.existence inner))
            (Rendering.yields_map.2 ⟨inner, rendered, rfl⟩)
          exact ⟨.leaf (.existence inner), run, Condition.standsFor_existence negated inner⟩
  | cons name rest =>
      obtain ⟨inner, rendered, rfl⟩ := Rendering.yields_map.1 yields
      have run : (partner.semijoinReading checked (name :: rest)).Yields count
          (.leaf (.membership (name :: rest) inner)) later :=
        Rendering.yields_map.2 ⟨inner, rendered, rfl⟩
      exact ⟨_, run, Condition.standsFor_membership (name :: rest) negated inner⟩

end Runs

mutual

/-- A compiled restriction stands for its reading, rendered from the same count. -/
theorem Restriction.compile_standsFor (scope : Scope) :
    ∀ (restriction : Restriction) {negated : Bool} {count later : AliasCount}
      {compiled : Compiled}, (restriction.compile scope negated).Yields count compiled later →
      ∃ reading, (restriction.reading scope).Yields count reading later ∧
        compiled.condition.StandsFor negated reading
  | .constant value => by
      intro yields
      rw [Restriction.compile, Rendering.yields_pure] at yields
      obtain ⟨rfl, rfl⟩ := yields
      rw [Restriction.reading]
      exact ⟨.constant value, Rendering.yields_pure.2 ⟨rfl, rfl⟩,
        Condition.standsFor_constant rfl⟩
  | .universal set => by
      intro yields
      rw [Restriction.compile, Rendering.yields_pure] at yields
      obtain ⟨rfl, rfl⟩ := yields
      rw [Restriction.reading]
      exact ⟨.constant true, Rendering.yields_pure.2 ⟨rfl, rfl⟩,
        Condition.standsFor_constant (by simp)⟩
  | .raw sql => by
      intro yields
      rw [Restriction.compile, Rendering.yields_ofExcept] at yields
      rw [Restriction.reading]
      exact ⟨_, Rendering.yields_pure.2 ⟨rfl, yields.2⟩, compileRaw_standsFor yields.1⟩
  | .mapping pairs => by
      intro yields
      rw [Restriction.compile, Rendering.yields_ofExcept] at yields
      rw [Restriction.reading, ← yields.2]
      exact Scope.compare_standsFor yields.1 _
  | .record members => by
      intro yields
      rw [Restriction.compile, Rendering.yields_ofExcept] at yields
      rw [Restriction.reading, ← yields.2]
      exact Scope.compare_standsFor yields.1 _
  | .disjunction items => by
      intro yields
      obtain ⟨parts, inside, rfl⟩ := Restriction.yields_disjunction.1 yields
      obtain ⟨readings, read, stand⟩ := compileAll_standFor scope items inside
      rw [Restriction.reading]
      exact ⟨.disjunction readings, Rendering.yields_map.2 ⟨readings, read, rfl⟩, stand.disjunction _⟩
  | .conjunction items => by
      intro yields
      obtain ⟨parts, inside, rfl⟩ := Restriction.yields_conjunction.1 yields
      obtain ⟨readings, read, stand⟩ := compileAll_standFor scope items inside
      rw [Restriction.reading]
      exact ⟨.conjunction readings, Rendering.yields_map.2 ⟨readings, read, rfl⟩, stand.conjunction _⟩
  | .negation restriction => by
      intro yields
      rw [Restriction.compile] at yields
      obtain ⟨reading, read, proper, same⟩ := Restriction.compile_standsFor scope restriction yields
      rw [Restriction.reading]
      refine ⟨.negation reading, Rendering.yields_map.2 ⟨reading, read, rfl⟩, proper,
        fun valuation => ?_⟩
      -- the flag that was turned over on the way in is turned back here
      rw [same, Proposition.holds]
      cases reading.holds valuation <;> simp
  | .semijoin partner checked => by
      intro yields
      obtain ⟨_, joined⟩ := Restriction.yields_semijoin.1 yields
      rw [Restriction.reading]
      exact Expression.semijoined_standsFor joined

theorem compileAll_standFor (scope : Scope) :
    ∀ (items : List Restriction) {count later : AliasCount} {parts : List Compiled},
      (compileAll scope items).Yields count parts later →
      ∃ readings, (readAll scope items).Yields count readings later ∧
        AllStandFor parts readings
  | [] => by
      intro yields
      rw [compileAll, Rendering.yields_pure] at yields
      rw [readAll, ← yields.1]
      exact ⟨[], Rendering.yields_pure.2 ⟨rfl, yields.2⟩, .nil⟩
  | restriction :: rest => by
      intro yields
      obtain ⟨first, between, others, head, tail, rfl⟩ := yields_compileAll_cons.1 yields
      obtain ⟨reading, read, stands⟩ := Restriction.compile_standsFor scope restriction head
      obtain ⟨readings, readRest, stand⟩ := compileAll_standFor scope rest tail
      rw [readAll]
      refine ⟨reading :: readings, Rendering.yields_bind.2 ⟨reading, between, read, ?_⟩,
        .cons stands stand⟩
      exact Rendering.yields_map.2 ⟨readings, readRest, rfl⟩

end

/-- A compiled restriction keeps the Boolean meaning of the restriction.
A constant is the value of the reading under every valuation. Any other condition is written as
a proposition over the leaves that has the value of the reading under every valuation. -/
theorem Restriction.compile_keeps_meaning {scope : Scope} {restriction : Restriction}
    {count later : AliasCount} {compiled : Compiled}
    (yields : (restriction.compile scope false).Yields count compiled later) :
    ∃ reading, (restriction.reading scope).Yields count reading later ∧
      (∀ value, compiled.condition = .constant value →
        ∀ valuation, reading.holds valuation = value) ∧
      ∀ formula, compiled.condition = .formula formula →
        ∃ written, (∀ config, Writes config written (formula.text config)) ∧
          ∀ valuation, written.holds valuation = reading.holds valuation := by
  obtain ⟨reading, read, proper, same⟩ := restriction.compile_standsFor scope yields
  refine ⟨reading, read, ?_, ?_⟩
  · intro value constant valuation
    have value' := same valuation
    rw [constant] at value'
    simpa [Condition.holds] using value'.symm
  · intro formula written
    rw [written] at proper same
    refine ⟨formula.proposition, fun config => Formula.writes_text config proper, ?_⟩
    intro valuation
    simpa [Condition.holds] using same valuation

/-- Subjects that are female, mice or logged are left out. -/
def unloggedRestriction (log : Expression) : Restriction :=
  .negation (.disjunction [.raw "sex = 'F'",
    .conjunction [.constant true, .mapping [("species", .string "mouse")]], .semijoin log true])

/-- A negated list with raw SQL, a constant, a mapping and a semijoin keeps its meaning. -/
theorem Restriction.compile_keeps_meaning_of_list :
    ∃ subject log compiled later formula reading written,
      Expression.ofTable laboratory subjectDeclaration = .ok subject ∧
      Expression.ofTable laboratory logDeclaration = .ok log ∧
      ((unloggedRestriction log).compile (subject.scope true) false).Yields
        AliasCount.zero compiled later ∧
      compiled.condition = .formula formula ∧
      ((unloggedRestriction log).reading (subject.scope true)).Yields
        AliasCount.zero reading later ∧
      (∀ config, Writes config written (formula.text config)) ∧
      ∀ valuation, written.holds valuation = reading.holds valuation := by
  obtain ⟨subject, declared⟩ : ∃ subject,
      Expression.ofTable laboratory subjectDeclaration = .ok subject := ⟨_, rfl⟩
  obtain ⟨log, given⟩ : ∃ log, Expression.ofTable laboratory logDeclaration = .ok log := ⟨_, rfl⟩
  have compiles : ∃ compiled later formula,
      ((unloggedRestriction log).compile (subject.scope true) false).Yields
        AliasCount.zero compiled later ∧ compiled.condition = .formula formula := by
    cases declared
    cases given
    exact ⟨_, _, _, rfl, rfl⟩
  obtain ⟨compiled, later, formula, yields, shape⟩ := compiles
  obtain ⟨reading, read, _, means⟩ := compile_keeps_meaning yields
  obtain ⟨written, text, same⟩ := means formula shape
  exact ⟨subject, log, compiled, later, formula, reading, written, declared, given, yields,
    shape, read, text, same⟩

end QueryAlgebra
