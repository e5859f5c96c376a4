/-
This file shows what negations do to a compiled restriction. Only the parity of their number
counts, and an odd number turns the condition over and changes nothing else.
-/
import Mathlib.Algebra.Ring.Parity
import QueryAlgebra.Proofs.Reachability
import QueryAlgebra.Proofs.RenderingRuns
import QueryAlgebra.Statement.Text

namespace QueryAlgebra

/-- The restriction inside a number of negations. -/
def Restriction.negations (restriction : Restriction) : Nat → Restriction
  | 0 => restriction
  | count + 1 => .negation (restriction.negations count)

def Restriction.isNegation : Restriction → Bool
  | .negation _ => true
  | _ => false

/-- The columns that a semijoin compares, and none for other restrictions. -/
def Restriction.shared? (scope : Scope) : Restriction → Option (List String)
  | .semijoin partner _ => some (scope.heading.common partner.heading)
  | _ => none

/-- A constant turns over, a semijoin carries its own negation, and any other formula is
enclosed. -/
def Condition.opposite : Condition → Condition
  | .constant value => .constant !value
  | .formula (.membership columns negated statement) =>
      .formula (.membership columns (!negated) statement)
  | .formula (.existence negated statement) => .formula (.existence (!negated) statement)
  | .formula inner => .formula (.negation inner)

def Compiled.opposite (compiled : Compiled) : Compiled :=
  ⟨compiled.condition.opposite, compiled.columns⟩

/-- The second rendering changes the value of the first one and keeps its faults and aliases. -/
def Rendering.Changes {α β : Type} (change : α → β) (first : Rendering α)
    (second : Rendering β) : Prop :=
  ∀ count, second.runFrom count =
    ((first.runFrom count).1.map change, (first.runFrom count).2)

section Steps

variable {α β γ : Type} {change : α → β}

theorem Rendering.Changes.pure (value : α) :
    Rendering.Changes change (Pure.pure value) (Pure.pure (change value)) :=
  fun _ => rfl

theorem Rendering.Changes.ofExcept (result : Except Fault α) :
    Rendering.Changes change (.ofExcept result) (.ofExcept (result.map change)) :=
  fun _ => rfl

/-- What comes first in both renderings may be anything. -/
theorem Rendering.Changes.after {first : Rendering γ} {next : γ → Rendering α}
    {next' : γ → Rendering β} (each : ∀ value, Rendering.Changes change (next value) (next' value)) :
    Rendering.Changes change (first >>= next) (first >>= next') := by
  intro count
  rw [runFrom_bind, runFrom_bind]
  rcases first.runFrom count with ⟨fault | value, later⟩
  · rfl
  · exact each value later

end Steps

theorem compileRaw_opposite (sql : String) :
    compileRaw true sql = (compileRaw false sql).map Compiled.opposite := by
  cases blank : (trim sql).isEmpty with
  | true => simp only [compileRaw, blank, if_true, Except.map]
  | false =>
      simp only [compileRaw, blank, Bool.false_eq_true, if_false, Except.map, Compiled.opposite,
        Formula.negatedWhen, if_true, Condition.opposite]

theorem Compiled.compared_opposite (columns : NameSet) (comparisons : List Comparison) :
    Compiled.compared true columns comparisons =
      (Compiled.compared false columns comparisons).opposite := by
  cases comparisons <;> rfl

theorem Scope.compare_opposite (scope : Scope) (pairs : List (String × Literal)) :
    scope.compare true pairs = (scope.compare false pairs).map Compiled.opposite := by
  rw [Scope.compare_eq_map, Scope.compare_eq_map]
  cases (scope.matching pairs).mapM fun pair => scope.heading.compare? pair.1 pair.2 with
  | error fault => rfl
  | ok comparisons => exact congrArg Except.ok (Compiled.compared_opposite _ comparisons)

/-- A combination of conditions turns over as a whole. -/
theorem Condition.combine_opposite {connective : List Formula → Formula}
    (enclosed : ∀ formulas, Condition.opposite (.formula (connective formulas)) =
      .formula (.negation (connective formulas)))
    (absorbing : Bool) (conditions : List Condition) :
    Condition.combine absorbing connective true conditions =
      (Condition.combine absorbing connective false conditions).opposite := by
  unfold combine
  cases conditions.any (Condition.isConstant absorbing) with
  | true => cases absorbing <;> rfl
  | false =>
      cases conditions.filterMap Condition.formula? with
      | nil => cases absorbing <;> rfl
      | cons formula rest => exact (enclosed _).symm

theorem Expression.semijoined_opposite (partner : Expression) (checked : Bool)
    (common : List String) :
    Rendering.Changes Compiled.opposite (partner.semijoined checked false common)
      (partner.semijoined checked true common) := by
  cases common with
  | nil =>
      apply Rendering.Changes.after
      intro condition
      split
      · exact .pure _
      · apply Rendering.Changes.after
        intro statement
        exact .pure _
  | cons name rest =>
      apply Rendering.Changes.after
      intro statement
      exact .pure _

/-- Every variant but the negation itself treats both polarities alike. -/
theorem Restriction.compile_opposite (scope : Scope) {restriction : Restriction}
    (plain : restriction.isNegation = false) :
    Rendering.Changes Compiled.opposite (restriction.compile scope false)
      (restriction.compile scope true) := by
  cases restriction with
  | negation inner => contradiction
  | constant value =>
      rw [Restriction.compile, Restriction.compile]
      cases value <;> exact .pure _
  | universal set =>
      rw [Restriction.compile, Restriction.compile]
      exact .pure _
  | raw sql =>
      rw [Restriction.compile, Restriction.compile, compileRaw_opposite]
      exact .ofExcept _
  | mapping _ | record _ =>
      rw [Restriction.compile, Restriction.compile, Scope.compare_opposite]
      exact .ofExcept _
  | disjunction items =>
      rw [Restriction.compile, Restriction.compile]
      apply Rendering.Changes.after
      intro parts
      rw [Condition.disjunction_eq_combine, Condition.disjunction_eq_combine,
        Condition.combine_opposite fun _ => rfl]
      exact .pure _
  | conjunction items =>
      rw [Restriction.compile, Restriction.compile]
      apply Rendering.Changes.after
      intro parts
      rw [Condition.conjunction_eq_combine, Condition.conjunction_eq_combine,
        Condition.combine_opposite fun _ => rfl]
      exact .pure _
  | semijoin partner checked =>
      rw [Restriction.compile_semijoin, Restriction.compile_semijoin]
      apply Rendering.Changes.after
      intro accepted
      exact partner.semijoined_opposite scope.checked _

/-- Two negations cancel out. -/
theorem Restriction.compile_negations (scope : Scope) (restriction : Restriction) (n : Nat)
    (negated : Bool) :
    (Even n → (restriction.negations n).compile scope negated =
      restriction.compile scope negated) ∧
      (Odd n → (restriction.negations n).compile scope negated =
        restriction.compile scope !negated) := by
  induction n generalizing negated with
  | zero =>
      constructor
      · intro even
        rfl
      · intro odd
        contradiction
  | succ n ih =>
      rw [negations, Restriction.compile]
      constructor
      · intro even
        have odd : Odd n := Nat.not_even_iff_odd.1 (Nat.even_add_one.1 even)
        rw [(ih !negated).2 odd, Bool.not_not]
      · intro odd
        have even : Even n := Nat.not_odd_iff_even.1 (Nat.odd_add_one.1 odd)
        exact (ih !negated).1 even

/-- How a condition denies another one, for a semijoin over shared columns or for any other
restriction. A semijoin has the negation directly before its own keyword and is otherwise the
same. -/
inductive Condition.Denies (config : Config) :
    Option (List String) → Condition → Condition → Prop where
  | constant (shared : Option (List String)) (value : Bool) :
      Denies config shared (.constant value) (.constant !value)
  | enclosed {formula denial : Formula}
      (text : denial.text config = "NOT (" ++ formula.text config ++ ")") :
      Denies config none (.formula formula) (.formula denial)
  | membership {formula denial : Formula} (columns : List String) (statement : String)
      (positive : formula.text config =
        "(" ++ quoteNames columns ++ ") " ++ "IN (" ++ statement ++ ")")
      (negative : denial.text config =
        "(" ++ quoteNames columns ++ ") " ++ "NOT " ++ "IN (" ++ statement ++ ")") :
      Denies config (some columns) (.formula formula) (.formula denial)
  | existence {formula denial : Formula} (statement : String)
      (positive : formula.text config = "EXISTS (" ++ statement ++ ")")
      (negative : denial.text config = "NOT " ++ "EXISTS (" ++ statement ++ ")") :
      Denies config (some []) (.formula formula) (.formula denial)

theorem Condition.denies_enclosed (config : Config) {formula : Formula}
    (enclosed : Condition.opposite (.formula formula) = .formula (.negation formula)) :
    Condition.Denies config none (.formula formula) (Condition.opposite (.formula formula)) := by
  rw [enclosed]
  exact .enclosed (by rw [Formula.text])

theorem Condition.denies_combine (config : Config) {connective : List Formula → Formula}
    (enclosed : ∀ formulas, Condition.opposite (.formula (connective formulas)) =
      .formula (.negation (connective formulas)))
    (absorbing : Bool) (conditions : List Condition) :
    Condition.Denies config none (Condition.combine absorbing connective false conditions)
      (Condition.combine absorbing connective false conditions).opposite := by
  unfold combine
  cases conditions.any (Condition.isConstant absorbing) with
  | true => exact .constant none _
  | false =>
      cases conditions.filterMap Condition.formula? with
      | nil => exact .constant none _
      | cons formula rest => exact denies_enclosed config (enclosed _)

theorem Compiled.denies_compared (config : Config) (columns : NameSet)
    (comparisons : List Comparison) :
    Condition.Denies config none (Compiled.compared false columns comparisons).condition
      (Compiled.compared false columns comparisons).condition.opposite := by
  cases comparisons with
  | nil => exact .constant none true
  | cons comparison rest => exact Condition.denies_enclosed config rfl

theorem Expression.denies_semijoined (config : Config) {partner : Expression} {checked : Bool}
    {common : List String} {count later : AliasCount} {compiled : Compiled}
    (yields : (partner.semijoined checked false common).Yields count compiled later) :
    Condition.Denies config (some common) compiled.condition compiled.condition.opposite := by
  cases common with
  | nil =>
      obtain ⟨condition, between, _, yields⟩ := Rendering.yields_bind.1 yields
      split at yields
      · rw [← (Rendering.yields_pure.1 yields).1]
        exact .constant (some []) false
      · obtain ⟨statement, _, same⟩ := Rendering.yields_map.1 yields
        rw [← same]
        refine .existence (statement.text config) ?_ ?_
        · simp [Formula.text, negationText]
        · simp [Formula.text, negationText]
  | cons name rest =>
      obtain ⟨statement, _, same⟩ := Rendering.yields_map.1 yields
      rw [← same]
      refine .membership (name :: rest) (statement.text config) ?_ ?_
      · simp [Formula.text, negationText]
      · simp [Formula.text, negationText]

/-- The opposite of what a restriction compiles to denies it. -/
theorem Restriction.denies_opposite (config : Config) {scope : Scope} {restriction : Restriction}
    (plain : restriction.isNegation = false) {count later : AliasCount} {compiled : Compiled}
    (yields : (restriction.compile scope false).Yields count compiled later) :
    Condition.Denies config (restriction.shared? scope) compiled.condition
      compiled.condition.opposite := by
  cases restriction with
  | negation inner => contradiction
  | constant _ | universal _ =>
      rw [Restriction.compile, Rendering.yields_pure] at yields
      rw [← yields.1]
      exact .constant none _
  | raw sql =>
      rw [Restriction.compile, Rendering.yields_ofExcept] at yields
      obtain ⟨_, same⟩ := compileRaw_eq_ok.1 yields.1
      rw [← same]
      exact Condition.denies_enclosed config rfl
  | mapping _ | record _ =>
      rw [Restriction.compile, Rendering.yields_ofExcept] at yields
      obtain ⟨comparisons, _, same⟩ := Scope.compare_eq_ok.1 yields.1
      rw [← same]
      exact Compiled.denies_compared config _ comparisons
  | disjunction items =>
      obtain ⟨parts, _, same⟩ := Restriction.yields_disjunction.1 yields
      rw [← same, Condition.disjunction_eq_combine]
      exact Condition.denies_combine config (fun _ => rfl) _ _
  | conjunction items =>
      obtain ⟨parts, _, same⟩ := Restriction.yields_conjunction.1 yields
      rw [← same, Condition.conjunction_eq_combine]
      exact Condition.denies_combine config (fun _ => rfl) _ _
  | semijoin partner checked =>
      obtain ⟨_, joined⟩ := Restriction.yields_semijoin.1 yields
      exact Expression.denies_semijoined config joined

/-- Only the parity of the number of negations around a restriction counts. However many there
are, the restriction is refused for the same fault. An even number leaves the outcome as it is.
With an odd number the restriction mentions the same columns and uses up the same aliases, and
its condition is denied. -/
theorem Restriction.compile_negations_parity {restriction : Restriction}
    (plain : restriction.isNegation = false) (scope : Scope) (n : Nat) (count : AliasCount) :
    (∀ fault later,
      ((restriction.negations n).compile scope false).runFrom count = (.error fault, later) ↔
        (restriction.compile scope false).runFrom count = (.error fault, later)) ∧
      (Even n → ((restriction.negations n).compile scope false).runFrom count =
        (restriction.compile scope false).runFrom count) ∧
      (Odd n → ∀ compiled later, (restriction.compile scope false).Yields count compiled later →
        ∃ denial,
          ((restriction.negations n).compile scope false).Yields count
            ⟨denial, compiled.columns⟩ later ∧
          ∀ config, Condition.Denies config (restriction.shared? scope)
            compiled.condition denial) := by
  obtain ⟨evenly, oddly⟩ := compile_negations scope restriction n false
  have turned := compile_opposite scope plain count
  refine ⟨?_, fun even => by rw [evenly even], ?_⟩
  · intro fault later
    rcases Nat.even_or_odd n with even | odd
    · rw [evenly even]
    · rw [oddly odd, Bool.not_false, turned]
      rcases (restriction.compile scope false).runFrom count with ⟨_ | compiled, left⟩ <;>
        simp [Except.map]
  · intro odd compiled later yields
    refine ⟨compiled.condition.opposite, ?_, fun config => denies_opposite config plain yields⟩
    rw [oddly odd, Bool.not_false, Rendering.Yields, turned, yields]
    rfl

/-- Three negations around a semijoin leave one directly before its keyword. -/
theorem Restriction.compile_negations_parity_of_log :
    ∃ subject log compiled later denial,
      Expression.ofTable laboratory subjectDeclaration = .ok subject ∧
      Expression.ofTable laboratory logDeclaration = .ok log ∧
      ((Restriction.semijoin log true).compile (subject.scope true) false).Yields
        AliasCount.zero compiled later ∧
      (((Restriction.semijoin log true).negations 3).compile (subject.scope true) false).Yields
        AliasCount.zero ⟨denial, compiled.columns⟩ later ∧
      ∀ config, Condition.Denies config (some ["subject_id"]) compiled.condition denial := by
  obtain ⟨subject, declared⟩ : ∃ subject,
      Expression.ofTable laboratory subjectDeclaration = .ok subject := ⟨_, rfl⟩
  obtain ⟨log, given⟩ : ∃ log, Expression.ofTable laboratory logDeclaration = .ok log := ⟨_, rfl⟩
  have compiles : ∃ compiled later,
      ((Restriction.semijoin log true).compile (subject.scope true) false).Yields
        AliasCount.zero compiled later ∧
      (Restriction.semijoin log true).shared? (subject.scope true) = some ["subject_id"] := by
    cases declared
    cases given
    exact ⟨_, _, rfl, rfl⟩
  obtain ⟨compiled, later, yields, shared⟩ := compiles
  obtain ⟨denial, again, denies⟩ :=
    (compile_negations_parity rfl (subject.scope true) 3 AliasCount.zero).2.2 (by decide)
      compiled later yields
  rw [shared] at denies
  exact ⟨subject, log, compiled, later, denial, declared, given, yields, again, denies⟩

end QueryAlgebra
