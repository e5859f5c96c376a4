/-
This file defines propositions over leaves that only the database decides, and their texts.
The text of a formula without empty connectives encloses every operand in parentheses.
-/
import Mathlib.Data.List.Forall2
import QueryAlgebra.Statement.Text

namespace QueryAlgebra

/-- A condition without connectives whose truth value only the database knows. -/
inductive Leaf where
  | raw (sql : String)
  | comparison (equality : Comparison)
  | membership (columns : List String) (statement : Statement)
  | existence (statement : Statement)

/-- A Boolean combination of leaves. -/
inductive Proposition where
  | constant (value : Bool)
  | leaf (leaf : Leaf)
  | negation (inner : Proposition)
  | conjunction (parts : List Proposition)
  | disjunction (parts : List Proposition)

mutual

/-- The truth value of a proposition under a valuation of the leaves. -/
def Proposition.holds (valuation : Leaf → Bool) : Proposition → Bool
  | .constant value => value
  | .leaf leaf => valuation leaf
  | .negation inner => !inner.holds valuation
  | .conjunction parts => (partValues valuation parts).all id
  | .disjunction parts => (partValues valuation parts).any id

def partValues (valuation : Leaf → Bool) : List Proposition → List Bool
  | [] => []
  | part :: rest => part.holds valuation :: partValues valuation rest

end

theorem partValues_eq_map (valuation : Leaf → Bool) (parts : List Proposition) :
    partValues valuation parts = parts.map (Proposition.holds valuation) := by
  induction parts with
  | nil => rfl
  | cons part rest ih => rw [partValues, ih, List.map_cons]

/-- One absorbing value decides a list of truth values. -/
def decided (absorbing : Bool) (values : List Bool) : Bool :=
  if values.contains absorbing then absorbing else !absorbing

theorem decided_false (values : List Bool) : decided false values = values.all id := by
  induction values with
  | nil => rfl
  | cons value rest ih => cases value <;> simp_all [decided]

theorem decided_true (values : List Bool) : decided true values = values.any id := by
  induction values with
  | nil => rfl
  | cons value rest ih => cases value <;> simp_all [decided]

theorem Proposition.holds_conjunction (valuation : Leaf → Bool) (parts : List Proposition) :
    (Proposition.conjunction parts).holds valuation =
      decided false (parts.map (Proposition.holds valuation)) := by
  rw [holds, partValues_eq_map, decided_false]

theorem Proposition.holds_disjunction (valuation : Leaf → Bool) (parts : List Proposition) :
    (Proposition.disjunction parts).holds valuation =
      decided true (parts.map (Proposition.holds valuation)) := by
  rw [holds, partValues_eq_map, decided_true]

mutual

/-- A negated semijoin is the negation of its leaf. -/
def Formula.proposition : Formula → Proposition
  | .raw sql => .leaf (.raw sql)
  | .comparison comparison => .leaf (.comparison comparison)
  | .negation formula => .negation formula.proposition
  | .conjunction formulas => .conjunction (formulaPropositions formulas)
  | .disjunction formulas => .disjunction (formulaPropositions formulas)
  | .membership columns false statement => .leaf (.membership columns statement)
  | .membership columns true statement => .negation (.leaf (.membership columns statement))
  | .existence false statement => .leaf (.existence statement)
  | .existence true statement => .negation (.leaf (.existence statement))

def formulaPropositions : List Formula → List Proposition
  | [] => []
  | formula :: rest => formula.proposition :: formulaPropositions rest

end

mutual

/-- No connective stands without operands. -/
def Formula.Proper : Formula → Prop
  | .raw _ => True
  | .comparison _ => True
  | .membership _ _ _ => True
  | .existence _ _ => True
  | .negation formula => formula.Proper
  | .conjunction formulas => formulas ≠ [] ∧ AllProper formulas
  | .disjunction formulas => formulas ≠ [] ∧ AllProper formulas

def AllProper : List Formula → Prop
  | [] => True
  | formula :: rest => formula.Proper ∧ AllProper rest

end

theorem formulaPropositions_eq_map (formulas : List Formula) :
    formulaPropositions formulas = formulas.map Formula.proposition := by
  induction formulas with
  | nil => rfl
  | cons formula rest ih => rw [formulaPropositions, ih, List.map_cons]

theorem allProper_iff {formulas : List Formula} :
    AllProper formulas ↔ ∀ formula ∈ formulas, formula.Proper := by
  induction formulas with
  | nil => simp [AllProper]
  | cons formula rest ih => rw [AllProper, ih, List.forall_mem_cons]

def enclosed (text : String) : String := "(" ++ text ++ ")"

def Leaf.text (config : Config) : Leaf → String
  | .raw sql => escapeWith escapeMarker sql
  | .comparison equality => equality.text
  | .membership columns statement =>
      enclosed (quoteNames columns) ++ " IN " ++ enclosed (statement.text config)
  | .existence statement => "EXISTS " ++ enclosed (statement.text config)

/-- The texts of a proposition over the texts of its leaves.
Every operand of a connective stands between its own parentheses. -/
inductive Writes (config : Config) : Proposition → String → Prop where
  | leaf (leaf : Leaf) : Writes config (.leaf leaf) (leaf.text config)
  | notIn (columns : List String) (statement : Statement) :
      Writes config (.negation (.leaf (.membership columns statement)))
        (enclosed (quoteNames columns) ++ " NOT IN " ++ enclosed (statement.text config))
  | notExists (statement : Statement) :
      Writes config (.negation (.leaf (.existence statement)))
        ("NOT EXISTS " ++ enclosed (statement.text config))
  | negation {inner : Proposition} {text : String} (operand : Writes config inner text) :
      Writes config (.negation inner) ("NOT " ++ enclosed text)
  | conjunction {parts : List Proposition} {texts : List String} (some : parts ≠ [])
      (operands : List.Forall₂ (Writes config) parts texts) :
      Writes config (.conjunction parts) (" AND ".intercalate (texts.map enclosed))
  | disjunction {parts : List Proposition} {texts : List String} (some : parts ≠ [])
      (operands : List.Forall₂ (Writes config) parts texts) :
      Writes config (.disjunction parts) (" OR ".intercalate (texts.map enclosed))

/-- Parentheses at the separators and at both ends enclose every text. -/
theorem enclosed_intercalate (first : String) (rest : List String) (separator : String) :
    "(" ++ (")" ++ separator ++ "(").intercalate (first :: rest) ++ ")" =
      separator.intercalate ((first :: rest).map enclosed) := by
  induction rest generalizing first with
  | nil => simp [enclosed]
  | cons second rest ih =>
      rw [String.intercalate_cons_cons, List.map_cons, List.map_cons,
        String.intercalate_cons_cons, ← List.map_cons, ← ih]
      simp [enclosed, String.append_assoc]

theorem Formula.text_conjunction (config : Config) (formulas : List Formula)
    (some : formulas ≠ []) : (Formula.conjunction formulas).text config =
      " AND ".intercalate ((formulaTexts config formulas).map enclosed) := by
  obtain ⟨first, rest, rfl⟩ := List.exists_cons_of_ne_nil some
  rw [Formula.text, formulaTexts, ← enclosed_intercalate]
  rfl

theorem Formula.text_disjunction (config : Config) (formulas : List Formula)
    (some : formulas ≠ []) : (Formula.disjunction formulas).text config =
      " OR ".intercalate ((formulaTexts config formulas).map enclosed) := by
  obtain ⟨first, rest, rfl⟩ := List.exists_cons_of_ne_nil some
  rw [Formula.text, formulaTexts, ← enclosed_intercalate]
  rfl

theorem formulaPropositions_ne_nil {formulas : List Formula} (some : formulas ≠ []) :
    formulaPropositions formulas ≠ [] := by
  obtain ⟨first, rest, rfl⟩ := List.exists_cons_of_ne_nil some
  rw [formulaPropositions]
  exact List.cons_ne_nil _ _

mutual

/-- The text of a proper formula is one of its proposition. -/
theorem Formula.writes_text (config : Config) :
    ∀ {formula : Formula}, formula.Proper →
      Writes config formula.proposition (formula.text config)
  | .raw sql, _ => .leaf (.raw sql)
  | .comparison comparison, _ => .leaf (.comparison comparison)
  | .membership columns false statement, _ => by
      have text : (Formula.membership columns false statement).text config =
          (Leaf.membership columns statement).text config := by
        rw [Formula.text, ← String.toList_inj]
        simp [Leaf.text, enclosed, negationText]
      rw [Formula.proposition, text]
      exact .leaf _
  | .membership columns true statement, _ => by
      have text : (Formula.membership columns true statement).text config =
          enclosed (quoteNames columns) ++ " NOT IN " ++ enclosed (statement.text config) := by
        rw [Formula.text, ← String.toList_inj]
        simp [enclosed, negationText]
      rw [Formula.proposition, text]
      exact .notIn columns statement
  | .existence false statement, _ => by
      have text : (Formula.existence false statement).text config =
          (Leaf.existence statement).text config := by
        rw [Formula.text, ← String.toList_inj]
        simp [Leaf.text, enclosed, negationText]
      rw [Formula.proposition, text]
      exact .leaf _
  | .existence true statement, _ => by
      have text : (Formula.existence true statement).text config =
          "NOT EXISTS " ++ enclosed (statement.text config) := by
        rw [Formula.text, ← String.toList_inj]
        simp [enclosed, negationText]
      rw [Formula.proposition, text]
      exact .notExists statement
  | .negation formula, proper => by
      have text : (Formula.negation formula).text config =
          "NOT " ++ enclosed (formula.text config) := by
        rw [Formula.text, ← String.toList_inj]
        simp [enclosed]
      rw [Formula.Proper] at proper
      rw [Formula.proposition, text]
      exact .negation (Formula.writes_text config proper)
  | .conjunction formulas, proper => by
      rw [Formula.Proper] at proper
      rw [Formula.proposition, Formula.text_conjunction config formulas proper.1]
      exact .conjunction (formulaPropositions_ne_nil proper.1)
        (writes_formulaTexts config proper.2)
  | .disjunction formulas, proper => by
      rw [Formula.Proper] at proper
      rw [Formula.proposition, Formula.text_disjunction config formulas proper.1]
      exact .disjunction (formulaPropositions_ne_nil proper.1)
        (writes_formulaTexts config proper.2)

theorem writes_formulaTexts (config : Config) :
    ∀ {formulas : List Formula}, AllProper formulas →
      List.Forall₂ (Writes config) (formulaPropositions formulas) (formulaTexts config formulas)
  | [], _ => by
      rw [formulaPropositions, formulaTexts]
      exact .nil
  | formula :: rest, proper => by
      rw [AllProper] at proper
      rw [formulaPropositions, formulaTexts]
      exact .cons (Formula.writes_text config proper.1) (writes_formulaTexts config proper.2)

end

end QueryAlgebra
