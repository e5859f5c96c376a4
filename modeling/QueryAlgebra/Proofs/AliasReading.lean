/-
This file reads the aliases of a statement from left to right.
The text shows them in this order, and two numbers of one kind never have the same text.
-/
import QueryAlgebra.Proofs.AliasShift
import QueryAlgebra.Statement.Text

namespace QueryAlgebra

mutual

/-- The aliases of the derived tables inside a formula, in the order of the text. -/
def Formula.aliases : Formula → List Alias
  | .raw _ | .comparison _ => []
  | .negation formula => formula.aliases
  | .conjunction formulas | .disjunction formulas => formulaAliases formulas
  | .membership _ _ statement | .existence _ statement => statement.aliases

def formulaAliases : List Formula → List Alias
  | [] => []
  | formula :: rest => formula.aliases ++ formulaAliases rest

def Condition.aliases : Condition → List Alias
  | .constant _ => []
  | .formula inner => inner.aliases

/-- The name of a derived table follows the statement that it stands for. -/
def Relation.aliases : Relation → List Alias
  | .table _ => []
  | .join left right _ => left.aliases ++ right.aliases
  | .derived statement name => statement.aliases ++ [name]
  | .union left right name => left.aliases ++ right.aliases ++ [name]

def Statement.aliases : Statement → List Alias
  | ⟨_, _, origin, filter, _, groupFilter⟩ =>
      origin.aliases ++ filter.aliases ++ groupFilter.aliases

end

theorem formulaAliases_eq_flatMap (formulas : List Formula) :
    formulaAliases formulas = formulas.flatMap Formula.aliases := by
  induction formulas with
  | nil => rfl
  | cons formula rest ih => rw [formulaAliases, ih, List.flatMap_cons]

theorem Formula.aliases_negatedWhen (negated : Bool) (formula : Formula) :
    (Formula.negatedWhen negated formula).aliases = formula.aliases := by
  cases negated
  · rfl
  · simp [Formula.negatedWhen, Formula.aliases]

/-- A text shows aliases from left to right, each after the one before it. -/
def Shows (config : Config) : List Alias → String → Prop
  | [], _ => True
  | first :: rest, text =>
      ∃ before after, text = before ++ first.text config ++ after ∧ Shows config rest after

section Showing

variable {config : Config} {aliases others : List Alias} {text other : String}

theorem Shows.prepend (shows : Shows config aliases text) (before : String) :
    Shows config aliases (before ++ text) := by
  cases aliases with
  | nil => trivial
  | cons first rest =>
      obtain ⟨start, after, rfl, later⟩ := shows
      exact ⟨before ++ start, after, by simp only [String.append_assoc], later⟩

/-- What a text shows is followed by what a later text shows. -/
theorem Shows.append (shows : Shows config aliases text) (later : Shows config others other) :
    Shows config (aliases ++ others) (text ++ other) := by
  induction aliases generalizing text with
  | nil => exact later.prepend text
  | cons first rest ih =>
      obtain ⟨start, after, rfl, below⟩ := shows
      exact ⟨start, after ++ other, by simp only [String.append_assoc], ih below⟩

theorem Shows.followed (shows : Shows config aliases text) (after : String) :
    Shows config aliases (text ++ after) := by
  have whole := shows.append (show Shows config [] after from trivial)
  rwa [List.append_nil] at whole

theorem Shows.name (config : Config) (derived : Alias) :
    Shows config [derived] (derived.text config) :=
  ⟨"", "", by simp, trivial⟩

end Showing

mutual

/-- The text of a formula shows its aliases in reading order. -/
theorem Formula.shows_text (config : Config) :
    ∀ formula : Formula, Shows config formula.aliases (formula.text config)
  | .raw _ | .comparison _ => by
      rw [Formula.aliases]
      trivial
  | .negation formula => by
      rw [Formula.aliases, Formula.text]
      exact ((formula.shows_text config).prepend _).followed _
  | .conjunction formulas | .disjunction formulas => by
      rw [Formula.aliases, Formula.text]
      exact ((shows_formulaTexts config _ formulas).prepend _).followed _
  | .membership _ _ statement => by
      rw [Formula.aliases, Formula.text]
      exact ((statement.shows_text config).prepend _).followed _
  | .existence _ statement => by
      rw [Formula.aliases, Formula.text]
      exact ((statement.shows_text config).prepend _).followed _

theorem shows_formulaTexts (config : Config) (separator : String) :
    ∀ formulas : List Formula, Shows config (formulaAliases formulas)
      (separator.intercalate (formulaTexts config formulas))
  | [] => by
      rw [formulaAliases]
      trivial
  | [formula] => by
      rw [formulaAliases, formulaAliases, List.append_nil, formulaTexts, formulaTexts,
        String.intercalate_singleton]
      exact formula.shows_text config
  | first :: second :: rest => by
      rw [formulaAliases, formulaTexts, formulaTexts, String.intercalate_cons_cons,
        ← formulaTexts]
      exact ((first.shows_text config).followed separator).append
        (shows_formulaTexts config separator (second :: rest))

theorem Condition.shows_clause (config : Config) (keyword : String) :
    ∀ condition : Condition, Shows config condition.aliases (condition.clause config keyword)
  | .constant value => by
      rw [Condition.aliases]
      trivial
  | .formula inner => by
      rw [Condition.aliases, Condition.clause]
      exact (inner.shows_text config).prepend _

theorem Relation.shows_text (config : Config) :
    ∀ relation : Relation, Shows config relation.aliases (relation.text config)
  | .table _ => by
      rw [Relation.aliases]
      trivial
  | .join left right keepAll => by
      rw [Relation.aliases, Relation.text]
      refine ((left.shows_text config).followed _).append ?_
      split
      · exact ((right.shows_text config).prepend _).followed _
      · exact right.shows_text config
  | .derived statement name => by
      rw [Relation.aliases, Relation.text]
      exact (((statement.shows_text config).prepend _).followed _).append (.name config name)
  | .union left right name => by
      rw [Relation.aliases, Relation.text]
      exact (((((left.shows_text config).prepend _).followed _).append
        (right.shows_text config)).followed _).append (.name config name)

/-- The text of a statement shows its aliases in reading order. -/
theorem Statement.shows_text (config : Config) :
    ∀ statement : Statement, Shows config statement.aliases (statement.text config)
  | ⟨_, _, origin, filter, _, groupFilter⟩ => by
      rw [Statement.aliases, Statement.text]
      exact ((((origin.shows_text config).prepend _).append
        (filter.shows_clause config "WHERE")).followed _).append
          (groupFilter.shows_clause config "HAVING")

end

/-- Two numbers never have the same hexadecimal digits. -/
theorem hexadecimal_injective : Function.Injective (Nat.toDigits 16) := by
  have digit : ∀ first < 16, ∀ second < 16,
      Nat.digitChar first = Nat.digitChar second → first = second := by decide
  intro first
  induction first using Nat.strongRecOn with
  | ind first ih =>
      intro second same
      rw [Nat.toDigits_eq_if (by decide), Nat.toDigits_eq_if (n := second) (by decide)] at same
      split at same <;> split at same
      · rename_i small little
        exact digit first small second little (List.cons.inj same).1
      · have lengths := congrArg List.length same
        simp at lengths
      · have lengths := congrArg List.length same
        simp at lengths
      · obtain ⟨front, last⟩ := List.append_inj' same rfl
        have quotients := ih (first / 16) (by omega) front
        have remainders := digit _ (Nat.mod_lt _ (by decide)) _ (Nat.mod_lt _ (by decide))
          (List.cons.inj last).1
        omega

/-- Under one label an alias is known by its number. -/
theorem Alias.number_of_text {config other : Config} {first second : Alias}
    (kinds : first.kind = second.kind) (labels : config.label first.kind = other.label first.kind)
    (same : first.text config = second.text other) : first.number = second.number := by
  unfold Alias.text at same
  rw [← kinds, ← labels] at same
  have characters := congrArg String.toList same
  simp only [String.toList_append, String.toList_ofList, List.append_assoc] at characters
  have digits := List.append_cancel_right
    (List.append_cancel_left (List.append_cancel_left characters))
  exact hexadecimal_injective digits

end QueryAlgebra
