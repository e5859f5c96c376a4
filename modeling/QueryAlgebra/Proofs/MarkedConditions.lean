/-
This file shows which conditions survive the stage that fills placeholders. Percent signs are
doubled in raw SQL and in quoted values, and those in document paths are left as they are.
-/
import QueryAlgebra.Proofs.BooleanReading
import QueryAlgebra.Proofs.HeadingMembers
import QueryAlgebra.Proofs.LeafCompilation
import QueryAlgebra.Proofs.MarkerRuns

namespace QueryAlgebra

mutual

/-- The comparisons inside a formula. -/
def Formula.comparisons : Formula → List Comparison
  | .comparison comparison => [comparison]
  | .negation formula => formula.comparisons
  | .conjunction formulas => comparisonsOfAll formulas
  | .disjunction formulas => comparisonsOfAll formulas
  | .raw _ | .membership _ _ _ | .existence _ _ => []

def comparisonsOfAll : List Formula → List Comparison
  | [] => []
  | formula :: rest => formula.comparisons ++ comparisonsOfAll rest

end

mutual

/-- No statement stands inside the formula. -/
def Formula.Local : Formula → Prop
  | .raw _ | .comparison _ => True
  | .negation formula => formula.Local
  | .conjunction formulas => AllLocal formulas
  | .disjunction formulas => AllLocal formulas
  | .membership _ _ _ | .existence _ _ => False

def AllLocal : List Formula → Prop
  | [] => True
  | formula :: rest => formula.Local ∧ AllLocal rest

end

theorem mem_comparisonsOfAll {formulas : List Formula} {comparison : Comparison} :
    comparison ∈ comparisonsOfAll formulas ↔
      ∃ formula ∈ formulas, comparison ∈ formula.comparisons := by
  induction formulas with
  | nil => simp [comparisonsOfAll]
  | cons formula rest ih => simp [comparisonsOfAll, ih]

theorem allLocal_iff {formulas : List Formula} :
    AllLocal formulas ↔ ∀ formula ∈ formulas, formula.Local := by
  induction formulas with
  | nil => simp [AllLocal]
  | cons formula rest ih => rw [AllLocal, ih, List.forall_mem_cons]

/-- The place inside a document that a comparison leads to. -/
def Comparison.place? (comparison : Comparison) : Option (List Char) :=
  match comparison.operand with
  | .column _ => none
  | .path _ place => some place.toList

def Formula.places (formula : Formula) : List (List Char) :=
  formula.comparisons.filterMap Comparison.place?

/-- The right side of a comparison before percent signs are doubled. -/
def Comparand.original : Comparand → String
  | .doubleQuoted text => "=\"" ++ escapeWith (unmarked escapeDouble) text ++ "\""
  | .singleQuoted text => "='" ++ escapeWith (unmarked escapeSingle) text ++ "'"
  | comparand => comparand.text

def Comparison.original (comparison : Comparison) : String :=
  comparison.operand.text ++ comparison.comparand.original

mutual

/-- The text of a formula before percent signs are doubled, without that of statements. -/
def Formula.original : Formula → String
  | .raw sql => sql
  | .comparison comparison => comparison.original
  | .negation formula => "NOT (" ++ formula.original ++ ")"
  | .conjunction formulas => "(" ++ ") AND (".intercalate (originals formulas) ++ ")"
  | .disjunction formulas => "(" ++ ") OR (".intercalate (originals formulas) ++ ")"
  | .membership _ _ _ | .existence _ _ => ""

def originals : List Formula → List String
  | [] => []
  | formula :: rest => formula.original :: originals rest

end

/-- The attribute that the left side of a comparison names. -/
def Operand.name : Operand → String
  | .column name | .path name _ => name

/-- Neither the name of the attribute nor a bare value has a percent sign. -/
structure Comparison.Plain (comparison : Comparison) : Prop where
  name : '%' ∉ comparison.operand.name.toList
  value : ∀ text, comparison.comparand = .bare text → '%' ∉ text.toList

theorem Operand.marked (operand : Operand) (plain : '%' ∉ operand.name.toList)
    (comparand : Comparand) :
    Marked operand.text.toList operand.text.toList
      (Comparison.mk operand comparand).place?.toList := by
  cases operand with
  | column name =>
      refine .fixed ?_
      rw [text, quoteName, String.toList_append, String.toList_append, List.mem_append,
        List.mem_append, not_or, not_or]
      exact ⟨⟨by decide, plain⟩, by decide⟩
  | path name place =>
      rw [text, String.toList_append, String.toList_append, toList_escapeWith]
      refine Marked.before (.after (.path place.toList) ?_) (by decide)
      simp only [quoteName, String.toList_append, List.mem_append, not_or]
      exact ⟨⟨by decide, ⟨by decide, plain⟩, by decide⟩, by decide⟩

theorem Uuid.marker_not_mem_hexDigits (uuid : Uuid) : '%' ∉ uuid.hexDigits := by
  have plain : ∀ digit < 16, Nat.digitChar digit ≠ '%' := by decide
  simp [hexDigits, plain _ (Nat.mod_lt _ (by decide))]

/-- A comparand starts with a sign of its own and escapes what follows. -/
theorem Comparand.marked (comparand : Comparand)
    (plain : ∀ text, comparand = .bare text → '%' ∉ text.toList) :
    ∃ c rest original, c ≠ '%' ∧ comparand.text.toList = c :: rest ∧
      comparand.original.toList = c :: original ∧ Marked rest original [] := by
  cases comparand with
  | absent => exact ⟨' ', _, _, by decide, rfl, rfl, .fixed (by decide)⟩
  | bare text =>
      refine ⟨'=', text.toList, text.toList, by decide, ?_, ?_, .fixed (plain text rfl)⟩
      all_goals simp [Comparand.text, original]
  | bytes uuid =>
      have fixed : '%' ∉ "X'".toList ++ uuid.hexDigits ++ "'".toList := by
        simp [uuid.marker_not_mem_hexDigits]
      refine ⟨'=', _, _, by decide, ?_, ?_, .fixed fixed⟩
      · simp [Comparand.text, Uuid.hexText]
      · simp [Comparand.text, original, Uuid.hexText]
  | doubleQuoted text =>
      have quote : '%' ∉ "\"".toList := by decide
      refine ⟨'=', _, _, by decide, ?_, ?_, Marked.before
        (.after (.escaped doubles_escapeDouble text.toList) quote) quote⟩
      · simp [Comparand.text, quoteDouble_eq, toList_escapeWith]
      · simp [original, toList_escapeWith]
  | singleQuoted text =>
      have quote : '%' ∉ "'".toList := by decide
      refine ⟨'=', _, _, by decide, ?_, ?_, Marked.before
        (.after (.escaped doubles_escapeSingle text.toList) quote) quote⟩
      · simp [Comparand.text, quoteSingle_eq, toList_escapeWith]
      · simp [original, toList_escapeWith]

theorem Comparison.marked (comparison : Comparison) (plain : comparison.Plain) :
    Marked comparison.text.toList comparison.original.toList comparison.place?.toList := by
  obtain ⟨c, rest, original, other, text, same, marked⟩ :=
    comparison.comparand.marked plain.value
  have whole := (comparison.operand.marked plain.name comparison.comparand).split marked other
  rw [Comparison.text, Comparison.original, String.toList_append, String.toList_append, text, same]
  rwa [List.append_nil] at whole

mutual

/-- The text of a formula stands for its original, and only document paths are not escaped. -/
theorem Formula.marked (config : Config) : ∀ formula : Formula, formula.Local →
    (∀ comparison ∈ formula.comparisons, comparison.Plain) →
      Marked (formula.text config).toList formula.original.toList formula.places
  | .raw sql => by
      intro _ _
      rw [Formula.text, Formula.original, toList_escapeWith]
      have escaped := Marked.escaped doubles_escapeMarker sql.toList
      rwa [List.flatMap_singleton'] at escaped
  | .comparison comparison => by
      intro _ plain
      rw [Formula.comparisons, List.forall_mem_singleton] at plain
      rw [Formula.text, Formula.original, Formula.places, Formula.comparisons,
        List.filterMap_eq_flatMap_toList, List.flatMap_singleton]
      exact comparison.marked plain
  | .negation formula => by
      intro own plain
      rw [Formula.Local] at own
      rw [Formula.comparisons] at plain
      rw [Formula.text, Formula.original, Formula.places, Formula.comparisons]
      simp only [String.toList_append]
      exact .before (.after (formula.marked config own plain) (by decide)) (by decide)
  | .conjunction formulas => by
      intro own plain
      rw [Formula.Local] at own
      rw [Formula.comparisons] at plain
      rw [Formula.text, Formula.original, Formula.places, Formula.comparisons]
      simp only [String.toList_append]
      exact .before (.after (marked_formulaTexts config formulas own plain (by decide)
        (by decide)) (by decide)) (by decide)
  | .disjunction formulas => by
      intro own plain
      rw [Formula.Local] at own
      rw [Formula.comparisons] at plain
      rw [Formula.text, Formula.original, Formula.places, Formula.comparisons]
      simp only [String.toList_append]
      exact .before (.after (marked_formulaTexts config formulas own plain (by decide)
        (by decide)) (by decide)) (by decide)
  | .membership _ _ _ => by
      intro own
      rw [Formula.Local] at own
      contradiction
  | .existence _ _ => by
      intro own
      rw [Formula.Local] at own
      contradiction

theorem marked_formulaTexts (config : Config) : ∀ formulas : List Formula, AllLocal formulas →
    (∀ comparison ∈ comparisonsOfAll formulas, comparison.Plain) → ∀ {separator : String},
      separator.toList ≠ [] → '%' ∉ separator.toList →
        Marked (separator.intercalate (formulaTexts config formulas)).toList
          (separator.intercalate (originals formulas)).toList
          ((comparisonsOfAll formulas).filterMap Comparison.place?)
  | [] => by
      intro _ _ separator _ _
      exact .fixed (by simp [formulaTexts])
  | [formula] => by
      intro own plain separator _ _
      rw [comparisonsOfAll, comparisonsOfAll, List.append_nil] at plain ⊢
      rw [formulaTexts, formulaTexts, originals, originals, String.intercalate_singleton,
        String.intercalate_singleton]
      exact formula.marked config own.1 plain
  | formula :: second :: rest => by
      intro own plain separator some fixed
      rw [comparisonsOfAll, List.forall_mem_append] at plain
      have first := formula.marked config own.1 plain.1
      have others := marked_formulaTexts config (second :: rest) own.2 plain.2 some fixed
      rw [comparisonsOfAll, List.filterMap_append, formulaTexts, originals]
      rw [formulaTexts, originals] at others ⊢
      rw [String.intercalate_cons_cons, String.intercalate_cons_cons]
      simp only [String.toList_append] at others ⊢
      exact first.joined others some fixed

end

theorem marker_not_mem_toDigits (n : Nat) : '%' ∉ Nat.toDigits 10 n := fun inside =>
  absurd (Nat.isDigit_of_mem_toDigits (by decide) (by decide) inside) (by decide)

theorem marker_not_mem_repr (n : Nat) : '%' ∉ n.repr.toList := by
  rw [Nat.repr, String.toList_ofList]
  exact marker_not_mem_toDigits n

theorem marker_not_mem_zeros (count : Nat) : '%' ∉ (zeros count).toList := by
  rw [zeros, String.toList_ofList, List.mem_replicate]
  rintro ⟨_, other⟩
  contradiction

theorem NumberLayout.marker_not_mem_positionalText (layout : NumberLayout) {digits : List Char}
    (plain : '%' ∉ digits) (point : Int) :
    '%' ∉ (layout.positionalText digits point).toList := by
  have taken : '%' ∉ digits.take point.toNat := fun inside => plain (List.mem_of_mem_take inside)
  have left : '%' ∉ digits.drop point.toNat := fun inside => plain (List.mem_of_mem_drop inside)
  unfold positionalText
  split
  · split <;> simp [plain, marker_not_mem_zeros]
  · split <;> simp [plain, taken, left, marker_not_mem_zeros]

/-- Numbers and truth values are written without percent signs. -/
theorem Literal.marker_not_mem_of_bare {value : Literal} {text : String}
    (bare : value.comparand = .bare text) : '%' ∉ text.toList := by
  cases value with
  | bool value =>
      cases value
      · cases bare
        decide
      · cases bare
        decide
  | int value =>
      cases bare
      cases value with
      | ofNat n => exact marker_not_mem_repr n
      | negSucc n =>
          show '%' ∉ ("-" ++ (n + 1).repr).toList
          rw [String.toList_append, List.mem_append, not_or]
          exact ⟨by decide, marker_not_mem_repr (n + 1)⟩
  | float value =>
      cases bare
      rw [Literal.text, NumberLayout.text, String.toList_append, List.mem_append, not_or]
      refine ⟨by split <;> decide, ?_⟩
      rw [if_pos (show literalLayout.positional _ = true from rfl)]
      exact literalLayout.marker_not_mem_positionalText (marker_not_mem_toDigits _) _
  | _ => contradiction

/-- The right side of a comparison is bare only for a value that is written bare. -/
theorem Attribute.bare_of_comparand? {attr : Attribute} {path : Option String} {value : Literal}
    {text : String} (compared : attr.comparand? path value = .ok (.bare text)) :
    value.comparand = .bare text := by
  unfold comparand? at compared
  split at compared
  · cases compared
  · split at compared
    · cases compared
    · split at compared
      · unfold uuidComparand? at compared
        split at compared
        · cases compared
        · split at compared <;> cases compared
        · cases compared
      · exact Except.ok.inj compared

/-- A comparison is made of what the attribute of its key gives for each side. -/
theorem Heading.compare?_eq_ok {heading : Heading} {key : String} {value : Literal}
    {comparison : Comparison} :
    heading.compare? key value = .ok comparison ↔
      ∃ attr, heading.get? (splitPath key).1 = some attr ∧
        attr.operand? (splitPath key).2 = .ok comparison.operand ∧
        attr.comparand? (splitPath key).2 value = .ok comparison.comparand := by
  unfold compare?
  cases heading.get? (splitPath key).1 with
  | none => simp
  | some attr =>
      simp only [Option.some.injEq, exists_eq_left']
      cases attr.operand? (splitPath key).2 with
      | error fault => simp [Bind.bind, Except.bind]
      | ok operand =>
          cases attr.comparand? (splitPath key).2 value with
          | error fault => simp [Bind.bind, Except.bind]
          | ok comparand =>
              obtain ⟨left, right⟩ := comparison
              simp [Bind.bind, Except.bind, Pure.pure, Except.pure]

/-- The left side of a comparison names the attribute and keeps the path of the key. -/
theorem Attribute.operand?_eq_ok {attr : Attribute} {path : Option String} {operand : Operand}
    (named : attr.operand? path = .ok operand) :
    operand = path.elim (.column attr.name) (.path attr.name) := by
  cases path with
  | none => exact (Except.ok.inj named).symm
  | some place =>
      rw [operand?] at named
      split at named
      · exact (Except.ok.inj named).symm
      · cases named

section Compared

variable {heading : Heading} {key : String} {value : Literal} {comparison : Comparison}

/-- A comparison with an attribute of a heading escapes everything but the document path. -/
theorem Comparison.plain_of_compare? (plain : ∀ name ∈ heading.names, '%' ∉ name.toList)
    (compared : heading.compare? key value = .ok comparison) : comparison.Plain := by
  obtain ⟨attr, found, named, given⟩ := Heading.compare?_eq_ok.1 compared
  constructor
  · have shown : attr.name ∈ heading.names :=
      Heading.mem_names.2 ⟨attr, (Heading.get?_eq_some.1 found).1, rfl⟩
    rw [Attribute.operand?_eq_ok named]
    cases (splitPath key).2 <;> exact plain attr.name shown
  · intro text bare
    exact Literal.marker_not_mem_of_bare (Attribute.bare_of_comparand? (bare ▸ given))

/-- The place of a comparison is the path of its key. -/
theorem Comparison.place?_of_compare? (compared : heading.compare? key value = .ok comparison) :
    comparison.place? = (splitPath key).2.map String.toList := by
  obtain ⟨attr, _, named, _⟩ := Heading.compare?_eq_ok.1 compared
  rw [place?, Attribute.operand?_eq_ok named]
  cases (splitPath key).2 <;> rfl

end Compared

/-- The keys and values that a leaf compares attributes with. -/
def Restriction.leafPairs : Restriction → List (String × Literal)
  | .mapping pairs => pairs
  | .record members => members.map fun member => (member.1, Literal.ofDocument member.2)
  | _ => []

/-- The keys and values inside a restriction. -/
def Restriction.pairs (restriction : Restriction) : List (String × Literal) :=
  restriction.leaves.flatMap leafPairs

/-- A formula without statements whose comparisons are those of the given pairs. -/
structure Formula.Compares (heading : Heading) (pairs : List (String × Literal))
    (formula : Formula) : Prop where
  own : formula.Local
  compared : ∀ comparison ∈ formula.comparisons,
    ∃ pair ∈ pairs, heading.compare? pair.1 pair.2 = .ok comparison

def Condition.Compares (heading : Heading) (pairs : List (String × Literal)) : Condition → Prop
  | .constant _ => True
  | .formula inner => inner.Compares heading pairs

section Combining

variable {heading : Heading} {pairs more : List (String × Literal)}

theorem Condition.Compares.mono {condition : Condition}
    (compares : condition.Compares heading pairs) (subset : pairs ⊆ more) : condition.Compares heading more := by
  cases condition with
  | constant value => trivial
  | formula formula =>
      refine ⟨compares.own, fun comparison inside => ?_⟩
      obtain ⟨pair, given, compared⟩ := compares.compared comparison inside
      exact ⟨pair, subset given, compared⟩

theorem Formula.Compares.negatedWhen {formula : Formula} (compares : formula.Compares heading pairs)
    (negated : Bool) : (Formula.negatedWhen negated formula).Compares heading pairs := by
  cases negated
  · exact compares
  · constructor
    · rw [Formula.negatedWhen, if_pos rfl, Formula.Local]
      exact compares.own
    · rw [Formula.negatedWhen, if_pos rfl, Formula.comparisons]
      exact compares.compared

/-- A list of formulas holds what its members hold. -/
theorem Formula.Compares.connected {connective : List Formula → Formula}
    (locals : ∀ formulas, (connective formulas).Local ↔ AllLocal formulas)
    (members : ∀ formulas, (connective formulas).comparisons = comparisonsOfAll formulas)
    {formulas : List Formula} (compare : ∀ formula ∈ formulas, formula.Compares heading pairs) :
    (connective formulas).Compares heading pairs := by
  constructor
  · rw [locals, allLocal_iff]
    exact fun formula inside => (compare formula inside).own
  · rw [members]
    intro comparison inside
    obtain ⟨formula, listed, inside⟩ := mem_comparisonsOfAll.1 inside
    exact (compare formula listed).compared comparison inside

theorem Formula.Compares.conjunction {formulas : List Formula}
    (compare : ∀ formula ∈ formulas, formula.Compares heading pairs) :
    (Formula.conjunction formulas).Compares heading pairs :=
  connected (fun _ => by rw [Formula.Local]) (fun _ => by rw [Formula.comparisons]) compare

theorem Formula.Compares.disjunction {formulas : List Formula}
    (compare : ∀ formula ∈ formulas, formula.Compares heading pairs) :
    (Formula.disjunction formulas).Compares heading pairs :=
  connected (fun _ => by rw [Formula.Local]) (fun _ => by rw [Formula.comparisons]) compare

/-- A combination of conditions compares what its members compare. -/
theorem Condition.compares_combine {absorbing negated : Bool}
    {connective : List Formula → Formula} {conditions : List Condition}
    (connected : ∀ formulas, (∀ formula ∈ formulas, formula.Compares heading pairs) →
      (connective formulas).Compares heading pairs)
    (compare : ∀ condition ∈ conditions, condition.Compares heading pairs) :
    (Condition.combine absorbing connective negated conditions).Compares heading pairs := by
  unfold Condition.combine
  split
  · trivial
  · split
    · trivial
    · exact (connected _ fun formula inside =>
        compare _ (Condition.mem_formulas.1 inside)).negatedWhen negated

theorem Formula.compares_comparison {comparison : Comparison} {pair : String × Literal}
    (given : pair ∈ pairs) (compared : heading.compare? pair.1 pair.2 = .ok comparison) :
    (Formula.comparison comparison).Compares heading pairs := by
  constructor
  · rw [Formula.Local]
    trivial
  · rw [Formula.comparisons, List.forall_mem_singleton]
    exact ⟨pair, given, compared⟩

/-- A compiled mapping makes the comparisons of its pairs. -/
theorem Scope.compare_compares {scope : Scope} {negated : Bool} {compiled : Compiled}
    (compared : scope.compare negated pairs = .ok compiled) :
    compiled.condition.Compares scope.heading pairs := by
  obtain ⟨comparisons, made, rfl⟩ := Scope.compare_eq_ok.1 compared
  cases comparisons with
  | nil => trivial
  | cons first rest =>
      refine (Formula.Compares.conjunction fun formula inside => ?_).negatedWhen negated
      obtain ⟨comparison, listed, rfl⟩ := List.mem_map.1 inside
      obtain ⟨pair, given, compared⟩ := (mem_of_mapM made).1 listed
      exact Formula.compares_comparison (List.mem_filter.1 given).1 compared

end Combining

mutual

/-- Without partners a condition consists of raw SQL and the comparisons of its pairs. -/
theorem Restriction.compile_compares (scope : Scope) : ∀ restriction : Restriction,
    restriction.partners = [] → ∀ {negated : Bool} {count later : AliasCount}
      {compiled : Compiled}, (restriction.compile scope negated).Yields count compiled later →
        compiled.condition.Compares scope.heading restriction.pairs
  | .constant value => by
      intro _ negated count later compiled yields
      rw [Restriction.compile, Rendering.yields_pure] at yields
      exact yields.1 ▸ trivial
  | .universal set => by
      intro _ negated count later compiled yields
      rw [Restriction.compile, Rendering.yields_pure] at yields
      exact yields.1 ▸ trivial
  | .raw sql => by
      intro _ negated count later compiled yields
      rw [Restriction.compile, Rendering.yields_ofExcept] at yields
      obtain ⟨_, rfl⟩ := compileRaw_eq_ok.1 yields.1
      refine Formula.Compares.negatedWhen ⟨?_, ?_⟩ negated
      · rw [Formula.Local]
        trivial
      · rw [Formula.comparisons]
        simp
  | .mapping pairs => by
      intro _ negated count later compiled yields
      rw [Restriction.compile, Rendering.yields_ofExcept] at yields
      rw [Restriction.pairs, Restriction.leaves, List.flatMap_singleton]
      exact Scope.compare_compares yields.1
  | .record members => by
      intro _ negated count later compiled yields
      rw [Restriction.compile, Rendering.yields_ofExcept] at yields
      rw [Restriction.pairs, Restriction.leaves, List.flatMap_singleton]
      exact Scope.compare_compares yields.1
  | .semijoin partner checked => by
      intro alone
      rw [Restriction.partners] at alone
      contradiction
  | .negation restriction => by
      intro alone negated count later compiled yields
      rw [Restriction.partners] at alone
      rw [Restriction.compile] at yields
      rw [Restriction.pairs, Restriction.leaves]
      exact restriction.compile_compares scope alone yields
  | .disjunction items => by
      intro alone negated count later compiled yields
      rw [Restriction.partners] at alone
      obtain ⟨parts, inside, rfl⟩ := Restriction.yields_disjunction.1 yields
      rw [Restriction.pairs, Restriction.leaves, Condition.disjunction_eq_combine]
      refine Condition.compares_combine (fun _ => .disjunction) fun condition listed => ?_
      obtain ⟨part, member, rfl⟩ := List.mem_map.1 listed
      exact compileAll_compares scope items alone inside part member
  | .conjunction items => by
      intro alone negated count later compiled yields
      rw [Restriction.partners] at alone
      obtain ⟨parts, inside, rfl⟩ := Restriction.yields_conjunction.1 yields
      rw [Restriction.pairs, Restriction.leaves, Condition.conjunction_eq_combine]
      refine Condition.compares_combine (fun _ => .conjunction) fun condition listed => ?_
      obtain ⟨part, member, rfl⟩ := List.mem_map.1 listed
      exact compileAll_compares scope items alone inside part member

theorem compileAll_compares (scope : Scope) : ∀ items : List Restriction,
    partnersOfAll items = [] → ∀ {count later : AliasCount} {parts : List Compiled},
      (compileAll scope items).Yields count parts later →
        ∀ part ∈ parts, part.condition.Compares scope.heading
          ((leavesOfAll items).flatMap Restriction.leafPairs)
  | [] => by
      intro _ count later parts yields
      rw [compileAll, Rendering.yields_pure] at yields
      obtain ⟨rfl, _⟩ := yields
      simp
  | first :: rest => by
      intro alone count later parts yields
      rw [partnersOfAll, List.append_eq_nil_iff] at alone
      obtain ⟨part, between, others, start, run, rfl⟩ := yields_compileAll_cons.1 yields
      rw [leavesOfAll, List.flatMap_append, List.forall_mem_cons]
      constructor
      · exact (first.compile_compares scope alone.1 start).mono (List.subset_append_left _ _)
      · intro other listed
        exact (compileAll_compares scope rest alone.2 run other listed).mono
          (List.subset_append_right _ _)

end

/-- A condition without partners survives the filling of placeholders exactly when the document
paths in it do, and is restored exactly when no document path in it has a percent sign. -/
theorem Restriction.fillable_iff (config : Config) {scope : Scope} {restriction : Restriction}
    (alone : restriction.partners = [])
    (unmarked : ∀ name ∈ scope.heading.names, '%' ∉ name.toList)
    {negated : Bool} {count later : AliasCount} {formula : Formula} {columns : NameSet}
    (yields : (restriction.compile scope negated).Yields count ⟨.formula formula, columns⟩ later) :
    (EvenRuns (formula.text config).toList ↔ ∀ place ∈ formula.places, EvenRuns place) ∧
      (fillMarkers? (formula.text config).toList = some formula.original.toList ↔
        ∀ place ∈ formula.places, '%' ∉ place) ∧
      ∀ place ∈ formula.places,
        ∃ pair ∈ restriction.pairs, (splitPath pair.1).2 = some (String.ofList place) := by
  obtain ⟨own, compared⟩ := restriction.compile_compares scope alone yields
  have marked := formula.marked config own fun comparison inside => by
    obtain ⟨pair, _, made⟩ := compared comparison inside
    exact Comparison.plain_of_compare? unmarked made
  refine ⟨marked.evenRuns_iff, marked.restored_iff, fun place listed => ?_⟩
  obtain ⟨comparison, inside, leads⟩ := List.mem_filterMap.1 listed
  obtain ⟨pair, given, made⟩ := compared comparison inside
  rw [Comparison.place?_of_compare? made, Option.map_eq_some_iff] at leads
  obtain ⟨path, split, rfl⟩ := leads
  exact ⟨pair, given, by rw [split, String.ofList_toList]⟩

/-- Runs of an experiment keep their parameters in a document. -/
def runHeading : Heading where
  attributes := [{ Attribute.plain "run_id" .int with inKey := true },
    Attribute.plain "params" .json]
  nodup := by decide
  visibleKey := by decide
  keyFirst := by decide

def runScope : Scope := ⟨runHeading, laboratory, true⟩

def rateRestriction : Restriction :=
  .negation (.conjunction [.raw "run_id % 2 = 0", .mapping [("params.rate", .string "50%")]])

/-- Raw SQL and a quoted value with percent signs are restored, and the path has none. -/
theorem Restriction.fillable_of_rate :
    ∃ formula columns,
      rateRestriction.partners = [] ∧
      (∀ name ∈ runScope.heading.names, '%' ∉ name.toList) ∧
      (rateRestriction.compile runScope false).Yields AliasCount.zero
        ⟨.formula formula, columns⟩ AliasCount.zero ∧
      formula.places = ["rate".toList] ∧
      EvenRuns (formula.text Config.strict).toList ∧
      fillMarkers? (formula.text Config.strict).toList = some formula.original.toList ∧
      formula.original =
        "NOT ((run_id % 2 = 0) AND ((JSON_VALUE(`params`, '$.rate')=\"50%\")))" := by
  have alone : rateRestriction.partners = [] := by
    simp [rateRestriction, Restriction.partners, partnersOfAll]
  have unmarked : ∀ name ∈ runScope.heading.names, '%' ∉ name.toList := by decide
  obtain ⟨formula, columns, yields, shape⟩ : ∃ formula columns,
      (rateRestriction.compile runScope false).Yields AliasCount.zero
        ⟨.formula formula, columns⟩ AliasCount.zero ∧
      formula.places = ["rate".toList] ∧
      formula.original =
        "NOT ((run_id % 2 = 0) AND ((JSON_VALUE(`params`, '$.rate')=\"50%\")))" :=
    ⟨_, _, rfl, by decide +kernel, by decide +kernel⟩
  obtain ⟨places, original⟩ := shape
  obtain ⟨even, restored, _⟩ := fillable_iff Config.strict alone unmarked yields
  rw [places, List.forall_mem_singleton] at even restored
  have rate : '%' ∉ "rate".toList := by decide
  refine ⟨formula, columns, alone, unmarked, yields, places, ?_, restored.2 rate, original⟩
  exact even.2 ((isSome_fillMarkers?_iff _).1 (by decide))

/-- A percent sign in a document path stays single, and placeholders cannot be filled. -/
theorem Restriction.odd_run_of_path :
    ∃ formula columns,
      (∀ name ∈ runScope.heading.names, '%' ∉ name.toList) ∧
      ((Restriction.mapping [("params.a%b", .int 1)]).compile runScope false).Yields
        AliasCount.zero ⟨.formula formula, columns⟩ AliasCount.zero ∧
      formula.text Config.strict = "(JSON_VALUE(`params`, '$.a%b')=1)" ∧
      ¬ EvenRuns (formula.text Config.strict).toList ∧
      fillMarkers? (formula.text Config.strict).toList = none := by
  refine ⟨_, _, by decide, rfl, by decide +kernel, ?_, by decide +kernel⟩
  rw [← isSome_fillMarkers?_iff]
  decide +kernel

end QueryAlgebra
