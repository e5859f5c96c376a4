/-
This file determines under which labels two derived tables of one statement can have one alias.
Subqueries and unions are counted apart, so that only their labels tell them apart.
-/
import Mathlib.Data.List.Induction
import QueryAlgebra.Proofs.AliasNumbering
import QueryAlgebra.Proofs.Renderability

namespace QueryAlgebra

/-- The digits of hexadecimal numbers. -/
def hexDigits : List Char :=
  "0123456789abcdef".toList

theorem mem_hexDigits {letter : Char} :
    letter ∈ hexDigits ↔ ∃ digit < 16, Nat.digitChar digit = letter := by
  have listed : hexDigits = (List.range 16).map Nat.digitChar := rfl
  simp only [listed, List.mem_map, List.mem_range]

/-- Hexadecimal digits with which a positive number can begin. -/
structure LeadsNumber (digits : List Char) : Prop where
  known : ∀ digit ∈ digits, digit ∈ hexDigits
  leading : digits.head? ≠ some '0'

/-- A label is followed by digits in another one. -/
def LabelExtends (first second : String) : Prop :=
  ∃ digits, LeadsNumber digits ∧ second.toList = first.toList ++ digits

/-- The labels of a configuration are equal, or one of them is the other one with digits. -/
def Config.LabelsMeet (config : Config) : Prop :=
  LabelExtends config.subqueryLabel config.unionLabel ∨
    LabelExtends config.unionLabel config.subqueryLabel

section Digits

variable {digits : List Char}

theorem LeadsNumber.front {front back : List Char} (leads : LeadsNumber (front ++ back)) :
    LeadsNumber front where
  known := fun digit inside => leads.known digit (List.mem_append_left _ inside)
  leading := by
    cases front with
    | nil => simp
    | cons first rest => exact leads.leading

/-- Positive numbers are written without a zero in front. -/
theorem leadsNumber_toDigits {number : Nat} (positive : 0 < number) :
    LeadsNumber (Nat.toDigits 16 number) := by
  have known : ∀ digit < 16, Nat.digitChar digit ∈ hexDigits :=
    fun digit small => mem_hexDigits.2 ⟨digit, small, rfl⟩
  have nonzero : ∀ digit < 16, 0 < digit → Nat.digitChar digit ≠ '0' := by decide
  induction number using Nat.strongRecOn with
  | ind number ih =>
      rw [Nat.toDigits_eq_if (by decide)]
      split
      · rename_i small
        constructor
        · exact List.forall_mem_singleton.2 (known number small)
        · exact fun same => nonzero number small positive (Option.some.inj same)
      · rename_i large
        obtain ⟨front, leading⟩ := ih (number / 16) (by omega) (by omega)
        constructor
        · rw [List.forall_mem_append, List.forall_mem_singleton]
          exact ⟨front, known _ (Nat.mod_lt _ (by decide))⟩
        · rw [List.head?_append_of_ne_nil _ Nat.toDigits_ne_nil]
          exact leading

/-- Digits that can begin a number are the digits of one. The induction takes the last digit off. -/
theorem LeadsNumber.exists_toDigits (leads : LeadsNumber digits) (some : digits ≠ []) :
    ∃ number, 0 < number ∧ Nat.toDigits 16 number = digits := by
  induction digits using List.reverseRecOn with
  | nil => contradiction
  | append_singleton front last ih =>
      obtain ⟨digit, small, rfl⟩ := mem_hexDigits.1 (leads.known last (by simp))
      cases front with
      | nil =>
          refine ⟨digit, Nat.pos_of_ne_zero ?_, Nat.toDigits_of_lt_base small⟩
          rintro rfl
          exact leads.leading rfl
      | cons first rest =>
          obtain ⟨number, positive, same⟩ := ih leads.front (List.cons_ne_nil _ _)
          refine ⟨16 * number + digit, by omega, ?_⟩
          rw [← Nat.toDigits_append_toDigits (by decide) positive small, same,
            Nat.toDigits_of_lt_base small]

end Digits

section Labels

variable {config : Config}

/-- Between its backticks an alias has its label and its digits. -/
theorem Alias.text_eq_iff {first second : Alias} : first.text config = second.text config ↔
    (config.label first.kind).toList ++ Nat.toDigits 16 first.number =
      (config.label second.kind).toList ++ Nat.toDigits 16 second.number := by
  unfold Alias.text
  rw [← String.toList_inj]
  simp only [String.toList_append, String.toList_ofList, List.append_assoc,
    List.append_cancel_left_eq]
  rw [← List.append_assoc, ← List.append_assoc, List.append_cancel_right_eq]

/-- Two numbers can follow the labels so that both texts are the same. -/
theorem LabelExtends.exists_numbers {first second : String} (extended : LabelExtends first second) :
    ∃ number other, 0 < number ∧ 0 < other ∧
      first.toList ++ Nat.toDigits 16 number = second.toList ++ Nat.toDigits 16 other := by
  obtain ⟨digits, leads, longer⟩ := extended
  have whole : LeadsNumber (digits ++ ['1']) := by
    constructor
    · rw [List.forall_mem_append, List.forall_mem_singleton]
      exact ⟨leads.known, by decide⟩
    · cases digits with
      | nil => decide
      | cons digit rest => exact leads.leading
  obtain ⟨number, positive, written⟩ := whole.exists_toDigits (by simp)
  refine ⟨number, 1, positive, Nat.one_pos, ?_⟩
  rw [written, longer, List.append_assoc]
  rfl

/-- A subquery and a union have one alias if the labels meet. -/
theorem Config.LabelsMeet.exists_numbers (meet : config.LabelsMeet) :
    ∃ number other, 0 < number ∧ 0 < other ∧
      Alias.text config ⟨.subquery, number⟩ = Alias.text config ⟨.union, other⟩ := by
  rcases meet with extended | extended
  · obtain ⟨number, other, positive, some, same⟩ := extended.exists_numbers
    exact ⟨number, other, positive, some, Alias.text_eq_iff.2 same⟩
  · obtain ⟨other, number, some, positive, same⟩ := extended.exists_numbers
    exact ⟨number, other, positive, some, Alias.text_eq_iff.2 same.symm⟩

/-- The label that ends first is followed by the digits that the other one has as well. -/
theorem Config.labelsMeet_of_texts {first second : Alias} (kinds : first.kind ≠ second.kind)
    (positive : 0 < first.number) (some : 0 < second.number)
    (same : first.text config = second.text config) : config.LabelsMeet := by
  have extended : LabelExtends (config.label first.kind) (config.label second.kind) ∨
      LabelExtends (config.label second.kind) (config.label first.kind) := by
    rcases List.append_eq_append_iff.1 (Alias.text_eq_iff.1 same) with
      ⟨digits, longer, number⟩ | ⟨digits, longer, number⟩
    · exact .inl ⟨digits, (number ▸ leadsNumber_toDigits positive).front, longer⟩
    · exact .inr ⟨digits, (number ▸ leadsNumber_toDigits some).front, longer⟩
  cases one : first.kind <;> cases other : second.kind <;> rw [one, other] at extended kinds
  · contradiction
  · exact extended
  · exact extended.symm
  · contradiction

/-- Aliases of one kind differ in their numbers, and those of two kinds in their labels. -/
theorem Numbered.nodup_texts {count later : AliasCount} {aliases : List Alias}
    (numbered : Numbered count aliases later) (apart : ¬ config.LabelsMeet) :
    (aliases.map (Alias.text config)).Nodup := by
  have positive : ∀ derived ∈ aliases, 0 < derived.number := fun derived inside =>
    Nat.lt_of_le_of_lt (Nat.zero_le _) (numbered.after derived inside)
  unfold List.Nodup
  rw [List.pairwise_map]
  apply numbered.ascends.imp_of_mem
  intro first second inside member ascends same
  by_cases kinds : first.kind = second.kind
  · exact Nat.ne_of_lt (ascends kinds) (Alias.number_of_text kinds rfl same)
  · exact apart
      (Config.labelsMeet_of_texts kinds (positive first inside) (positive second member) same)

end Labels

/-- The heading of a table with one key attribute. -/
def keyHeading : Heading where
  attributes := [{ Attribute.plain "subject_id" .int with
    inKey := true, lineage := some "lab.subject.subject_id" }]
  nodup := List.nodup_singleton _
  visibleKey := by simp [Attribute.plain]
  keyFirst := List.pairwise_singleton _ _

def subjectKeys (session : Session) : Expression :=
  Expression.plain session (.table "`lab`.`subject`") keyHeading keyHeading

/-- The keys of subjects, united with themselves this many times. -/
def unitedKeys (session : Session) : Nat → Expression
  | 0 => subjectKeys session
  | unions + 1 => Expression.plain session (.union (unitedKeys session unions)
      (subjectKeys session)) keyHeading keyHeading

/-- A union, inside this many subqueries. -/
def wrappedKeys (session : Session) (unions : Nat) : Nat → Expression
  | 0 => unitedKeys session unions
  | subqueries + 1 => (wrappedKeys session unions subqueries).asSubquery

/-- A flat expression without restrictions has the aliases of what it reads from. -/
theorem Expression.Flat.yields {e : Expression} (flat : e.Flat) (bare : e.restrictions = [])
    {checked : Bool} (fields : Option (List String))
    (shown : ∀ names ∈ fields, ∀ name ∈ names, name ∈ e.heading.names)
    {count later : AliasCount} {relation : Relation}
    (read : (e.origin checked).Yields count relation later) :
    ∃ statement, (e.statement checked fields).Yields count statement later ∧
      statement.aliases = relation.aliases := by
  obtain ⟨list, chosen⟩ := exists_selectList shown
  rw [flat.statement_of_bare bare]
  refine ⟨_, Rendering.yields_bind.2 ⟨list, count, Rendering.yields_ofExcept.2 ⟨chosen, rfl⟩,
    Rendering.yields_map.2 ⟨relation, read, rfl⟩⟩, ?_⟩
  simp [Statement.aliases, Condition.aliases]

theorem Expression.flat_asSubquery (e : Expression) : e.asSubquery.Flat :=
  flat_iff.2 e.needsSubquery_asSubquery

section Towers

variable (session : Session) (checked : Bool)

theorem reachable_subjectKeys : Reachable (· = session) (subjectKeys session) :=
  @Reachable.table _ session ⟨"lab", "subject", [.primary "subject_id" .int]⟩ _ rfl rfl

theorem session_unitedKeys (unions : Nat) : (unitedKeys session unions).session = session := by
  cases unions <;> rfl

theorem heading_unitedKeys (unions : Nat) :
    (unitedKeys session unions).heading = keyHeading := by
  cases unions <;> rfl

theorem reachable_unitedKeys (unions : Nat) :
    Reachable (· = session) (unitedKeys session unions) := by
  induction unions with
  | zero => exact reachable_subjectKeys session
  | succ unions ih =>
      apply Reachable.union ih (reachable_subjectKeys session)
      rw [Expression.union_of_names]
      · -- the heading of a union without expressions is the one that both sides have
        rw [session_unitedKeys, heading_unitedKeys]
        rfl
      · rw [session_unitedKeys]
        exact beq_self_eq_true session.number
      · rw [heading_unitedKeys]
        rfl
      · rw [heading_unitedKeys]
        rfl
      · rfl

theorem reachable_wrappedKeys (unions subqueries : Nat) :
    Reachable (· = session) (wrappedKeys session unions subqueries) := by
  induction subqueries with
  | zero => exact reachable_unitedKeys session unions
  | succ subqueries ih => exact ih.subquery

theorem flat_unitedKeys (unions : Nat) :
    (unitedKeys session unions).Flat ∧ (unitedKeys session unions).restrictions = [] := by
  have underived : ∀ attr ∈ keyHeading.visible, attr.derived = false := by decide
  cases unions with
  | zero => exact ⟨⟨rfl, nofun, underived⟩, rfl⟩
  | succ unions => exact ⟨⟨rfl, nofun, underived⟩, rfl⟩

theorem subjectKeys_yields (fields : Option (List String))
    (shown : ∀ names ∈ fields, ∀ name ∈ names, name ∈ keyHeading.names) (count : AliasCount) :
    ∃ statement, ((subjectKeys session).statement checked fields).Yields count statement count := by
  obtain ⟨flat, bare⟩ := flat_unitedKeys session 0
  have read : ((subjectKeys session).origin checked).Yields count
      (.table "`lab`.`subject`") count := by
    rw [Expression.origin_eq, subjectKeys, Expression.plain, Operator.origin]
    exact Rendering.yields_pure.2 ⟨rfl, rfl⟩
  obtain ⟨statement, run, _⟩ := flat.yields bare fields shown read
  exact ⟨statement, run⟩

/-- The last union takes the last number. -/
theorem unitedKeys_yields (unions : Nat) (fields : Option (List String))
    (shown : ∀ names ∈ fields, ∀ name ∈ names, name ∈ keyHeading.names) :
    ∃ statement, ((unitedKeys session unions).statement checked fields).Yields AliasCount.zero
      statement ⟨0, unions⟩ ∧ (0 < unions → ⟨.union, unions⟩ ∈ statement.aliases) := by
  induction unions generalizing fields with
  | zero =>
      obtain ⟨statement, run⟩ := subjectKeys_yields session checked fields shown .zero
      exact ⟨statement, run, nofun⟩
  | succ unions ih =>
      have all : ∀ names ∈ some keyHeading.names, ∀ name ∈ names, name ∈ keyHeading.names := by
        simp
      obtain ⟨first, below, _⟩ := ih _ all
      obtain ⟨second, above⟩ := subjectKeys_yields session checked _ all ⟨0, unions⟩
      have read : ((unitedKeys session (unions + 1)).origin checked).Yields AliasCount.zero
          (.union first second ⟨.union, unions + 1⟩) ⟨0, unions + 1⟩ := by
        rw [Expression.origin_eq, unitedKeys, Expression.plain, Operator.origin]
        exact Rendering.yields_bind.2 ⟨first, _, below, Rendering.yields_bind.2
          ⟨second, _, above, Rendering.yields_map.2 ⟨_, Rendering.runFrom_alias .union _, rfl⟩⟩⟩
      obtain ⟨flat, bare⟩ := flat_unitedKeys session (unions + 1)
      obtain ⟨statement, run, same⟩ := flat.yields bare fields shown read
      refine ⟨statement, run, fun _ => ?_⟩
      rw [same, Relation.aliases]
      exact List.mem_append_right _ (List.mem_singleton_self _)

/-- The last subquery takes the last number, and the aliases of the union inside stay. -/
theorem wrappedKeys_yields (unions subqueries : Nat) :
    ∃ statement, ((wrappedKeys session unions subqueries).statement checked none).Yields
      AliasCount.zero statement ⟨subqueries, unions⟩ ∧
      (0 < unions → ⟨.union, unions⟩ ∈ statement.aliases) ∧
      (0 < subqueries → ⟨.subquery, subqueries⟩ ∈ statement.aliases) := by
  induction subqueries with
  | zero =>
      obtain ⟨statement, run, last⟩ := unitedKeys_yields session checked unions none
        (by simp)
      exact ⟨statement, run, last, nofun⟩
  | succ subqueries ih =>
      obtain ⟨inner, below, last, _⟩ := ih
      have read : ((wrappedKeys session unions (subqueries + 1)).origin checked).Yields
          AliasCount.zero (.derived inner ⟨.subquery, subqueries + 1⟩)
          ⟨subqueries + 1, unions⟩ := by
        rw [Expression.origin_eq, wrappedKeys, Expression.asSubquery, Expression.plain,
          Operator.origin]
        exact Rendering.yields_bind.2 ⟨inner, _, below,
          Rendering.yields_map.2 ⟨_, Rendering.runFrom_alias .subquery _, rfl⟩⟩
      obtain ⟨statement, run, same⟩ := (Expression.flat_asSubquery _).yields
        (Expression.restrictions_asSubquery _) none (by simp) read
      refine ⟨statement, run, ?_, fun _ => ?_⟩
      · intro some
        rw [same, Relation.aliases]
        exact List.mem_append_left _ (last some)
      · rw [same, Relation.aliases]
        exact List.mem_append_right _ (List.mem_singleton_self _)

end Towers

/-- The text of a reachable expression never gives one alias to two derived tables. -/
def Config.NamesApart (config : Config) : Prop :=
  ∀ (session : Session) (e : Expression) (text : String), session.config = config →
    Reachable (· = session) e → e.sql none = .ok text →
      ∃ statement, (e.statement config.semanticCheck none).fresh = .ok statement ∧
        text = statement.text config ∧ Shows config statement.aliases text ∧
        (statement.aliases.map (Alias.text config)).Nodup

/-- The aliases of all statements differ exactly if the labels do not meet. Under labels that meet
a union inside subqueries has the alias of one of them. -/
theorem Config.namesApart_iff (config : Config) : config.NamesApart ↔ ¬ config.LabelsMeet := by
  constructor
  · intro apart meet
    obtain ⟨subqueries, unions, positive, some, same⟩ := meet.exists_numbers
    obtain ⟨statement, run, union, subquery⟩ :=
      wrappedKeys_yields ⟨0, config⟩ config.semanticCheck unions subqueries
    have reached := reachable_wrappedKeys ⟨0, config⟩ unions subqueries
    have session := reached.session_mem
    have rendered : ((wrappedKeys ⟨0, config⟩ unions subqueries).statement config.semanticCheck
        none).fresh = .ok statement := congrArg Prod.fst run
    have printed : (wrappedKeys ⟨0, config⟩ unions subqueries).sql none =
        .ok (statement.text config) := by
      rw [Expression.sql_eq_ok, session]
      exact ⟨statement, rendered, rfl⟩
    obtain ⟨again, found, _, _, nodup⟩ := apart ⟨0, config⟩ _ _ rfl reached printed
    rw [rendered, Except.ok.injEq] at found
    subst found
    have equal := List.inj_on_of_nodup_map nodup (subquery positive) (union some) same
    exact absurd (congrArg Alias.kind equal) nofun
  · intro apart session e text labels reached printed
    obtain ⟨statement, rendered, rfl⟩ := Expression.sql_eq_ok.1 printed
    have run : (e.statement e.session.config.semanticCheck none).Yields AliasCount.zero statement
        _ := Prod.ext rendered rfl
    rw [reached.session_mem, labels] at rendered run ⊢
    exact ⟨statement, rendered, rfl, statement.shows_text config,
      (Expression.numbered_of_yields run).nodup_texts apart⟩

/-- The default labels differ in their last letters, which are no digits of one another. -/
theorem Config.namesApart_iff_of_strict : Config.strict.NamesApart := by
  apply (Config.namesApart_iff .strict).2
  rintro (⟨digits, _, longer⟩ | ⟨digits, _, longer⟩)
  · exact absurd (List.cons.inj (List.cons.inj longer).2).1 (by decide)
  · exact absurd (List.cons.inj (List.cons.inj longer).2).1 (by decide)

/-- One label for subqueries and for unions. -/
def sharedLabel : Config := ⟨true, "t", "t"⟩

/-- A union and a subquery that stand side by side in one FROM clause have the same alias. -/
theorem Config.sharedLabel_collides :
    (∃ e, Reachable (· = ⟨0, sharedLabel⟩) e ∧ e.sql none = .ok ("SELECT `subject_id` FROM " ++
      "(SELECT `subject_id` FROM `lab`.`subject` UNION SELECT `subject_id` FROM " ++
      "`lab`.`subject`) AS `t1` NATURAL JOIN (SELECT `subject_id` FROM `lab`.`subject`) AS " ++
      "`t1`")) ∧ ¬ sharedLabel.NamesApart := by
  obtain ⟨e, reached, printed, evaluated⟩ : ∃ e, Reachable (· = ⟨0, sharedLabel⟩) e ∧
      e.sql none = .ok ("SELECT `subject_id` FROM " ++
        "(SELECT `subject_id` FROM `lab`.`subject` UNION SELECT `subject_id` FROM " ++
        "`lab`.`subject`) AS `t1` NATURAL JOIN (SELECT `subject_id` FROM `lab`.`subject`) AS " ++
        "`t1`") ∧
      (e.statement sharedLabel.semanticCheck none).fresh.toOption.map Statement.aliases =
        some [⟨.union, 1⟩, ⟨.subquery, 1⟩] := by
    have united := reachable_unitedKeys ⟨0, sharedLabel⟩ 1
    have wrapped := (reachable_subjectKeys ⟨0, sharedLabel⟩).subquery
    have joined := @Reachable.join (· = ⟨0, sharedLabel⟩) _ _ _ ⟨false, true, true⟩ united
      wrapped rfl
    exact ⟨_, joined, by decide +kernel, by decide +kernel⟩
  refine ⟨⟨e, reached, printed⟩, fun apart => ?_⟩
  obtain ⟨statement, rendered, _, _, nodup⟩ := apart _ e _ rfl reached printed
  rw [rendered] at evaluated
  have listed : statement.aliases = [⟨.union, 1⟩, ⟨.subquery, 1⟩] := Option.some.inj evaluated
  rw [listed] at nodup
  exact absurd nodup (by decide +kernel)

end QueryAlgebra
