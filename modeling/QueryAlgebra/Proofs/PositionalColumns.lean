/-
This file shows that columns which are matched by position also agree by name: those of the two
sides of a union, and those of a tuple with the statement that it is looked up in.
-/
import QueryAlgebra.Proofs.HeadingOrder
import QueryAlgebra.Proofs.RefusalCauses
import QueryAlgebra.Proofs.Renderability
import QueryAlgebra.Proofs.StatementColumns

namespace QueryAlgebra

/-- A statement that is asked for fields outputs them in the order in which they were given. -/
theorem Statement.outputs_of_selectList {e : Expression} {names : List String}
    {statement : Statement} (selected : e.selectList? (some names) = .ok statement.list) :
    statement.outputs = some names := by
  obtain ⟨distinct, list, origin, filter, groups, groupFilter⟩ := statement
  unfold Expression.selectList? at selected
  split at selected
  · contradiction
  · cases found : e.heading.select? (some names) with
    | error fault =>
        rw [found] at selected
        contradiction
    | ok entries =>
        rw [found] at selected
        obtain rfl := Except.ok.inj selected
        rw [Statement.outputs, Heading.names_of_select found]
        rfl

theorem Expression.outputs_of_fields {e : Expression} {checked : Bool} {names : List String}
    {count later : AliasCount} {statement : Statement}
    (yields : (e.statement checked (some names)).Yields count statement later) :
    statement.outputs = some names :=
  Statement.outputs_of_selectList (yields_assemble yields).1

/-- The list stands above the subquery where the partner is wrapped. -/
theorem Expression.outputs_of_assemblePartner {partner : Expression} {checked : Bool}
    {common : List String} {count later : AliasCount} {inner : Statement}
    (yields : (partner.assemblePartner common (partner.statement checked)).Yields count inner
      later) : inner.outputs = some common := by
  unfold assemblePartner at yields
  split at yields
  · obtain ⟨list, between, selected, yields⟩ := Rendering.yields_bind.1 yields
    obtain ⟨chosen, rfl⟩ := Rendering.yields_ofExcept.1 selected
    obtain ⟨statement, _, _, yields⟩ := Rendering.yields_bind.1 yields
    obtain ⟨name, _, rfl⟩ := Rendering.yields_map.1 yields
    exact Statement.outputs_of_selectList chosen
  · exact outputs_of_fields yields

variable {sessions : Session → Prop}

/-- Both operands of a reachable union show the names that the union asks them for. -/
theorem covers_elsewhere : Covers Fault.Elsewhere (Reachable sessions) where
  leaf := fun _ known => known.2
  part := fun _ reached _ member => reached.part member
  field := by
    intro e reached left right operator name shown missing
    have formed := reached.formed
    unfold Expression.Formed at formed
    rw [operator] at formed
    obtain ⟨first, second⟩ := formed name shown
    rcases missing with absent | absent
    · exact absurd first absent
    · exact absurd second absent

/-- A union that is rendered has the statements of its operands as its sides, one after the other,
and both of them output the names that the union shows in the order of the union. -/
structure Expression.UnitesByName (united left right : Expression) (checked : Bool) : Prop where
  rendered : (united.origin checked).Succeeds ↔ left.Prints checked ∧ right.Prints checked
  found : (united.origin checked).FailsFor Fault.Elsewhere
  columns : ∀ count relation later, (united.origin checked).Yields count relation later →
    ∃ first second name middle last,
      (left.statement checked (some united.heading.names)).Yields count first middle ∧
      (right.statement checked (some united.heading.names)).Yields middle second last ∧
      relation = .union first second name ∧
      first.outputs = some united.heading.names ∧ second.outputs = some united.heading.names

/-- A semijoin on shared names that is compiled looks their tuple up in a statement that outputs
the same names in the same order. -/
structure Scope.MatchesByName (scope : Scope) (partner : Expression) (required negated : Bool) :
    Prop where
  rendered : ((Restriction.semijoin partner required).compile scope negated).Succeeds ↔
    scope.accept partner required = .ok () ∧ partner.Prints scope.checked
  found : ((Restriction.semijoin partner required).compile scope negated).FailsFor Fault.Elsewhere
  columns : ∀ count compiled later,
    ((Restriction.semijoin partner required).compile scope negated).Yields count compiled later →
      ∃ names inner, names = scope.heading.common partner.heading ∧ names ≠ [] ∧
        compiled.condition = .formula (.membership names negated inner) ∧
        inner.outputs = some names

theorem Reachable.unitesByName {united left right : Expression}
    (reached : Reachable sessions united) (operator : united.operator = .union left right)
    (checked : Bool) : united.UnitesByName left right checked where
  rendered := by
    have formed := reached.formed
    unfold Expression.Formed at formed
    rw [operator] at formed
    rw [united.origin_eq, operator]
    exact Operator.origin_union_succeeds_iff formed
  found := united.origin_failsFor covers_elsewhere checked reached
  columns := by
    intro count relation later yields
    rw [united.origin_eq, operator, Operator.origin] at yields
    obtain ⟨first, middle, below, yields⟩ := Rendering.yields_bind.1 yields
    obtain ⟨second, last, above, yields⟩ := Rendering.yields_bind.1 yields
    obtain ⟨name, _, rfl⟩ := Rendering.yields_map.1 yields
    exact ⟨first, second, name, middle, last, below, above, rfl,
      Expression.outputs_of_fields below, Expression.outputs_of_fields above⟩

theorem Reachable.matchesByName {partner : Expression} (reached : Reachable sessions partner)
    {scope : Scope} (shared : scope.heading.common partner.heading ≠ []) (required negated : Bool) :
    scope.MatchesByName partner required negated where
  rendered := Restriction.semijoin_succeedsFrom_iff shared
  found := by
    apply Restriction.compile_failsFor covers_elsewhere
    rw [Restriction.partners, List.forall_mem_singleton]
    exact reached
  columns := by
    intro count compiled later yields
    obtain ⟨_, joined⟩ := Restriction.yields_semijoin.1 yields
    unfold Expression.semijoined at joined
    split at joined
    · contradiction
    · obtain ⟨inner, run, rfl⟩ := Rendering.yields_map.1 joined
      exact ⟨_, inner, rfl, shared, rfl, Expression.outputs_of_assemblePartner run⟩

/-- Columns that are matched by position carry the same names, and neither side of such a match is
asked for an attribute that it does not show. -/
theorem Reachable.columns_agree_by_position (sessions : Session → Prop) :
    (∀ left right united : Expression, Reachable sessions left → Reachable sessions right →
      left.union right = .ok united → ∀ checked, united.UnitesByName left right checked) ∧
    (∀ (scope : Scope) (partner : Expression), Reachable sessions partner →
      scope.heading.common partner.heading ≠ [] →
        ∀ required negated, scope.MatchesByName partner required negated) := by
  constructor
  · intro left right united first second built checked
    obtain ⟨_, _, _, _, same⟩ := Expression.union_ok built
    apply (Reachable.union first second built).unitesByName
    rw [same]
    rfl
  · intro scope partner reached shared required negated
    exact reached.matchesByName shared required negated

/-- The names of the key of a log, exchanged. -/
def exchangedKey : Renames :=
  Renames.ofList [("subject_id", "entry"), ("entry", "subject_id")]

/-- A log whose key names are exchanged shows them in the other order. Both sides of its union with
the plain log list the names as that log does, and a tuple that is looked up in it lists them as it
does itself. -/
theorem Reachable.columns_agree_by_position_of_exchange :
    ∃ keys exchanged united : Expression, Reachable (· = laboratory) keys ∧
      Reachable (· = laboratory) exchanged ∧ keys.union exchanged = .ok united ∧
      keys.heading.names = ["subject_id", "entry"] ∧
      exchanged.heading.names = ["entry", "subject_id"] ∧
      keys.heading.common exchanged.heading = ["entry", "subject_id"] ∧
      united.UnitesByName keys exchanged true ∧
      (keys.scope true).MatchesByName exchanged false false := by
  have logs := @Reachable.table (· = laboratory) laboratory logDeclaration _ rfl rfl
  obtain ⟨exchanged, built, second⟩ := logs.exists_project [] exchangedKey true (by decide +kernel)
  obtain ⟨keys, first, listed, keyed, evaluated⟩ : ∃ keys, Reachable (· = laboratory) keys ∧
      keys.heading.names = ["subject_id", "entry"] ∧ keys.heading.secondary = [] ∧
      ((Except.ok exchanged : Except Fault Expression).toOption.map fun e =>
        (e.heading.names, e.heading.secondary, keys.heading.common e.heading)) =
          some (["entry", "subject_id"], [], ["entry", "subject_id"]) := by
    rw [← built]
    exact ⟨_, @Reachable.project _ _ _ [] (.ofList []) true logs rfl, by decide +kernel,
      by decide +kernel, by decide +kernel⟩
  obtain ⟨names, rest⟩ := Prod.mk.inj (Option.some.inj evaluated)
  obtain ⟨plain, common⟩ := Prod.mk.inj rest
  have sameSession : keys.session.same exchanged.session = true := by
    rw [first.session_mem, second.session_mem]
    rfl
  have sameNames : sortedNames keys.heading.names = sortedNames exchanged.heading.names := by
    rw [listed, names]
    exact sortedNames_congr (.swap _ _ [])
  have unites := Expression.union_of_names sameSession sameNames keyed plain
  have shared : (keys.scope true).heading.common exchanged.heading ≠ [] :=
    ne_of_eq_of_ne common (List.cons_ne_nil _ _)
  obtain ⟨unions, semijoins⟩ := Reachable.columns_agree_by_position (· = laboratory)
  exact ⟨keys, exchanged, _, first, second, unites, listed, names, common,
    unions keys exchanged _ first second unites true,
    semijoins (keys.scope true) exchanged second shared false false⟩

end QueryAlgebra
