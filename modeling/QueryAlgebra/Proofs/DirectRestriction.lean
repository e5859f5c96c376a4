/-
This file compares the two ways to restrict an expression, on the expression itself and behind a
subquery where one is needed. Both start from the same check.
-/
import QueryAlgebra.Proofs.CarriedLineage
import QueryAlgebra.Proofs.RefusalCauses
import QueryAlgebra.Proofs.RestrictionSteps

namespace QueryAlgebra

/-- Where no subquery is made, a checked restriction may mention no derived attribute. -/
def Expression.restrictedDirectlyBy (e : Expression) (restriction : Restriction)
    (compiled : Compiled) : Except Fault Expression :=
  if compiled.condition.isConstant true then .ok e
  else if e.operator.isGrouping then .ok (e.record restriction compiled.columns)
  else
    match compiled.columns.toList.find? e.heading.derived.contains with
    | some name => .error (.derived name)
    | none => .ok (e.record restriction compiled.columns)

/-- Restricting directly is the same check and then the record. -/
theorem Expression.restrictDirectly_eq (e : Expression) (restriction : Restriction) :
    e.restrictDirectly restriction =
      (e.validate restriction >>= e.restrictedDirectlyBy restriction) := rfl

/-- A checked restriction always holds, or it is recorded, or it mentions a derived attribute that
only a subquery shows as a column. -/
theorem Expression.restrictedDirectlyBy_cases (e : Expression) (restriction : Restriction)
    (compiled : Compiled) :
    (compiled.condition.isConstant true = true ∧
        e.restrictedDirectlyBy restriction compiled = .ok e) ∨
      (compiled.condition.isConstant true = false ∧
        e.restrictedDirectlyBy restriction compiled =
          .ok (e.record restriction compiled.columns)) ∨
      (compiled.condition.isConstant true = false ∧ e.restrictedSource = e.asSubquery ∧
        ∃ name, e.restrictedDirectlyBy restriction compiled = .error (.derived name)) := by
  unfold restrictedDirectlyBy
  cases holds : compiled.condition.isConstant true with
  | true => exact .inl ⟨rfl, rfl⟩
  | false =>
      rw [if_neg Bool.false_ne_true]
      cases grouping : e.operator.isGrouping with
      | true => exact .inr (.inl ⟨rfl, rfl⟩)
      | false =>
          rw [if_neg Bool.false_ne_true]
          cases found : compiled.columns.toList.find? e.heading.derived.contains with
          | none => exact .inr (.inl ⟨rfl, rfl⟩)
          | some name =>
              refine .inr (.inr ⟨rfl, ?_, name, rfl⟩)
              have shown : name ∈ e.heading.derived :=
                List.contains_iff_mem.1 (List.find?_some found)
              rcases e.restrictedSource_cases with wrapped | ⟨_, groups | underived⟩
              · exact wrapped
              · rw [grouping] at groups
                contradiction
              · exact absurd shown (Heading.not_mem_derived underived name)

/-- Without derived attributes, or on groups, no subquery is needed for anything. -/
theorem Expression.restrictedDirectlyBy_of_resolved {e : Expression}
    (resolved : e.operator.isGrouping = true ∨ e.heading.hasDerived = false)
    (restriction : Restriction) (compiled : Compiled) :
    e.restrictedDirectlyBy restriction compiled = .ok (e.restrictedBy restriction compiled) := by
  have direct : e.restrictedSource = e := by
    rcases resolved with grouping | underived
    · exact if_neg (by simp [grouping])
    · exact if_neg (by simp [underived])
  unfold restrictedDirectlyBy restrictedBy
  rw [direct]
  split
  · rfl
  · rcases resolved with grouping | underived
    · rw [if_pos grouping]
    · have unmentioned : compiled.columns.toList.find? e.heading.derived.contains = none := by
        rw [List.find?_eq_none]
        intro name _ inside
        exact Heading.not_mem_derived underived name (List.contains_iff_mem.1 inside)
      rw [unmentioned, ite_self]

/-- The headings show the same attributes, as columns or by expressions. -/
structure Heading.ShowsAlike (first second : Heading) : Prop where
  names : first.names = second.names
  primaryKey : first.primaryKey = second.primaryKey
  columns : first.visible.map Attribute.asColumn = second.visible.map Attribute.asColumn

theorem Heading.showsAlike_asColumns (heading : Heading) :
    heading.asColumns.visiblePart.ShowsAlike heading where
  names := heading.names_asColumns
  primaryKey := heading.primaryKey_asColumns
  columns := by
    rw [visible_visiblePart, visible_asColumns, List.map_map]
    rfl

theorem Expression.showsAlike_restrictedSource (e : Expression) :
    e.restrictedSource.heading.ShowsAlike e.heading := by
  rcases e.restrictedSource_cases with wrapped | ⟨direct, _⟩
  · rw [wrapped]
    exact e.heading.showsAlike_asColumns
  · rw [direct]
    exact ⟨rfl, rfl, rfl⟩

section Agreement

variable {e direct : Expression} {restriction : Restriction} {fault : Fault}

theorem Expression.restrict_of_restrictDirectly
    (built : e.restrictDirectly restriction = .ok direct) :
    ∃ result, e.restrict restriction = .ok result ∧
      result.heading.ShowsAlike direct.heading := by
  rw [restrictDirectly_eq] at built
  obtain ⟨compiled, accepted, placed⟩ := bind_eq_ok.1 built
  refine ⟨_, restrict_eq_ok.2 ⟨compiled, accepted, rfl⟩, ?_⟩
  rcases e.restrictedDirectlyBy_cases restriction compiled with
    ⟨holds, same⟩ | ⟨holds, same⟩ | ⟨_, _, name, same⟩
  · rw [same] at placed
    rw [restrictedBy_of_true holds, Except.ok.inj placed]
    exact ⟨rfl, rfl, rfl⟩
  · rw [same] at placed
    rw [restrictedBy_of_open holds, ← Except.ok.inj placed]
    exact e.showsAlike_restrictedSource
  · rw [same] at placed
    contradiction

theorem Expression.restrictDirectly_eq_restrict
    (resolved : e.operator.isGrouping = true ∨ e.heading.hasDerived = false)
    (restriction : Restriction) : e.restrictDirectly restriction = e.restrict restriction := by
  rw [restrictDirectly_eq, restrict_eq]
  cases e.validate restriction with
  | error fault => rfl
  | ok compiled => exact restrictedDirectlyBy_of_resolved resolved restriction compiled

/-- Where a derived attribute is in the way, a subquery is all that is missing. -/
theorem Expression.restrict_of_derived {name : String}
    (refused : e.restrictDirectly restriction = .error (.derived name)) :
    ∃ result, e.restrict restriction = .ok result ∧ e.asSubquery.restrict restriction = .ok result ∧
      result.operator = .subquery e := by
  rw [restrictDirectly_eq] at refused
  rcases bind_eq_error.1 refused with failed | ⟨compiled, accepted, placed⟩
  · exact absurd rfl ((cause_of_validate failed).ne_derived name)
  · rcases e.restrictedDirectlyBy_cases restriction compiled with
      ⟨_, same⟩ | ⟨_, same⟩ | ⟨holds, wrapped, _⟩
    · rw [same] at placed
      contradiction
    · rw [same] at placed
      contradiction
    · have settled := e.restrictedSource_restrictedSource
      rw [wrapped] at settled
      refine ⟨e.asSubquery.record restriction compiled.columns, ?_, ?_, rfl⟩
      · refine restrict_eq_ok.2 ⟨compiled, accepted, ?_⟩
        rw [restrictedBy_of_open holds, wrapped]
      · refine restrict_eq_ok.2 ⟨compiled, ?_, ?_⟩
        · rw [validate_asSubquery, accepted]
        · rw [restrictedBy_of_open holds, settled]

/-- Every other fault is one of the check. -/
theorem Expression.restrictDirectly_eq_error (other : ∀ name, fault ≠ .derived name) :
    e.restrictDirectly restriction = .error fault ↔ e.restrict restriction = .error fault := by
  have checked : e.restrict restriction = .error fault ↔ e.validate restriction = .error fault := by
    rw [restrict_eq]
    cases e.validate restriction <;> simp [Except.map]
  rw [checked, restrictDirectly_eq, bind_eq_error]
  apply or_iff_left
  rintro ⟨compiled, _, placed⟩
  rcases e.restrictedDirectlyBy_cases restriction compiled with
    ⟨_, same⟩ | ⟨_, same⟩ | ⟨_, _, name, same⟩
  · rw [same] at placed
    contradiction
  · rw [same] at placed
    contradiction
  · rw [same] at placed
    exact other name (Except.error.inj placed).symm

end Agreement

/-- The two ways to restrict an expression agree. Where the direct way succeeds, so does the other
one, and both results show the same attributes in the same order with the same key, types and
origins. On groups and without derived attributes they are the same in everything. Where only a
derived attribute is in the way, the restriction is placed on the subquery of the expression. All
other faults are the same. -/
theorem Expression.restrictDirectly_agrees (e : Expression) (restriction : Restriction) :
    (∀ direct, e.restrictDirectly restriction = .ok direct →
      ∃ result, e.restrict restriction = .ok result ∧
        result.heading.ShowsAlike direct.heading) ∧
      (e.operator.isGrouping = true ∨ e.heading.hasDerived = false →
        e.restrictDirectly restriction = e.restrict restriction) ∧
      (∀ name, e.restrictDirectly restriction = .error (.derived name) →
        ∃ result, e.restrict restriction = .ok result ∧
          e.asSubquery.restrict restriction = .ok result ∧ result.operator = .subquery e) ∧
      ∀ fault, (∀ name, fault ≠ .derived name) →
        (e.restrictDirectly restriction = .error fault ↔
          e.restrict restriction = .error fault) :=
  ⟨fun _ => restrict_of_restrictDirectly, fun resolved => restrictDirectly_eq_restrict resolved _,
    fun _ => restrict_of_derived, fun _ => restrictDirectly_eq_error⟩

/-- A restriction on the sex of labelled subjects is placed either way, one on their label only
behind a subquery, and one without any text nowhere. Without the label both ways are the same. -/
theorem Expression.restrictDirectly_agrees_of_label :
    ∃ subjects e direct result wrapped, Reachable (· = laboratory) subjects ∧
      (∀ restriction : Restriction,
        subjects.restrictDirectly restriction = subjects.restrict restriction) ∧
      Reachable (· = laboratory) e ∧ e.heading.hasDerived = true ∧
      e.restrictDirectly (.mapping [("sex", .string "F")]) = .ok direct ∧
      e.restrict (.mapping [("sex", .string "F")]) = .ok result ∧
      result.heading.ShowsAlike direct.heading ∧
      e.restrictDirectly (.mapping [("label", .string "MOUSE")]) = .error (.derived "label") ∧
      e.restrict (.mapping [("label", .string "MOUSE")]) = .ok wrapped ∧
      e.asSubquery.restrict (.mapping [("label", .string "MOUSE")]) = .ok wrapped ∧
      e.restrictDirectly (.raw "") = .error (.restriction .emptyCondition) ∧
      e.restrict (.raw "") = .error (.restriction .emptyCondition) := by
  have subjects := @Reachable.table (· = laboratory) laboratory subjectDeclaration _ rfl rfl
  obtain ⟨e, labelled, derived, ⟨direct, built⟩, refused, empty⟩ :
      ∃ e, Reachable (· = laboratory) e ∧ e.heading.hasDerived = true ∧
        (∃ direct, e.restrictDirectly (.mapping [("sex", .string "F")]) = .ok direct) ∧
        e.restrictDirectly (.mapping [("label", .string "MOUSE")]) = .error (.derived "label") ∧
        e.restrictDirectly (.raw "") = .error (.restriction .emptyCondition) := by
    have labelled := @Reachable.project (· = laboratory) _ _ [.named "sex"]
      (Renames.ofList [("label", "upper(species)")]) true subjects rfl
    exact ⟨_, labelled, rfl, ⟨_, rfl⟩, rfl, rfl⟩
  obtain ⟨result, placed, alike⟩ := (e.restrictDirectly_agrees _).1 direct built
  obtain ⟨wrapped, behind, again, _⟩ := (e.restrictDirectly_agrees _).2.2.1 "label" refused
  have failed := ((e.restrictDirectly_agrees (.raw "")).2.2.2 (.restriction .emptyCondition)
    nofun).1 empty
  exact ⟨_, e, direct, result, wrapped, subjects,
    fun restriction => (restrictDirectly_agrees _ restriction).2.1 (.inr rfl), labelled, derived,
    built, placed, alike, refused, behind, again, empty, failed⟩

end QueryAlgebra
