/-
This file describes what the operators of the algebra return when they succeed.
-/
import QueryAlgebra.Expression.Grouped
import QueryAlgebra.Expression.Projected
import QueryAlgebra.Expression.Restricted
import QueryAlgebra.Expression.United
import QueryAlgebra.Proofs.ProjectedHeading

namespace QueryAlgebra

/-- An expression that a FROM clause reproduces up to its restrictions. -/
theorem Expression.needsSubquery_eq_false {e : Expression} :
    e.needsSubquery = false ↔
      e.operator.isGrouping = false ∧ e.distinct = false ∧ e.heading.hasDerived = false := by
  simp [Expression.needsSubquery, and_assoc]

@[simp] theorem Expression.needsSubquery_asSubquery (e : Expression) :
    e.asSubquery.needsSubquery = false :=
  needsSubquery_eq_false.2 ⟨rfl, rfl, e.heading.hasDerived_asColumns⟩

@[simp] theorem Expression.restrictions_asSubquery (e : Expression) :
    e.asSubquery.restrictions = [] := rfl

@[simp] theorem Expression.names_asSubquery (e : Expression) :
    e.asSubquery.heading.names = e.heading.names :=
  e.heading.names_asColumns

@[simp] theorem Expression.allNames_asSubquery (e : Expression) :
    e.asSubquery.columns.allNames = e.heading.names :=
  e.heading.allNames_asColumns

/-- A join operand is taken as it is unless its columns overlap or it has to be resolved. -/
theorem Expression.joinOperand_cases (e : Expression) (overlapping : Bool) :
    e.joinOperand overlapping = e.asSubquery ∨
      (e.joinOperand overlapping = e ∧ overlapping = false ∧ e.needsSubquery = false ∧
        e.restrictions = []) := by
  unfold Expression.joinOperand
  split
  · exact .inl rfl
  · rename_i bare
    simp only [Bool.or_eq_true, Bool.not_eq_true', not_or, Bool.not_eq_true, Bool.not_eq_false,
      List.isEmpty_iff] at bare
    exact .inr ⟨rfl, bare.1.1, bare.1.2, bare.2⟩

theorem Expression.restrictions_joinOperand (e : Expression) (overlapping : Bool) :
    (e.joinOperand overlapping).restrictions = [] := by
  rcases e.joinOperand_cases overlapping with wrapped | ⟨direct, _, _, bare⟩
  · rw [wrapped, restrictions_asSubquery]
  · rw [direct, bare]

theorem Expression.needsSubquery_joinOperand (e : Expression) (overlapping : Bool) :
    (e.joinOperand overlapping).needsSubquery = false := by
  rcases e.joinOperand_cases overlapping with wrapped | ⟨direct, _, resolved, _⟩
  · rw [wrapped, needsSubquery_asSubquery]
  · rw [direct, resolved]

theorem Expression.session_joinOperand (e : Expression) (overlapping : Bool) :
    (e.joinOperand overlapping).session = e.session := by
  rcases e.joinOperand_cases overlapping with wrapped | ⟨direct, _⟩
  · rw [wrapped]
    rfl
  · rw [direct]

theorem Expression.names_joinOperand (e : Expression) (overlapping : Bool) :
    (e.joinOperand overlapping).heading.names = e.heading.names := by
  rcases e.joinOperand_cases overlapping with wrapped | ⟨direct, _⟩
  · rw [wrapped, names_asSubquery]
  · rw [direct]

/-- The left operand as a join stores it. -/
def Expression.joinedLeft (left right : Expression) : Expression :=
  left.joinOperand (left.overlaps right)

/-- The right operand as a join stores it. -/
def Expression.joinedRight (left right : Expression) : Expression :=
  right.joinOperand (left.overlaps right)

/-- A join passes its checks and reads two operands that carry no restrictions. -/
structure Expression.Joins (left right : Expression) (mode : JoinMode)
    (result : Expression) : Prop where
  sameSession : left.session.same right.session = true
  homologous : mode.checked = true → left.heading.homologous right.heading = .ok ()
  eligible : mode.keepAll = true → mode.enforced = true →
    left.heading.determines right.heading = true
  session : result.session = left.session
  operator : result.operator =
    .join (left.joinedLeft right) (left.joinedRight right) mode.keepAll
  heading : (left.joinedLeft right).heading.join (left.joinedRight right).heading
    (left.heading.joinKey right.heading) = .ok result.heading
  columns : (left.joinedLeft right).columns.join (left.joinedRight right).columns [] =
    .ok result.columns
  restrictions : result.restrictions = []
  restricting : result.restricting =
    (left.joinedLeft right).restricting.union (left.joinedRight right).restricting
  distinct : result.distinct = false

/-- A check that is passed leaves what follows it. -/
theorem guard_eq_ok {ε α : Type} {refused : Prop} [Decidable refused] {fault : ε}
    {next : Unit → Except ε α} {result : α} :
    (if refused then (Except.error fault : Except ε Unit) >>= next else next ()) = .ok result ↔
      ¬ refused ∧ next () = .ok result := by
  by_cases failed : refused <;> simp [failed, bind, Except.bind]

theorem when_eq_ok {ε α : Type} {required : Prop} [Decidable required] {check : Except ε Unit}
    {next : Unit → Except ε α} {result : α} :
    (if required then check >>= next else next ()) = .ok result ↔
      (required → check = .ok ()) ∧ next () = .ok result := by
  by_cases needed : required <;> cases check <;> simp [needed, bind, Except.bind]

theorem Expression.joinAs_ok {left right result : Expression} {mode : JoinMode}
    (built : left.joinAs right mode = .ok result) : left.Joins right mode result := by
  unfold Expression.joinAs at built
  obtain ⟨sameSession, built⟩ := guard_eq_ok.1 built
  obtain ⟨homologous, built⟩ := when_eq_ok.1 built
  obtain ⟨eligible, built⟩ := guard_eq_ok.1 built
  obtain ⟨heading, headings, built⟩ := bind_eq_ok.1 built
  obtain ⟨columns, allColumns, built⟩ := bind_eq_ok.1 built
  injection built with built
  subst built
  exact {
    sameSession := by simpa using sameSession
    homologous := homologous
    eligible := fun kept enforced => by simpa [kept, enforced] using eligible
    session := left.session_joinOperand _
    operator := rfl
    heading := headings
    columns := allColumns
    restrictions := by
      show extendRestrictions (left.joinOperand _).restrictions
        (right.joinOperand _).restrictions = []
      rw [restrictions_joinOperand, restrictions_joinOperand]
      rfl
    restricting := rfl
    distinct := rfl }

/-- A projection drops a part of the key of its source. -/
def Expression.losesKey (e : Expression) (selected : List String) (renames : Renames)
    (keepKey : Bool) : Bool :=
  !keepKey && !e.heading.primaryKey.all (e.heading.retained selected renames).contains

/-- A projection drops an attribute that its source is restricted by. -/
def Expression.losesRestriction (e : Expression) (selected : List String) : Bool :=
  e.restricting.toList.any (e.heading.names.filter (!selected.contains ·)).contains

/-- The source as a projection stores it. -/
def Expression.projectedSource (e : Expression) (selected : List String) (renames : Renames)
    (keepKey : Bool) : Expression :=
  if e.losesKey selected renames keepKey || e.needsSubquery || e.losesRestriction selected then
    e.asSubquery
  else e

/-- A projection reads a source that is bare or restricted as before. -/
structure Expression.Projects (e : Expression) (items : List ProjectionItem) (renames : Renames)
    (keepKey : Bool) (selection : Selection) (result : Expression) : Prop where
  entries : e.heading.selection items renames (if keepKey then e.heading.primaryKey else []) =
    .ok selection
  session : result.session = e.session
  operator : result.operator =
    .projection (e.projectedSource selection.selected renames keepKey)
  heading : (e.projectedSource selection.selected renames keepKey).heading.projectKeyed
    selection.selected renames keepKey = .ok result.heading
  columns : result.columns = (e.projectedSource selection.selected renames keepKey).columns
  restrictions : result.restrictions =
    (e.projectedSource selection.selected renames keepKey).restrictions
  restricting : result.restricting =
    (e.projectedSource selection.selected renames keepKey).restricting
  distinct : result.distinct = e.losesKey selection.selected renames keepKey

/-- The source of a projection is wrapped, or it is resolved and keeps what restricts it. -/
theorem Expression.projectedSource_cases (e : Expression) (selected : List String)
    (renames : Renames) (keepKey : Bool) :
    e.projectedSource selected renames keepKey = e.asSubquery ∨
      (e.projectedSource selected renames keepKey = e ∧ e.needsSubquery = false ∧
        e.losesKey selected renames keepKey = false ∧
        ∀ name ∈ e.restricting, name ∈ e.heading.names → name ∈ selected) := by
  unfold Expression.projectedSource
  split
  · exact .inl rfl
  · rename_i direct
    simp only [Bool.or_eq_true, not_or, Bool.not_eq_true] at direct
    refine .inr ⟨rfl, direct.1.2, direct.1.1, fun name restricting shown => ?_⟩
    have kept := direct.2
    simp only [losesRestriction, List.any_eq_false, List.contains_eq_mem, List.mem_filter,
      decide_eq_true_eq, Bool.not_eq_true', decide_eq_false_iff_not, not_and, not_not] at kept
    exact kept name restricting shown

theorem Expression.needsSubquery_projectedSource (e : Expression) (selected : List String)
    (renames : Renames) (keepKey : Bool) :
    (e.projectedSource selected renames keepKey).needsSubquery = false := by
  rcases e.projectedSource_cases selected renames keepKey with wrapped | ⟨direct, resolved, _⟩
  · rw [wrapped, needsSubquery_asSubquery]
  · rw [direct, resolved]

theorem Expression.session_projectedSource (e : Expression) (selected : List String)
    (renames : Renames) (keepKey : Bool) :
    (e.projectedSource selected renames keepKey).session = e.session := by
  rcases e.projectedSource_cases selected renames keepKey with wrapped | ⟨direct, _⟩
  · rw [wrapped]
    rfl
  · rw [direct]

theorem Expression.names_projectedSource (e : Expression) (selected : List String)
    (renames : Renames) (keepKey : Bool) :
    (e.projectedSource selected renames keepKey).heading.names = e.heading.names := by
  rcases e.projectedSource_cases selected renames keepKey with wrapped | ⟨direct, _⟩
  · rw [wrapped, names_asSubquery]
  · rw [direct]

/-- A projection selects, stores its source and computes its heading from that source. -/
theorem Expression.projectItems_eq (e : Expression) (items : List ProjectionItem)
    (renames : Renames) (keepKey : Bool) :
    e.projectItems items renames keepKey =
      (e.heading.selection items renames (if keepKey then e.heading.primaryKey else []) >>=
        fun selection =>
          let source := e.projectedSource selection.selected renames keepKey
          source.heading.projectKeyed selection.selected renames keepKey >>= fun heading =>
            .ok { Expression.plain source.session (.projection source) heading source.columns with
              distinct := e.losesKey selection.selected renames keepKey
              restrictions := source.restrictions
              restricting := source.restricting }) := by
  unfold Expression.projectItems
  refine congrArg _ (funext fun selection => ?_)
  have wrapping : (!keepKey && !e.heading.primaryKey.all
      (e.heading.retained selection.selected renames).contains || e.needsSubquery ||
        e.restricting.toList.any (e.heading.names.filter
          (!selection.selected.contains ·)).contains) =
      (e.losesKey selection.selected renames keepKey || e.needsSubquery ||
        e.losesRestriction selection.selected) := rfl
  simp only [wrapping, projectedSource, Heading.projectKeyed]
  cases e.losesKey selection.selected renames keepKey || e.needsSubquery ||
      e.losesRestriction selection.selected with
  | true =>
      simp only [if_pos]
      cases e.asSubquery.heading.project selection.selected renames none <;>
        cases keepKey <;> rfl
  | false =>
      simp only [Bool.false_eq_true, if_neg, not_false_eq_true]
      cases e.heading.project selection.selected renames none <;> cases keepKey <;> rfl

theorem Expression.projectItems_ok {e result : Expression} {items : List ProjectionItem}
    {renames : Renames} {keepKey : Bool}
    (built : e.projectItems items renames keepKey = .ok result) :
    ∃ selection, e.Projects items renames keepKey selection result := by
  rw [projectItems_eq] at built
  obtain ⟨selection, entries, built⟩ := bind_eq_ok.1 built
  obtain ⟨heading, keyed, built⟩ := bind_eq_ok.1 built
  injection built with built
  subst built
  exact ⟨selection, {
    entries := entries
    session := e.session_projectedSource selection.selected renames keepKey
    operator := rfl
    heading := keyed
    columns := rfl
    restrictions := rfl
    restricting := rfl
    distinct := rfl }⟩

/-- The scope in which an expression reads its own restrictions. -/
def Expression.scope (e : Expression) (checked : Bool) : Scope := ⟨e.heading, e.session, checked⟩

/-- An accepted restriction compiles on its own and mentions visible attributes only. -/
theorem Expression.validate_ok {e : Expression} {restriction : Restriction} {compiled : Compiled}
    (accepted : e.validate restriction = .ok compiled) :
    ((restriction.compile (e.scope e.session.config.semanticCheck) false).run
        AliasCount.zero).1 = .ok compiled ∧
      ∀ name ∈ compiled.columns, name ∈ e.heading.names := by
  unfold Expression.validate at accepted
  obtain ⟨first, rendered, accepted⟩ := bind_eq_ok.1 accepted
  obtain ⟨known, same⟩ := Heading.known_eq_ok.1 accepted
  injection same with same
  exact same ▸ ⟨rendered, known⟩

/-- The expression that a further restriction is recorded on. -/
def Expression.restrictedSource (e : Expression) : Expression :=
  if !e.operator.isGrouping && e.heading.hasDerived then e.asSubquery else e

/-- The source of a recorded restriction is wrapped, or it needs no wrapping. -/
theorem Expression.restrictedSource_cases (e : Expression) :
    e.restrictedSource = e.asSubquery ∨
      (e.restrictedSource = e ∧ (e.operator.isGrouping = true ∨ e.heading.hasDerived = false)) := by
  unfold Expression.restrictedSource
  split
  · exact .inl rfl
  · rename_i direct
    exact .inr ⟨rfl, by simpa [or_iff_not_imp_left] using direct⟩

/-- A restriction that always holds changes nothing and any other one is recorded. -/
theorem Expression.restrict_ok {e result : Expression} {restriction : Restriction}
    (built : e.restrict restriction = .ok result) :
    ∃ compiled, e.validate restriction = .ok compiled ∧
      ((compiled.condition.isConstant true = true ∧ result = e) ∨
        (compiled.condition.isConstant true = false ∧
          result = e.restrictedSource.record restriction compiled.columns)) := by
  unfold Expression.restrict at built
  obtain ⟨compiled, accepted, built⟩ := bind_eq_ok.1 built
  refine ⟨compiled, accepted, ?_⟩
  unfold Expression.restrictedSource
  cases holds : compiled.condition.isConstant true with
  | true =>
      rw [holds, if_pos rfl] at built
      injection built with same
      exact .inl ⟨rfl, same.symm⟩
  | false =>
      rw [holds, if_neg Bool.false_ne_true] at built
      refine .inr ⟨rfl, ?_⟩
      split at built <;> rename_i source <;> injection built with same
      · rw [if_pos source, same]
      · rw [if_neg source, same]

/-- A restriction without a subquery is recorded on the expression itself. -/
theorem Expression.restrictDirectly_ok {e result : Expression} {restriction : Restriction}
    (built : e.restrictDirectly restriction = .ok result) :
    ∃ compiled, e.validate restriction = .ok compiled ∧
      ((compiled.condition.isConstant true = true ∧ result = e) ∨
        (compiled.condition.isConstant true = false ∧
          result = e.record restriction compiled.columns ∧
          (e.operator.isGrouping = false →
            ∀ name ∈ compiled.columns, name ∉ e.heading.derived))) := by
  unfold Expression.restrictDirectly at built
  obtain ⟨compiled, accepted, built⟩ := bind_eq_ok.1 built
  refine ⟨compiled, accepted, ?_⟩
  cases holds : compiled.condition.isConstant true with
  | true =>
      rw [holds, if_pos rfl] at built
      injection built with same
      exact .inl ⟨rfl, same.symm⟩
  | false =>
      rw [holds, if_neg Bool.false_ne_true] at built
      cases grouping : e.operator.isGrouping with
      | true =>
          rw [grouping, if_pos rfl] at built
          injection built with same
          exact .inr ⟨rfl, same.symm, by simp⟩
      | false =>
          rw [grouping, if_neg Bool.false_ne_true] at built
          split at built
          · contradiction
          · rename_i none_derived
            injection built with same
            refine .inr ⟨rfl, same.symm, fun _ name inside => ?_⟩
            simpa using List.find?_eq_none.1 none_derived name inside

section Preservation

variable {holds : Expression → Prop} {e result : Expression} {restriction : Restriction}

/-- What subqueries and recorded restrictions keep is kept by every restriction. -/
theorem Expression.restrict_preserves (built : e.restrict restriction = .ok result)
    (before : holds e) (wrapped : holds e.asSubquery)
    (recorded : ∀ source mentioned, holds source → holds (source.record restriction mentioned)) :
    holds result := by
  obtain ⟨compiled, _, ⟨_, rfl⟩ | ⟨_, rfl⟩⟩ := restrict_ok built
  · exact before
  · refine recorded e.restrictedSource compiled.columns ?_
    rcases e.restrictedSource_cases with subquery | ⟨direct, _⟩
    · rw [subquery]
      exact wrapped
    · rw [direct]
      exact before

theorem Expression.restrictDirectly_preserves (built : e.restrictDirectly restriction = .ok result)
    (before : holds e)
    (recorded : ∀ mentioned, holds e → holds (e.record restriction mentioned)) :
    holds result := by
  obtain ⟨compiled, _, ⟨_, rfl⟩ | ⟨_, rfl, _⟩⟩ := restrictDirectly_ok built
  · exact before
  · exact recorded compiled.columns before

end Preservation

/-- An aggregation groups a join of the base with its partner. -/
theorem Expression.aggregateItems_ok {base group result : Expression}
    {items : List ProjectionItem} {renames : Renames} {keepAll : Bool}
    (built : base.aggregateItems group items renames keepAll = .ok result) :
    ∃ joined keyed selection heading,
      base.joinAs group ⟨keepAll, base.session.config.semanticCheck, false⟩ = .ok joined ∧
      joined.heading.rekey base.heading.primaryKey = .ok keyed ∧
      keyed.selection items renames base.heading.primaryKey = .ok selection ∧
      keyed.project (selection.selected.filter (base.heading.lends items)) renames none =
        .ok heading ∧
      result = joined.grouped heading := by
  unfold Expression.aggregateItems at built
  obtain ⟨joined, join, built⟩ := bind_eq_ok.1 built
  obtain ⟨keyed, rekeyed, built⟩ := bind_eq_ok.1 built
  obtain ⟨selection, entries, built⟩ := bind_eq_ok.1 built
  obtain ⟨heading, projected, built⟩ := bind_eq_ok.1 built
  injection built with same
  exact ⟨joined, keyed, selection, heading, join, rekeyed, entries, projected, same.symm⟩

/-- The expression whose rows a grouping on a key collects. -/
def Expression.groupedSource (e : Expression) : Expression :=
  if e.needsSubquery then e.asSubquery else e

theorem Expression.needsSubquery_groupedSource (e : Expression) :
    e.groupedSource.needsSubquery = false := by
  unfold Expression.groupedSource
  split
  · exact e.needsSubquery_asSubquery
  · simp_all

theorem Expression.names_groupedSource (e : Expression) :
    e.groupedSource.heading.names = e.heading.names := by
  unfold groupedSource
  split
  · exact e.names_asSubquery
  · rfl

theorem Expression.groupOver_ok {e result : Expression} {key : List String} {renames : Renames}
    (built : e.groupOver key renames = .ok result) :
    ∃ heading, e.groupedSource.heading.project key renames (some key) = .ok heading ∧
      result = e.groupedSource.grouped heading := by
  unfold Expression.groupOver at built
  obtain ⟨heading, projected, built⟩ := bind_eq_ok.1 built
  injection built with same
  exact ⟨heading, projected, same.symm⟩

/-- The operands of a union show the same names and have no attribute outside the key. -/
theorem Expression.union_ok {left right result : Expression}
    (built : left.union right = .ok result) :
    left.session.same right.session = true ∧
      sortedNames left.heading.names = sortedNames right.heading.names ∧
      left.heading.secondary = [] ∧ right.heading.secondary = [] ∧
      result = Expression.plain left.session (.union left right)
        left.heading.asColumns.visiblePart left.heading.asColumns.visiblePart := by
  unfold Expression.union at built
  obtain ⟨sameSession, built⟩ := guard_eq_ok.1 built
  obtain ⟨sameNames, built⟩ := guard_eq_ok.1 built
  obtain ⟨leftKey, built⟩ := guard_eq_ok.1 built
  obtain ⟨rightKey, built⟩ := guard_eq_ok.1 built
  injection built with same
  refine ⟨by simpa using sameSession, not_not.1 sameNames, ?_, ?_, same.symm⟩
  · simpa using leftKey
  · simpa using rightKey

/-- Operands of one session that show the same names, all of them in the key, are united. -/
theorem Expression.union_of_names {left right : Expression}
    (sameSession : left.session.same right.session = true)
    (sameNames : sortedNames left.heading.names = sortedNames right.heading.names)
    (leftKey : left.heading.secondary = []) (rightKey : right.heading.secondary = []) :
    left.union right = .ok (Expression.plain left.session (.union left right)
      left.heading.asColumns.visiblePart left.heading.asColumns.visiblePart) := by
  unfold Expression.union
  rw [sameSession, sameNames, leftKey, rightKey, if_neg (by simp), if_neg (by simp),
    if_neg (by simp), if_neg (by simp)]
  rfl

theorem Expression.ofTable_ok {session : Session} {declaration : TableDeclaration}
    {result : Expression} (built : Expression.ofTable session declaration = .ok result) :
    ∃ heading, declaration.heading? = .ok heading ∧
      result = Expression.plain session (.table declaration.fullName) heading heading := by
  unfold Expression.ofTable at built
  obtain ⟨heading, declared, built⟩ := bind_eq_ok.1 built
  injection built with same
  exact ⟨heading, mapError_eq_ok.1 declared, same.symm⟩

end QueryAlgebra
