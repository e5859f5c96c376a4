/-
This file shows that equality of expressions is a congruence. Whatever operator is applied to
equal reachable expressions, it fails for both or has equal results.
-/
import QueryAlgebra.Proofs.DeterminedParts

namespace QueryAlgebra

mutual

theorem Restriction.members_congr : ∀ restriction other : Restriction,
    restriction.same other = true → sameRestrictions restriction.members other.members = true
  | .conjunction items => by
      intro other same
      cases other <;> simp only [Restriction.same, Bool.false_eq_true] at same
      exact membersOfAll_congr items _ same
  | .constant _ | .raw _ | .mapping _ | .record _ | .disjunction _ | .negation _
  | .semijoin _ _ | .universal _ => by
      intro other same
      cases other <;>
        simp only [Restriction.same, Bool.false_eq_true, Bool.and_eq_true, beq_iff_eq] at same
      all_goals simpa [Restriction.members, sameRestrictions, Restriction.same] using same

theorem membersOfAll_congr : ∀ items others : List Restriction,
    sameRestrictions items others = true →
      sameRestrictions (membersOfAll items) (membersOfAll others) = true
  | [] => by
      intro others same
      cases others <;> simp only [sameRestrictions, Bool.false_eq_true] at same
      exact sameRestrictions_refl []
  | first :: rest => by
      intro others same
      cases others <;>
        simp only [sameRestrictions, Bool.false_eq_true, Bool.and_eq_true] at same
      rw [membersOfAll, membersOfAll, sameRestrictions_iff]
      exact List.rel_append (sameRestrictions_iff.1 (first.members_congr _ same.1))
        (sameRestrictions_iff.1 (membersOfAll_congr rest _ same.2))

end

section Conjunctions

variable {restrictions others : List Restriction} {restriction other : Restriction}

theorem contains_congr (lists : sameRestrictions restrictions others = true)
    (same : restriction.same other = true) :
    restrictions.contains restriction = others.contains other := by
  have each := sameRestrictions_iff.1 lists
  have equal : (restriction == other) = true := same
  clear lists
  induction each with
  | nil => rfl
  | @cons first second _ _ head _ ih =>
      have paired : (first == second) = true := head
      rw [List.contains_cons, List.contains_cons, ih, BEq.congr_left equal, BEq.congr_right paired]

theorem addRestriction_congr (lists : sameRestrictions restrictions others = true)
    (same : restriction.same other = true) :
    sameRestrictions (addRestriction restrictions restriction)
      (addRestriction others other) = true := by
  unfold addRestriction
  rw [contains_congr lists same]
  split
  · exact lists
  · rw [sameRestrictions_iff]
    exact List.rel_append (sameRestrictions_iff.1 lists) (.cons same .nil)

/-- Equal restrictions are appended to equal lists in the same way. -/
theorem appendRestriction_congr (lists : sameRestrictions restrictions others = true)
    (same : restriction.same other = true) :
    sameRestrictions (appendRestriction restrictions restriction)
      (appendRestriction others other) = true := by
  have members := sameRestrictions_iff.1 (restriction.members_congr other same)
  unfold appendRestriction
  generalize restriction.members = first, other.members = second at members
  induction members generalizing restrictions others with
  | nil => exact lists
  | cons head _ ih => exact ih (addRestriction_congr lists head)

end Conjunctions

section Operators

variable {first second third fourth : Expression}

theorem Operator.same_join (left : first.same second = true) (right : third.same fourth = true)
    (keepAll : Bool) : (Operator.join first third keepAll).same (.join second fourth keepAll) := by
  simp [Operator.same, left, right]

theorem Operator.same_projection (source : first.same second = true) :
    (Operator.projection first).same (.projection second) := by
  simp [Operator.same, source]

theorem Operator.same_grouping (source : first.same second = true) :
    (Operator.grouping first).same (.grouping second) := by
  simp [Operator.same, source]

theorem Operator.same_union (left : first.same second = true) (right : third.same fourth = true) :
    (Operator.union first third).same (.union second fourth) := by
  simp [Operator.same, left, right]

theorem Operator.same_subquery (inner : first.same second = true) :
    (Operator.subquery first).same (.subquery second) := by
  simp [Operator.same, inner]

end Operators

/-- Equal expressions of one session with equal hidden parts. -/
structure Expression.Twins (first second : Expression) : Prop where
  session : first.session = second.session
  same : first.same second = true
  hides : first.Hides second

namespace Expression.Twins

variable {first second third fourth : Expression}

theorem resembles (twins : first.Twins second) : first.Resembles second :=
  resembles_of_same twins.same

theorem heading (twins : first.Twins second) : first.heading.Reorders second.heading :=
  twins.resembles.heading

theorem refl (e : Expression) : e.Twins e :=
  ⟨rfl, e.same_refl, .refl _, fun _ => .rfl⟩

/-- Expressions are twins when they are built from equal parts. -/
theorem of_parts {operator operator' : Operator} {heading heading' columns columns' : Heading}
    {restrictions restrictions' : List Restriction} {restricting restricting' : NameSet}
    (session : Session) (distinct : Bool) (operators : operator.same operator' = true)
    (headings : heading.Reorders heading') (read : columns.Reorders columns')
    (restricted : sameRestrictions restrictions restrictions' = true)
    (names : ∀ name, name ∈ restricting ↔ name ∈ restricting') :
    Twins ⟨session, operator, heading, columns, restrictions, restricting, distinct⟩
      ⟨session, operator', heading', columns', restrictions', restricting', distinct⟩ := by
  refine ⟨rfl, ?_, read, names⟩
  rw [same_eq, operators, restricted, (Heading.beq_iff_perm _ _).2 headings]
  simp [Session.same]

theorem plain {operator operator' : Operator} {heading heading' columns columns' : Heading}
    (session : Session) (operators : operator.same operator' = true)
    (headings : heading.Reorders heading') (read : columns.Reorders columns') :
    (Expression.plain session operator heading columns).Twins
      (Expression.plain session operator' heading' columns') :=
  of_parts session false operators headings read (sameRestrictions_refl []) fun _ => .rfl

theorem needsSubquery (twins : first.Twins second) :
    first.needsSubquery = second.needsSubquery := by
  have resembles := twins.resembles
  rw [Expression.needsSubquery, Expression.needsSubquery, resembles.distinct,
    (Operator.kind_congr resembles.operator).1, twins.heading.hasDerived]

theorem asSubquery (twins : first.Twins second) : first.asSubquery.Twins second.asSubquery := by
  have shown := twins.heading.asColumns
  unfold Expression.asSubquery
  rw [twins.session]
  exact plain second.session (Operator.same_subquery twins.same) shown shown

theorem isEmpty_restrictions (twins : first.Twins second) :
    first.restrictions.isEmpty = second.restrictions.isEmpty := by
  have length := (sameRestrictions_iff.1 (sameRestrictions_of_same twins.same)).length_eq
  rw [Bool.eq_iff_iff, List.isEmpty_iff_length_eq_zero, List.isEmpty_iff_length_eq_zero, length]

theorem joinOperand (twins : first.Twins second) (overlapping : Bool) :
    (first.joinOperand overlapping).Twins (second.joinOperand overlapping) := by
  unfold Expression.joinOperand
  rw [twins.needsSubquery, twins.isEmpty_restrictions]
  split
  · exact twins.asSubquery
  · exact twins

theorem overlaps (left : first.Twins second) (right : third.Twins fourth) :
    first.overlaps third = second.overlaps fourth := by
  have common : (third.heading.common first.heading).contains =
      (fourth.heading.common second.heading).contains :=
    funext fun name => (right.heading.common left.heading).contains_eq
  have known : third.columns.allNames.contains = fourth.columns.allNames.contains :=
    funext fun name => right.hides.columns.allNames.contains_eq
  unfold Expression.overlaps
  dsimp only
  rw [common, known, left.hides.columns.allNames.any_eq]

theorem joinAs (left : first.Twins second) (right : third.Twins fourth) (mode : JoinMode) :
    Concurs Twins (first.joinAs third mode) (second.joinAs fourth mode) := by
  have operand := left.joinOperand (second.overlaps fourth)
  have operand' := right.joinOperand (second.overlaps fourth)
  unfold Expression.joinAs
  refine .guard (by rw [left.session, right.session]) ?_
  refine .when (left.heading.homologous right.heading) ?_
  refine .guard (by rw [left.heading.determines right.heading]) ?_
  rw [left.overlaps right]
  refine .bind (operand.heading.join operand'.heading (left.heading.joinKey right.heading))
    fun heading heading' headings => ?_
  refine .bind (operand.hides.columns.join operand'.hides.columns (.refl []))
    fun columns columns' read => ?_
  rw [operand.session, Expression.restrictions_joinOperand, Expression.restrictions_joinOperand,
    Expression.restrictions_joinOperand, Expression.restrictions_joinOperand]
  refine .given (of_parts _ false (Operator.same_join operand.same operand'.same mode.keepAll)
    headings read (sameRestrictions_refl []) fun name => ?_)
  rw [NameSet.mem_union, NameSet.mem_union, operand.hides.restricting, operand'.hides.restricting]

theorem record (twins : first.Twins second) {restriction other : Restriction}
    (same : restriction.same other = true) {mentioned mentioned' : NameSet}
    (columns : ∀ name, name ∈ mentioned ↔ name ∈ mentioned') :
    (first.record restriction mentioned).Twins (second.record other mentioned') := by
  have resembles := twins.resembles
  have restricted := appendRestriction_congr (sameRestrictions_of_same twins.same) same
  have names : ∀ name, name ∈ first.restricting.union mentioned ↔
      name ∈ second.restricting.union mentioned' := fun name => by
    rw [NameSet.mem_union, NameSet.mem_union, twins.hides.restricting, columns]
  unfold Expression.record
  rw [twins.session, resembles.distinct]
  exact of_parts second.session second.distinct resembles.operator twins.heading
    twins.hides.columns restricted names

theorem validate (twins : first.Twins second) {restriction other : Restriction}
    (same : restriction.same other = true) :
    Concurs Compiled.Alike (first.validate restriction) (second.validate other) := by
  have scopes : Scope.Alike
      ⟨first.heading, second.session, second.session.config.semanticCheck⟩
      (second.scope second.session.config.semanticCheck) :=
    ⟨twins.heading, beq_self_eq_true _, rfl⟩
  unfold Expression.validate
  rw [twins.session]
  refine .bind (restriction.compile_parallels scopes other same false).fresh
    fun compiled compiled' alike => ?_
  rw [twins.heading.contains]
  rcases find?_congr (!second.heading.contains ·) alike.columns with
    ⟨missing, other, found, again⟩ | ⟨found, again⟩
  · rw [found, again]
    exact .refused _ _
  · rw [found, again]
    exact .given alike

/-- Restrictions see nothing that equality does not see. -/
theorem restrict (twins : first.Twins second) {restriction other : Restriction}
    (same : restriction.same other = true) :
    Concurs Twins (first.restrict restriction) (second.restrict other) := by
  unfold Expression.restrict
  refine .bind (twins.validate same) fun compiled compiled' alike => ?_
  rw [alike.condition.isConstant, (Operator.kind_congr twins.resembles.operator).1,
    twins.heading.hasDerived]
  split
  · exact .given twins
  · split
    · exact .given (twins.asSubquery.record same alike.columns)
    · exact .given (twins.record same alike.columns)

theorem restrictDirectly (twins : first.Twins second) {restriction other : Restriction}
    (same : restriction.same other = true) :
    Concurs Twins (first.restrictDirectly restriction) (second.restrictDirectly other) := by
  have derived : first.heading.derived.contains = second.heading.derived.contains :=
    funext fun name => twins.heading.derived.contains_eq
  unfold Expression.restrictDirectly
  refine .bind (twins.validate same) fun compiled compiled' alike => ?_
  rw [alike.condition.isConstant, (Operator.kind_congr twins.resembles.operator).1, derived]
  split
  · exact .given twins
  · split
    · exact .given (twins.record same alike.columns)
    · rcases find?_congr second.heading.derived.contains alike.columns with
        ⟨name, other, found, again⟩ | ⟨found, again⟩
      · rw [found, again]
        exact .refused _ _
      · rw [found, again]
        exact .given (twins.record same alike.columns)

theorem projectedSource (twins : first.Twins second) {selected selected' : List String}
    (names : ∀ name, name ∈ selected ↔ name ∈ selected') (renames : Renames) (keepKey : Bool) :
    (first.projectedSource selected renames keepKey).Twins
      (second.projectedSource selected' renames keepKey) ∧
        first.losesKey selected renames keepKey = second.losesKey selected' renames keepKey := by
  have retained : (first.heading.retained selected renames).contains =
      (second.heading.retained selected' renames).contains := by
    funext name
    rw [Bool.eq_iff_iff, List.contains_iff_mem, List.contains_iff_mem, Heading.retained,
      Heading.retained, List.mem_append, List.mem_append, names, twins.heading.renamings]
  have key : first.losesKey selected renames keepKey =
      second.losesKey selected' renames keepKey := by
    rw [losesKey, losesKey, retained, twins.heading.primaryKey.all_eq]
  have restriction : first.losesRestriction selected = second.losesRestriction selected' := by
    have kept : selected.contains = selected'.contains := by
      funext name
      rw [Bool.eq_iff_iff, List.contains_iff_mem, List.contains_iff_mem, names]
    have dropped : (first.heading.names.filter (!selected'.contains ·)).contains =
        (second.heading.names.filter (!selected'.contains ·)).contains :=
      funext fun name => (twins.heading.names.filter _).contains_eq
    rw [losesRestriction, losesRestriction, kept, dropped, Bool.eq_iff_iff, List.any_eq_true,
      List.any_eq_true]
    exact exists_congr fun name => and_congr_left fun _ => twins.hides.restricting name
  refine ⟨?_, key⟩
  unfold Expression.projectedSource
  rw [key, restriction, twins.needsSubquery]
  split
  · exact twins.asSubquery
  · exact twins

theorem projectItems (twins : first.Twins second) (items : List ProjectionItem)
    (renames : Renames) (keepKey : Bool) :
    Concurs Twins (first.projectItems items renames keepKey)
      (second.projectItems items renames keepKey) := by
  have kept : (if keepKey then first.heading.primaryKey else []).Perm
      (if keepKey then second.heading.primaryKey else []) := by
    split
    · exact twins.heading.primaryKey
    · exact .refl []
  rw [projectItems_eq, projectItems_eq]
  refine .bind (twins.heading.selection items renames kept) fun selection selection' agrees => ?_
  obtain ⟨sources, key⟩ := twins.projectedSource agrees.selected renames keepKey
  refine .bind (sources.heading.projectKeyed agrees.selected renames keepKey)
    fun heading heading' headings => ?_
  rw [key, sources.session]
  exact .given (of_parts _ _ (Operator.same_projection sources.same) headings
    sources.hides.columns (sameRestrictions_of_same sources.same) sources.hides.restricting)

theorem grouped (twins : first.Twins second) {heading heading' : Heading}
    (headings : heading.Reorders heading') :
    (first.grouped heading).Twins (second.grouped heading') := by
  unfold Expression.grouped
  rw [twins.session]
  exact plain second.session (Operator.same_grouping twins.same) headings headings

theorem aggregateItems (base : first.Twins second) (group : third.Twins fourth)
    (items : List ProjectionItem) (renames : Renames) (keepAll : Bool) :
    Concurs Twins (first.aggregateItems third items renames keepAll)
      (second.aggregateItems fourth items renames keepAll) := by
  have lends : first.heading.lends items = second.heading.lends items := by
    funext name
    rw [Heading.lends, Heading.lends, base.heading.primaryKey.contains_eq,
      base.heading.secondary.contains_eq]
  unfold Expression.aggregateItems
  rw [base.session]
  refine .bind (base.joinAs group _) fun joined joined' twins => ?_
  have key := base.heading.primaryKey
  refine .bind (twins.heading.rekey key) fun keyed keyed' rekeyed => ?_
  refine .bind (rekeyed.selection items renames key) fun selection selection' agrees => ?_
  rw [lends]
  refine .bind (rekeyed.project (fun name => ?_) renames none) fun heading heading' headings =>
    .given (twins.grouped headings)
  rw [List.mem_filter, List.mem_filter, agrees.selected]

theorem groupOver (twins : first.Twins second) (key : List String) (renames : Renames) :
    Concurs Twins (first.groupOver key renames) (second.groupOver key renames) := by
  have sources : first.groupedSource.Twins second.groupedSource := by
    unfold Expression.groupedSource
    rw [twins.needsSubquery]
    split
    · exact twins.asSubquery
    · exact twins
  exact .bind (sources.heading.project (fun _ => .rfl) renames (some key))
    fun _ _ headings => .given (sources.grouped headings)

theorem union (left : first.Twins second) (right : third.Twins fourth) :
    Concurs Twins (first.union third) (second.union fourth) := by
  have shown := left.heading.asColumns
  unfold Expression.union
  refine .guard (by rw [left.session, right.session]) ?_
  refine .guard (by rw [sortedNames_congr left.heading.names,
    sortedNames_congr right.heading.names]) ?_
  refine .guard (by rw [left.heading.secondary.isEmpty_eq]) ?_
  refine .guard (by rw [right.heading.secondary.isEmpty_eq]) ?_
  rw [left.session]
  exact .given (plain second.session (Operator.same_union left.same right.same) shown shown)

end Expression.Twins

/-- A restriction with a place for the partner of a semijoin, at any depth. -/
inductive Frame where
  | semijoin (checked : Bool)
  | negation (inner : Frame)
  | disjunction (before : List Restriction) (inner : Frame) (after : List Restriction)
  | conjunction (before : List Restriction) (inner : Frame) (after : List Restriction)

def Frame.fill (partner : Expression) : Frame → Restriction
  | .semijoin checked => .semijoin partner checked
  | .negation inner => .negation (inner.fill partner)
  | .disjunction before inner after => .disjunction (before ++ inner.fill partner :: after)
  | .conjunction before inner after => .conjunction (before ++ inner.fill partner :: after)

/-- An operator that is given all operands but one. -/
inductive Application where
  | restrict (restriction : Restriction)
  | restrictDirectly (restriction : Restriction)
  | partner (source : Expression) (frame : Frame)
  | partnerDirectly (source : Expression) (frame : Frame)
  | joinLeft (right : Expression) (mode : JoinMode)
  | joinRight (left : Expression) (mode : JoinMode)
  | project (items : List ProjectionItem) (renames : Renames) (keepKey : Bool)
  | aggregateBase (group : Expression) (items : List ProjectionItem) (renames : Renames)
      (keepAll : Bool)
  | aggregateGroup (base : Expression) (items : List ProjectionItem) (renames : Renames)
      (keepAll : Bool)
  | groupOver (key : List String) (renames : Renames)
  | unionLeft (right : Expression)
  | unionRight (left : Expression)
  | subquery

def Application.apply (e : Expression) : Application → Except Fault Expression
  | .restrict restriction => e.restrict restriction
  | .restrictDirectly restriction => e.restrictDirectly restriction
  | .partner source frame => source.restrict (frame.fill e)
  | .partnerDirectly source frame => source.restrictDirectly (frame.fill e)
  | .joinLeft right mode => e.joinAs right mode
  | .joinRight left mode => left.joinAs e mode
  | .project items renames keepKey => e.projectItems items renames keepKey
  | .aggregateBase group items renames keepAll => e.aggregateItems group items renames keepAll
  | .aggregateGroup base items renames keepAll => base.aggregateItems e items renames keepAll
  | .groupOver key renames => e.groupOver key renames
  | .unionLeft right => e.union right
  | .unionRight left => left.union e
  | .subquery => .ok e.asSubquery

section Congruence

variable {first second : Expression}

theorem sameRestrictions_around {restriction other : Restriction}
    (same : restriction.same other = true) (before after : List Restriction) :
    sameRestrictions (before ++ restriction :: after) (before ++ other :: after) = true :=
  sameRestrictions_iff.2 (List.rel_append (sameRestrictions_iff.1 (sameRestrictions_refl before))
    (.cons same (sameRestrictions_iff.1 (sameRestrictions_refl after))))

theorem Frame.fill_congr (same : first.same second = true) (frame : Frame) :
    (frame.fill first).same (frame.fill second) = true := by
  induction frame with
  | semijoin checked => simp [fill, Restriction.same, same]
  | negation inner ih => simpa [fill, Restriction.same] using ih
  | disjunction before inner after ih =>
      simpa [fill, Restriction.same] using sameRestrictions_around ih before after
  | conjunction before inner after ih =>
      simpa [fill, Restriction.same] using sameRestrictions_around ih before after

/-- Every operator takes twins to twins, or fails for both. -/
theorem Expression.Twins.apply (twins : first.Twins second) (application : Application) :
    Concurs Twins (application.apply first) (application.apply second) := by
  cases application with
  | restrict restriction => exact twins.restrict restriction.same_refl
  | restrictDirectly restriction => exact twins.restrictDirectly restriction.same_refl
  | partner source frame => exact (refl source).restrict (frame.fill_congr twins.same)
  | partnerDirectly source frame =>
      exact (refl source).restrictDirectly (frame.fill_congr twins.same)
  | joinLeft right mode => exact twins.joinAs (refl right) mode
  | joinRight left mode => exact (refl left).joinAs twins mode
  | project items renames keepKey => exact twins.projectItems items renames keepKey
  | aggregateBase group items renames keepAll =>
      exact twins.aggregateItems (refl group) items renames keepAll
  | aggregateGroup base items renames keepAll =>
      exact (refl base).aggregateItems twins items renames keepAll
  | groupOver key renames => exact twins.groupOver key renames
  | unionLeft right => exact twins.union (refl right)
  | unionRight left => exact (refl left).union twins
  | subquery => exact .given twins.asSubquery

/-- Operators that are applied one after another take twins to twins, or fail for both. -/
theorem Expression.Twins.applyAll (twins : first.Twins second)
    (applications : List Application) :
    Concurs Twins (applications.foldlM Application.apply first)
      (applications.foldlM Application.apply second) := by
  induction applications generalizing first second with
  | nil => exact .given twins
  | cons application rest ih =>
      rw [List.foldlM_cons, List.foldlM_cons]
      exact .bind (twins.apply application) fun _ _ => ih

end Congruence

/-- Equality of expressions is an equivalence. Equal reachable expressions of one session have
equal columns and the same restricting attributes, and an operator that is applied to them fails
for both or gives equal results. -/
theorem Reachable.equality_congruent {session : Session} {first second : Expression}
    (reached : Reachable (· = session) first) (reached' : Reachable (· = session) second) :
    (first == first) = true ∧ ((first == second) = true → (second == first) = true) ∧
      (∀ third, (first == second) = true → (second == third) = true → (first == third) = true) ∧
      ((first == second) = true →
        (first.columns == second.columns) = true ∧
        (∀ name, name ∈ first.restricting ↔ name ∈ second.restricting) ∧
        ∀ application : Application, Concurs (fun result other => (result == other) = true)
          (application.apply first) (application.apply second)) := by
  refine ⟨BEq.rfl, BEq.symm, fun third => BEq.trans, fun equal => ?_⟩
  have same : first.same second = true := equal
  have hides := reached.hides first second reached' same
  have sessions : first.session = second.session :=
    reached.session_mem.trans reached'.session_mem.symm
  have twins : first.Twins second := ⟨sessions, same, hides⟩
  refine ⟨(Heading.beq_iff_perm _ _).2 hides.columns, hides.restricting, fun application => ?_⟩
  have concurs := twins.apply application
  generalize application.apply first = result, application.apply second = other at concurs
  cases concurs with
  | refused fault fault' => exact .refused fault fault'
  | given alike => exact .given alike.same

/-- Two orders of computed values are equal, and so are their joins with the entries. -/
theorem Reachable.equality_congruent_of_computed :
    ∃ first second entries result : Expression, Reachable (· = laboratory) first ∧
      Reachable (· = laboratory) second ∧ Reachable (· = laboratory) entries ∧
      first.heading.names = ["subject_id", "low", "up"] ∧
      second.heading.names = ["subject_id", "up", "low"] ∧
      first.joinAs entries ⟨false, true, true⟩ = .ok result ∧
      Concurs (fun result other => (result == other) = true)
        (first.joinAs entries ⟨false, true, true⟩) (second.joinAs entries ⟨false, true, true⟩) := by
  have subjects := @Reachable.table (· = laboratory) laboratory subjectDeclaration _ rfl rfl
  have entries := @Reachable.table (· = laboratory) laboratory logDeclaration _ rfl rfl
  have first := @Reachable.project (· = laboratory) _ _ []
    (Renames.ofList [("low", "lower(species)"), ("up", "upper(species)")]) true subjects rfl
  have second := @Reachable.project (· = laboratory) _ _ []
    (Renames.ofList [("up", "upper(species)"), ("low", "lower(species)")]) true subjects rfl
  have congruent : ∀ {first second : Expression}, Reachable (· = laboratory) first →
      Reachable (· = laboratory) second → (first == second) = true →
        ∀ entries, Concurs (fun result other => (result == other) = true)
          (first.joinAs entries ⟨false, true, true⟩)
          (second.joinAs entries ⟨false, true, true⟩) :=
    fun first second equal entries =>
      ((first.equality_congruent second).2.2.2 equal).2.2 (.joinLeft entries ⟨false, true, true⟩)
  refine ⟨_, _, _, _, first, second, entries, by decide +kernel, by decide +kernel, rfl,
    congruent first second ?_ _⟩
  decide +kernel

end QueryAlgebra
