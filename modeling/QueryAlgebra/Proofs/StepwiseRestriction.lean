/-
This file shows that a conjunction without partners restricts an expression like its items do, one
after another. Together they are checked and placed once, and one by one each of them is.
-/
import QueryAlgebra.Proofs.IgnoredMembers

namespace QueryAlgebra

section Collected

theorem mem_membersOfAll_of_collected {items : List Restriction} {member : Restriction}
    (collected : member ∈ extendRestrictions [] items) : member ∈ membersOfAll items := by
  rw [extendRestrictions_eq_append] at collected
  have listed := (mem_of_appendRestriction collected).resolve_left List.not_mem_nil
  rwa [Restriction.members] at listed

/-- Every member is collected up to equality. -/
theorem exists_collected {items : List Restriction} {member : Restriction}
    (listed : member ∈ membersOfAll items) :
    ∃ other ∈ extendRestrictions [] items, (member == other) = true := by
  apply List.contains_iff_exists_mem_beq.1
  rw [extendRestrictions_eq_foldl, contains_foldl_addRestriction, List.contains_nil,
    Bool.false_or]
  exact List.contains_iff_exists_mem_beq.2 ⟨member, listed, BEq.rfl⟩

/-- A conjunction of collected members adds what its items add. -/
theorem appendRestriction_all (restrictions items : List Restriction) :
    appendRestriction restrictions (.all items) = extendRestrictions restrictions items := by
  have alone : ∀ member ∈ extendRestrictions [] items, member.members = [member] :=
    fun member collected =>
      members_of_memberOfAll items (mem_membersOfAll_of_collected collected)
  rw [appendRestriction, Restriction.all, Restriction.members, membersOfAll_of_members alone,
    extendRestrictions_eq_foldl, extendRestrictions_eq_foldl, foldl_addRestriction_collected,
    List.foldl_nil]

end Collected

section Whole

variable {e : Expression} {items : List Restriction}

theorem Expression.admits_all : e.Admits (.all items) ↔ ∀ item ∈ items, e.Admits item := by
  have members : (∀ item ∈ items, e.Admits item) ↔
      ∀ member ∈ membersOfAll items, e.Admits member := by
    rw [← admits_conjunction, admits_iff_members, Restriction.members]
  rw [Restriction.all, admits_conjunction, members]
  constructor
  · intro each member listed
    obtain ⟨other, collected, equal⟩ := exists_collected listed
    exact (admits_congr equal).2 (each other collected)
  · intro each member collected
    exact each member (mem_membersOfAll_of_collected collected)

/-- A conjunction is ignored when all of its items are. -/
theorem Expression.ignores_all (alone : ∀ item ∈ items, item.Unpartnered)
    (admitted : ∀ item ∈ items, e.Admits item) :
    e.ignores (.all items) = items.all e.ignores := by
  have whole := Restriction.unpartnered_conjunction.2 alone
  have plain : ∀ member ∈ extendRestrictions [] items, member.Unpartnered := by
    intro member collected
    apply whole.member
    rw [Restriction.members]
    exact mem_membersOfAll_of_collected collected
  have fine : ∀ member ∈ extendRestrictions [] items, e.Admits member :=
    admits_conjunction.1 (admits_all.2 admitted)
  rw [ignores, Restriction.all, reading_conjunction plain fine,
    Condition.isConstant_conjunction, List.all_map, all_ignores_eq_members items alone admitted,
    Bool.eq_iff_iff, List.all_eq_true, List.all_eq_true]
  constructor
  · intro each member listed
    obtain ⟨other, collected, equal⟩ := exists_collected listed
    rw [ignores_congr equal]
    exact each other collected
  · intro each member collected
    exact each member (mem_membersOfAll_of_collected collected)

end Whole

/-- The same expression under other restrictions. -/
def Expression.withRestrictions (e : Expression) (restrictions : List Restriction)
    (mentioned : NameSet) : Expression :=
  { e with
    restrictions := restrictions
    restricting := mentioned }

section Added

variable {e : Expression} {items : List Restriction}

/-- What items add is admitted like the items themselves and has no partners either. -/
theorem Expression.exists_extendRestrictions (alone : ∀ item ∈ items, item.Unpartnered)
    (admitted : ∀ item ∈ items, e.Admits item) (restrictions : List Restriction) :
    ∃ added, extendRestrictions restrictions items = restrictions ++ added ∧
      (∀ restriction ∈ added, restriction.Unpartnered) ∧
      ∀ restriction ∈ added, e.Admits restriction := by
  obtain ⟨added, whole, drawn, _⟩ :=
    exists_appendRestriction restrictions (.conjunction items)
  refine ⟨added, (extendRestrictions_eq_append restrictions items).trans whole, ?_, ?_⟩
  · intro restriction inside
    exact (Restriction.unpartnered_conjunction.2 alone).member (drawn restriction inside)
  · intro restriction inside
    exact admits_iff_members.1 (admits_conjunction.2 admitted) restriction
      (drawn restriction inside)

/-- Items that are ignored add nothing but what is ignored. -/
theorem Expression.filter_extendRestrictions (alone : ∀ item ∈ items, item.Unpartnered)
    (admitted : ∀ item ∈ items, e.Admits item) (restrictions : List Restriction) :
    (extendRestrictions restrictions (items.filter (!e.ignores ·))).filter (!e.ignores ·) =
      (extendRestrictions restrictions items).filter (!e.ignores ·) := by
  have congr : ∀ first second : Restriction, (first == second) = true →
      (!e.ignores first) = !e.ignores second := by
    intro first second equal
    rw [ignores_congr equal]
  rw [extendRestrictions_eq_foldl, extendRestrictions_eq_foldl, filter_foldl_addRestriction congr,
    filter_foldl_addRestriction congr, filter_membersOfAll alone admitted]

end Added

section Steps

variable {e whole last : Expression} {items : List Restriction}

/-- Steps succeed when the expression admits all of them from the beginning. -/
theorem Expression.exists_steps_iff :
    (∃ last, items.foldlM Expression.restrict e = .ok last) ↔
      ∀ item ∈ items, e.Admits item := by
  induction items generalizing e with
  | nil => exact ⟨fun _ => List.forall_mem_nil _, fun _ => ⟨e, rfl⟩⟩
  | cons first rest ih =>
      have later : ∀ compiled, (∀ item ∈ rest, (e.restrictedBy first compiled).Admits item) ↔
          ∀ item ∈ rest, e.Admits item := by
        intro compiled
        unfold Admits
        simp only [validate_restrictedBy]
      rw [List.forall_mem_cons]
      constructor
      · rintro ⟨last, built⟩
        rw [List.foldlM_cons] at built
        obtain ⟨next, step, run⟩ := bind_eq_ok.1 built
        obtain ⟨compiled, accepted, rfl⟩ := restrict_eq_ok.1 step
        exact ⟨⟨compiled, accepted⟩, (later compiled).1 (ih.1 ⟨last, run⟩)⟩
      · rintro ⟨⟨compiled, accepted⟩, others⟩
        obtain ⟨last, run⟩ := ih.2 ((later compiled).2 others)
        refine ⟨last, ?_⟩
        rw [List.foldlM_cons]
        exact bind_eq_ok.2 ⟨_, restrict_eq_ok.2 ⟨compiled, accepted, rfl⟩, run⟩

/-- What steps leave behind is the expression itself or its source under the restrictions that
were not ignored. -/
theorem Expression.steps_eq_ok (built : items.foldlM Expression.restrict e = .ok last) :
    (items.all e.ignores = true ∧ last = e) ∨
      (items.all e.ignores = false ∧ ∃ mentioned,
        last = e.restrictedSource.withRestrictions
          (extendRestrictions e.restrictedSource.restrictions (items.filter (!e.ignores ·)))
          mentioned) := by
  induction items generalizing e with
  | nil => exact .inl ⟨rfl, (Except.ok.inj built).symm⟩
  | cons first rest ih =>
      rw [List.foldlM_cons] at built
      obtain ⟨next, step, run⟩ := bind_eq_ok.1 built
      obtain ⟨compiled, accepted, rfl⟩ := restrict_eq_ok.1 step
      have ignored : e.ignores first = compiled.condition.isConstant true := by
        rw [ignores, reading_of_validate accepted]
      cases holds : compiled.condition.isConstant true with
      | true =>
          rw [restrictedBy_of_true holds] at run
          rw [List.all_cons, List.filter_cons_of_neg (by simp [ignored, holds]), ignored, holds,
            Bool.true_and]
          exact ih run
      | false =>
          -- the source of the first recorded item stays the source of all later ones
          have same : (e.restrictedBy first compiled).ignores = e.ignores :=
            ignores_of_validate (funext validate_restrictedBy)
          have tail := ih run
          rw [same, restrictedBy_of_open holds, restrictedSource_record] at tail
          rw [List.all_cons, List.filter_cons_of_pos (by simp [ignored, holds]), ignored, holds,
            Bool.false_and]
          refine .inr ⟨rfl, ?_⟩
          rcases tail with ⟨all, rfl⟩ | ⟨_, mentioned, rfl⟩
          · have none_left : rest.filter (!e.ignores ·) = [] := by
              rw [List.filter_eq_nil_iff]
              intro item listed
              rw [List.all_eq_true.1 all item listed]
              exact Bool.false_ne_true
            rw [none_left]
            exact ⟨_, rfl⟩
          · exact ⟨mentioned, rfl⟩

/-- What the whole conjunction leaves behind is the expression itself or its source under all of
the items. -/
theorem Expression.restrict_all_eq_ok (alone : ∀ item ∈ items, item.Unpartnered)
    (built : e.restrict (.all items) = .ok whole) :
    (items.all e.ignores = true ∧ whole = e) ∨
      (items.all e.ignores = false ∧ ∃ mentioned,
        whole = e.restrictedSource.withRestrictions
          (extendRestrictions e.restrictedSource.restrictions items) mentioned) := by
  obtain ⟨compiled, accepted, rfl⟩ := restrict_eq_ok.1 built
  have ignored : items.all e.ignores = compiled.condition.isConstant true := by
    rw [← ignores_all alone (admits_all.1 ⟨compiled, accepted⟩), ignores,
      reading_of_validate accepted]
  rw [ignored]
  cases holds : compiled.condition.isConstant true with
  | true => exact .inl ⟨rfl, restrictedBy_of_true holds⟩
  | false =>
      refine .inr ⟨rfl, e.restrictedSource.restricting.union compiled.columns, ?_⟩
      rw [restrictedBy_of_open holds, record, appendRestriction_all]
      rfl

end Steps

section Texts

theorem compileAll_append (scope : Scope) (first second : List Restriction) :
    compileAll scope (first ++ second) = (do
      let parts ← compileAll scope first
      let others ← compileAll scope second
      return parts ++ others) := by
  induction first with
  | nil =>
      rw [compileAll, pure_bind, List.nil_append]
      exact (bind_pure _).symm
  | cons head tail ih =>
      rw [List.cons_append, compileAll, ih, compileAll]
      simp only [bind_assoc, pure_bind, List.cons_append]

variable {e : Expression} {inherited added others : List Restriction}

/-- Restrictions without partners that were added behind others become their conditions. -/
theorem Expression.condition_withRestrictions (alone : ∀ item ∈ added, item.Unpartnered)
    (admitted : ∀ item ∈ added, e.Admits item) (mentioned : NameSet) :
    (e.withRestrictions (inherited ++ added) mentioned).condition
        e.session.config.semanticCheck = (do
      let parts ← compileAll (e.scope e.session.config.semanticCheck) inherited
      return Condition.conjunction false
        (parts.map (·.condition) ++ added.map e.reading)) := by
  obtain ⟨own, run, conditions⟩ := compileAll_readings alone admitted
  have whole := compileAll_append (e.scope e.session.config.semanticCheck) inherited added
  unfold withRestrictions
  rw [condition]
  change (compileAll (e.scope e.session.config.semanticCheck) (inherited ++ added) >>= _) = _
  rw [whole, run]
  simp only [bind_assoc, pure_bind, List.map_append, conditions]

/-- Lists that differ in ignored restrictions only give the same text. -/
theorem Expression.sql_withRestrictions (alone : ∀ item ∈ added, item.Unpartnered)
    (admitted : ∀ item ∈ added, e.Admits item) (alone' : ∀ item ∈ others, item.Unpartnered)
    (admitted' : ∀ item ∈ others, e.Admits item)
    (same : added.filter (!e.ignores ·) = others.filter (!e.ignores ·))
    (mentioned mentioned' : NameSet) (fields : Option (List String)) :
    (e.withRestrictions (inherited ++ added) mentioned).sql fields =
      (e.withRestrictions (inherited ++ others) mentioned').sql fields := by
  have readings : ∀ items : List Restriction,
      (items.map e.reading).filter (!Condition.isConstant true ·) =
        (items.filter (!e.ignores ·)).map e.reading := by
    intro items
    rw [List.filter_map]
    rfl
  have conditions : (e.withRestrictions (inherited ++ added) mentioned).condition
        e.session.config.semanticCheck =
      (e.withRestrictions (inherited ++ others) mentioned').condition
        e.session.config.semanticCheck := by
    rw [condition_withRestrictions alone admitted, condition_withRestrictions alone' admitted']
    -- on both sides only the conditions of what is not ignored are left
    congr 1
    funext parts
    rw [← Condition.conjunction_filter, ← Condition.conjunction_filter false (_ ++ others.map _),
      List.filter_append, List.filter_append, readings, readings, same]
  have statements : (e.withRestrictions (inherited ++ added) mentioned).statement
        e.session.config.semanticCheck fields =
      (e.withRestrictions (inherited ++ others) mentioned').statement
        e.session.config.semanticCheck fields := by
    unfold statement
    rw [conditions, origin_eq, origin_eq, sourceCondition_eq, sourceCondition_eq]
    rfl
  exact congrArg (fun rendering : Rendering Statement =>
    rendering.fresh.map (Statement.text e.session.config)) statements

/-- Items that are ignored can be left out without a trace in the text. -/
theorem Expression.sql_extendRestrictions {items : List Restriction}
    (alone : ∀ item ∈ items, item.Unpartnered) (admitted : ∀ item ∈ items, e.Admits item)
    (restrictions : List Restriction) (mentioned mentioned' : NameSet)
    (fields : Option (List String)) :
    (e.withRestrictions (extendRestrictions restrictions items) mentioned).sql fields =
      (e.withRestrictions (extendRestrictions restrictions (items.filter (!e.ignores ·)))
        mentioned').sql fields := by
  have kept : ∀ item ∈ items.filter (!e.ignores ·), item ∈ items :=
    fun item inside => (List.mem_filter.1 inside).1
  have same := filter_extendRestrictions alone admitted restrictions
  obtain ⟨added, first, plain, fine⟩ := exists_extendRestrictions alone admitted restrictions
  obtain ⟨others, second, plain', fine'⟩ :=
    exists_extendRestrictions (fun item inside => alone item (kept item inside))
      (fun item inside => admitted item (kept item inside)) restrictions
  rw [first, second, List.filter_append, List.filter_append] at same
  rw [first, second]
  exact sql_withRestrictions plain fine plain' fine' (List.append_cancel_left same).symm
    mentioned mentioned' fields

end Texts

/-- A conjunction of restrictions without partners restricts an expression exactly where its items
do one after another, and both ways end in expressions with the same SQL text or the same fault. -/
theorem Expression.restrict_all_stepwise (e : Expression) {items : List Restriction}
    (alone : ∀ item ∈ items, item.partners = []) :
    ((∃ whole, e.restrict (.all items) = .ok whole) ↔
        ∃ last, items.foldlM Expression.restrict e = .ok last) ∧
      ∀ whole last, e.restrict (.all items) = .ok whole →
        items.foldlM Expression.restrict e = .ok last →
          ∀ fields, whole.sql fields = last.sql fields := by
  refine ⟨?_, ?_⟩
  · rw [exists_restrict_iff, exists_steps_iff]
    exact admits_all
  · intro whole last built steps fields
    have admitted : ∀ item ∈ items, e.Admits item := exists_steps_iff.1 ⟨last, steps⟩
    rcases restrict_all_eq_ok alone built with ⟨all, rfl⟩ | ⟨some, mentioned, rfl⟩
    · rcases steps_eq_ok steps with ⟨_, rfl⟩ | ⟨some, _⟩
      · rfl
      · rw [all] at some
        contradiction
    · rcases steps_eq_ok steps with ⟨all, _⟩ | ⟨_, mentioned', rfl⟩
      · rw [all] at some
        contradiction
      · have source : e.restrictedSource.validate = e.validate := funext e.validate_restrictedSource
        have known : ∀ item ∈ items, e.restrictedSource.Admits item := by
          unfold Admits
          rw [source]
          exact admitted
        rw [← ignores_of_validate source]
        exact sql_extendRestrictions alone known e.restrictedSource.restrictions mentioned
          mentioned' fields

/-- A label that is asked for twice and a constant that stands alone. -/
def labelItems : List Restriction :=
  [.constant true, .mapping [("label", .string "MOUSE")],
    .conjunction [.negation (.mapping [("sex", .string "F")]),
      .mapping [("label", .string "MOUSE")]]]

/-- One by one the items put labelled subjects behind a subquery, and together they do the same. -/
theorem Expression.restrict_all_stepwise_of_label :
    ∃ e whole last, Reachable (· = laboratory) e ∧ e.heading.hasDerived = true ∧
      e.restrict (.all labelItems) = .ok whole ∧
      labelItems.foldlM Expression.restrict e = .ok last ∧
      whole.sql none = last.sql none ∧
      last.sql none = .ok ("SELECT * FROM (SELECT `subject_id`,`sex`,upper(species) AS `label` " ++
        "FROM `lab`.`subject`) AS `_s1` WHERE ((`label`=\"MOUSE\")) AND (NOT ((`sex`=\"F\")))") := by
  obtain ⟨e, last, labelled, derived, steps, text⟩ :
      ∃ e last, Reachable (· = laboratory) e ∧ e.heading.hasDerived = true ∧
        labelItems.foldlM Expression.restrict e = .ok last ∧
        last.sql none = .ok ("SELECT * FROM (SELECT `subject_id`,`sex`,upper(species) AS `label` " ++
          "FROM `lab`.`subject`) AS `_s1` WHERE ((`label`=\"MOUSE\")) AND (NOT ((`sex`=\"F\")))") := by
    have subjects := @Reachable.table (· = laboratory) laboratory subjectDeclaration _ rfl rfl
    have labelled := @Reachable.project (· = laboratory) _ _ [.named "sex"]
      (Renames.ofList [("label", "upper(species)")]) true subjects rfl
    refine ⟨_, _, labelled, rfl, rfl, ?_⟩
    decide +kernel
  have alone : ∀ item ∈ labelItems, item.partners = [] := by
    simp [labelItems, Restriction.partners, partnersOfAll]
  obtain ⟨accepts, same⟩ := e.restrict_all_stepwise alone
  obtain ⟨whole, built⟩ := accepts.2 ⟨last, steps⟩
  exact ⟨e, whole, last, labelled, derived, built, steps, same whole last built steps none, text⟩

end QueryAlgebra
