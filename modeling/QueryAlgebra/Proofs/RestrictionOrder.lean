/-
This file shows that a restriction that is repeated changes nothing and that the order of two
restrictions only matters for the order in which they are listed.
-/
import QueryAlgebra.Proofs.ConjoinedMembers
import QueryAlgebra.Proofs.RestrictionSteps

namespace QueryAlgebra

/-- Two expressions differ at most in the order of their restrictions. -/
structure Expression.RestrictedAlike (first second : Expression) : Prop where
  session : first.session = second.session
  operator : first.operator = second.operator
  heading : first.heading = second.heading
  columns : first.columns = second.columns
  distinct : first.distinct = second.distinct
  restricting : ∀ name, name ∈ first.restricting ↔ name ∈ second.restricting
  restrictions : SameMembers first.restrictions second.restrictions

theorem Expression.RestrictedAlike.refl (e : Expression) : e.RestrictedAlike e :=
  ⟨rfl, rfl, rfl, rfl, rfl, fun _ => .rfl, .refl e.restrictions⟩

variable {e once result : Expression}

/-- A restriction that is recorded once more is recorded already. -/
theorem Expression.record_again (e : Expression) (restriction : Restriction)
    (mentioned : NameSet) :
    (e.record restriction mentioned).record restriction mentioned =
      e.record restriction mentioned := by
  unfold record
  dsimp only
  rw [appendRestriction_again, NameSet.union_again]

/-- Two restrictions are recorded in either order. -/
theorem Expression.record_swap (e : Expression) (first second : Restriction)
    (mentioned mentioned' : NameSet) :
    ((e.record first mentioned).record second mentioned').RestrictedAlike
      ((e.record second mentioned').record first mentioned) where
  session := rfl
  operator := rfl
  heading := rfl
  columns := rfl
  distinct := rfl
  restricting := by
    intro name
    show name ∈ (e.restricting.union mentioned).union mentioned' ↔
      name ∈ (e.restricting.union mentioned').union mentioned
    simp only [NameSet.mem_union, or_comm, or_left_comm]
  restrictions := by
    show SameMembers
      (second.members.foldl addRestriction (first.members.foldl addRestriction e.restrictions))
      (first.members.foldl addRestriction (second.members.foldl addRestriction e.restrictions))
    rw [← List.foldl_append, ← List.foldl_append]
    exact .of_perm List.perm_append_comm e.restrictions

theorem Expression.restrict_again {restriction : Restriction}
    (built : e.restrict restriction = .ok once) : once.restrict restriction = .ok once := by
  obtain ⟨compiled, accepted, rfl⟩ := restrict_eq_ok.1 built
  refine restrict_eq_ok.2 ⟨compiled, ?_, ?_⟩
  · rw [validate_restrictedBy, accepted]
  · cases holds : compiled.condition.isConstant true with
    | true => rw [restrictedBy_of_true holds, restrictedBy_of_true holds]
    | false =>
        rw [restrictedBy_of_open holds, restrictedBy_of_open holds, restrictedSource_record,
          record_again]

section TwoRestrictions

variable {first second : Restriction}

/-- The expression checks both restrictions itself, whichever comes first. -/
theorem Expression.restrict_both_eq_ok :
    (e.restrict first >>= fun once => once.restrict second) = .ok result ↔
      ∃ compiled compiled', e.validate first = .ok compiled ∧ e.validate second = .ok compiled' ∧
        (e.restrictedBy first compiled).restrictedBy second compiled' = result := by
  rw [bind_eq_ok]
  constructor
  · rintro ⟨once, built, again⟩
    obtain ⟨compiled, accepted, rfl⟩ := restrict_eq_ok.1 built
    obtain ⟨compiled', accepted', same⟩ := restrict_eq_ok.1 again
    rw [validate_restrictedBy] at accepted'
    exact ⟨compiled, compiled', accepted, accepted', same⟩
  · rintro ⟨compiled, compiled', accepted, accepted', same⟩
    refine ⟨_, restrict_eq_ok.2 ⟨compiled, accepted, rfl⟩, ?_⟩
    exact restrict_eq_ok.2 ⟨compiled', by rw [validate_restrictedBy, accepted'], same⟩

theorem Expression.restrictedBy_swap (e : Expression) (first second : Restriction)
    (compiled compiled' : Compiled) :
    ((e.restrictedBy first compiled).restrictedBy second compiled').RestrictedAlike
      ((e.restrictedBy second compiled').restrictedBy first compiled) := by
  cases holds : compiled.condition.isConstant true with
  | true =>
      rw [restrictedBy_of_true holds, restrictedBy_of_true holds]
      exact .refl _
  | false =>
      cases holds' : compiled'.condition.isConstant true with
      | true =>
          rw [restrictedBy_of_true holds', restrictedBy_of_true holds']
          exact .refl _
      | false =>
          -- only the first of the two steps can put a subquery around the expression
          rw [restrictedBy_of_open holds, restrictedBy_of_open holds', restrictedBy_of_open holds',
            restrictedBy_of_open holds, restrictedSource_record, restrictedSource_record]
          exact e.restrictedSource.record_swap first second compiled.columns compiled'.columns

end TwoRestrictions

/-- Restriction is idempotent and does not depend on order. A restriction that was accepted is
accepted again and gives an equal expression with the same statement. Two restrictions are
accepted in one order exactly when they are in the other, and then the results differ at most in
the order of their restrictions. -/
theorem Expression.restrict_idempotent_commutes (e : Expression) (first second : Restriction) :
    (∀ once, e.restrict first = .ok once →
      ∃ twice, once.restrict first = .ok twice ∧ (twice == once) = true ∧
        twice.sql none = once.sql none) ∧
      ((∃ result, (e.restrict first >>= fun once => once.restrict second) = .ok result) ↔
        ∃ result, (e.restrict second >>= fun once => once.restrict first) = .ok result) ∧
      ∀ result other, (e.restrict first >>= fun once => once.restrict second) = .ok result →
        (e.restrict second >>= fun once => once.restrict first) = .ok other →
          result.RestrictedAlike other := by
  refine ⟨fun once built => ⟨once, restrict_again built, BEq.rfl, rfl⟩, ?_, ?_⟩
  · simp only [restrict_both_eq_ok]
    constructor
    · rintro ⟨_, compiled, compiled', accepted, accepted', _⟩
      exact ⟨_, compiled', compiled, accepted', accepted, rfl⟩
    · rintro ⟨_, compiled, compiled', accepted, accepted', _⟩
      exact ⟨_, compiled', compiled, accepted', accepted, rfl⟩
  · intro result other built built'
    obtain ⟨compiled, compiled', accepted, accepted', rfl⟩ := restrict_both_eq_ok.1 built
    obtain ⟨again', again, known', known, rfl⟩ := restrict_both_eq_ok.1 built'
    have same : again = compiled := Except.ok.inj (known.symm.trans accepted)
    have same' : again' = compiled' := Except.ok.inj (known'.symm.trans accepted')
    rw [same, same']
    exact e.restrictedBy_swap first second compiled compiled'

/-- A restriction on a derived label. -/
def labelRestriction : Restriction := .mapping [("label", .string "MOUSE")]

/-- A conjunction that asks for the same label again. -/
def labelledMales : Restriction :=
  .conjunction [.negation (.mapping [("sex", .string "F")]), .constant true, labelRestriction]

/-- The first of two restrictions that share a member puts subjects with a derived label behind a
subquery, and the second one finds it there. -/
theorem Expression.restrict_idempotent_commutes_of_label :
    ∃ e once result other, Reachable (· = laboratory) e ∧
      e.restrict labelRestriction = .ok once ∧ once.operator = .subquery e ∧
      (∃ twice, once.restrict labelRestriction = .ok twice ∧ (twice == once) = true ∧
        twice.sql none = once.sql none) ∧
      (e.restrict labelRestriction >>= fun once => once.restrict labelledMales) = .ok result ∧
      (e.restrict labelledMales >>= fun once => once.restrict labelRestriction) = .ok other ∧
      result.RestrictedAlike other := by
  obtain ⟨e, labelled, accepted⟩ : ∃ e, Reachable (· = laboratory) e ∧ ∃ once result other,
      e.restrict labelRestriction = .ok once ∧ once.operator = .subquery e ∧
      (e.restrict labelRestriction >>= fun once => once.restrict labelledMales) = .ok result ∧
      (e.restrict labelledMales >>= fun once => once.restrict labelRestriction) = .ok other := by
    have subjects := @Reachable.table (· = laboratory) laboratory subjectDeclaration _ rfl rfl
    have labelled := @Reachable.project (· = laboratory) _ _ [.named "sex"]
      (Renames.ofList [("label", "upper(species)")]) true subjects rfl
    exact ⟨_, labelled, _, _, _, rfl, rfl, rfl, rfl⟩
  obtain ⟨once, result, other, built, wrapped, ahead, behind⟩ := accepted
  obtain ⟨again, _, alike⟩ := e.restrict_idempotent_commutes labelRestriction labelledMales
  exact ⟨e, once, result, other, labelled, built, wrapped, again once built, ahead, behind,
    alike result other ahead behind⟩

end QueryAlgebra
