/-
This file describes how conjunctions collect their members. A member is added once up to equality,
so a repeated restriction adds nothing, and restrictions that come in another order only bring
their members in another order.
-/
import Mathlib.Data.List.Perm.Basic
import QueryAlgebra.Proofs.EqualityCongruence

namespace QueryAlgebra

theorem membersOfAll_eq_flatMap (items : List Restriction) :
    membersOfAll items = items.flatMap Restriction.members := by
  induction items with
  | nil => rfl
  | cons first rest ih => rw [membersOfAll, List.flatMap_cons, ih]

mutual

/-- A member stands for itself alone. -/
theorem Restriction.members_of_member {member : Restriction} :
    ∀ restriction : Restriction, member ∈ restriction.members → member.members = [member]
  | .conjunction items => by
      rw [Restriction.members]
      exact members_of_memberOfAll items
  | .constant _ | .raw _ | .mapping _ | .record _ | .disjunction _ | .negation _
  | .semijoin _ _ | .universal _ => by
      intro inside
      rw [Restriction.members, List.mem_singleton] at inside
      rw [inside, Restriction.members]

theorem members_of_memberOfAll {member : Restriction} :
    ∀ items : List Restriction, member ∈ membersOfAll items → member.members = [member]
  | [] => by
      rw [membersOfAll]
      exact fun inside => absurd inside List.not_mem_nil
  | first :: rest => by
      rw [membersOfAll, List.mem_append]
      intro inside
      rcases inside with head | tail
      · exact Restriction.members_of_member first head
      · exact members_of_memberOfAll rest tail

end

/-- A list of members is not flattened any further. -/
theorem membersOfAll_of_members {items : List Restriction}
    (alone : ∀ item ∈ items, item.members = [item]) : membersOfAll items = items := by
  induction items with
  | nil => rfl
  | cons first rest ih =>
      obtain ⟨head, tail⟩ := List.forall_mem_cons.1 alone
      rw [membersOfAll, head, ih tail, List.singleton_append]

section Collecting

variable {restrictions members : List Restriction}

theorem extendRestrictions_eq_foldl (restrictions items : List Restriction) :
    extendRestrictions restrictions items =
      (membersOfAll items).foldl addRestriction restrictions := by
  rw [membersOfAll_eq_flatMap, List.foldl_flatMap]
  rfl

/-- A list is extended by the items of a conjunction as by the conjunction itself. -/
theorem extendRestrictions_eq_append (restrictions items : List Restriction) :
    extendRestrictions restrictions items =
      appendRestriction restrictions (.conjunction items) := by
  rw [extendRestrictions_eq_foldl, appendRestriction, Restriction.members]

theorem addRestriction_of_contains {restriction : Restriction}
    (present : restrictions.contains restriction = true) :
    addRestriction restrictions restriction = restrictions :=
  if_pos present

theorem addRestriction_of_not_contains {restriction : Restriction}
    (absent : restrictions.contains restriction = false) :
    addRestriction restrictions restriction = restrictions ++ [restriction] :=
  if_neg (by rw [absent]; exact Bool.false_ne_true)

theorem contains_addRestriction (restrictions : List Restriction)
    (restriction other : Restriction) :
    (addRestriction restrictions restriction).contains other =
      (restrictions.contains other || other == restriction) := by
  cases present : restrictions.contains restriction with
  | false =>
      rw [addRestriction_of_not_contains present, List.contains_append, List.contains_cons,
        List.contains_nil, Bool.or_false]
  | true =>
      rw [addRestriction_of_contains present]
      cases equal : other == restriction with
      | false => rw [Bool.or_false]
      | true => rw [List.contains_congr equal, present, Bool.or_true]

/-- A list holds what it held before and what was added. -/
theorem contains_foldl_addRestriction (restrictions members : List Restriction)
    (other : Restriction) :
    (members.foldl addRestriction restrictions).contains other =
      (restrictions.contains other || members.contains other) := by
  induction members generalizing restrictions with
  | nil => rw [List.foldl_nil, List.contains_nil, Bool.or_false]
  | cons first rest ih =>
      rw [List.foldl_cons, ih, contains_addRestriction, List.contains_cons, Bool.or_assoc]

/-- Members that are all there change nothing. -/
theorem foldl_addRestriction_of_contains
    (present : ∀ member ∈ members, restrictions.contains member = true) :
    members.foldl addRestriction restrictions = restrictions := by
  induction members with
  | nil => rfl
  | cons first rest ih =>
      obtain ⟨head, tail⟩ := List.forall_mem_cons.1 present
      rw [List.foldl_cons, addRestriction_of_contains head, ih tail]

/-- A restriction that was appended before changes nothing. -/
theorem appendRestriction_again (restrictions : List Restriction) (restriction : Restriction) :
    appendRestriction (appendRestriction restrictions restriction) restriction =
      appendRestriction restrictions restriction := by
  apply foldl_addRestriction_of_contains
  intro member inside
  rw [appendRestriction, contains_foldl_addRestriction]
  have listed : restriction.members.contains member = true :=
    List.contains_iff_exists_mem_beq.2 ⟨member, inside, BEq.rfl⟩
  rw [listed, Bool.or_true]

/-- Members that were collected before are added like the members themselves. -/
theorem foldl_addRestriction_collected (restrictions others members : List Restriction) :
    (members.foldl addRestriction others).foldl addRestriction restrictions =
      members.foldl addRestriction (others.foldl addRestriction restrictions) := by
  induction members generalizing others with
  | nil => rfl
  | cons first rest ih =>
      rw [List.foldl_cons, ih, List.foldl_cons]
      cases present : others.contains first with
      | false => rw [addRestriction_of_not_contains present, List.foldl_append]; rfl
      | true =>
          have kept : (others.foldl addRestriction restrictions).contains first = true := by
            rw [contains_foldl_addRestriction, present, Bool.or_true]
          rw [addRestriction_of_contains present, addRestriction_of_contains kept]

section Picking

variable {picked : Restriction → Bool}
  (congr : ∀ first second : Restriction, (first == second) = true → picked first = picked second)

include congr

/-- A property that equality respects does not pick apart equal restrictions. -/
theorem contains_filter {restriction : Restriction} (holds : picked restriction = true) :
    (restrictions.filter picked).contains restriction = restrictions.contains restriction := by
  rw [Bool.eq_iff_iff, List.contains_iff_exists_mem_beq, List.contains_iff_exists_mem_beq]
  apply exists_congr
  intro other
  rw [List.mem_filter, and_assoc]
  apply and_congr_right
  intro _
  exact and_iff_right_of_imp fun equal => (congr restriction other equal).symm.trans holds

theorem filter_addRestriction (restrictions : List Restriction) (restriction : Restriction) :
    (addRestriction restrictions restriction).filter picked =
      ([restriction].filter picked).foldl addRestriction (restrictions.filter picked) := by
  cases holds : picked restriction with
  | false =>
      rw [List.filter_cons_of_neg (by simp [holds]), List.filter_nil, List.foldl_nil]
      cases present : restrictions.contains restriction with
      | false =>
          rw [addRestriction_of_not_contains present, List.filter_append,
            List.filter_cons_of_neg (by simp [holds]), List.filter_nil, List.append_nil]
      | true => rw [addRestriction_of_contains present]
  | true =>
      have same : (restrictions.filter picked).contains restriction =
          restrictions.contains restriction := contains_filter congr holds
      rw [List.filter_cons_of_pos holds, List.filter_nil, List.foldl_cons, List.foldl_nil]
      cases present : restrictions.contains restriction with
      | false =>
          rw [addRestriction_of_not_contains present,
            addRestriction_of_not_contains (same.trans present), List.filter_append,
            List.filter_cons_of_pos holds, List.filter_nil]
      | true =>
          rw [addRestriction_of_contains present, addRestriction_of_contains (same.trans present)]

/-- Picking out members commutes with adding them. -/
theorem filter_foldl_addRestriction (restrictions members : List Restriction) :
    (members.foldl addRestriction restrictions).filter picked =
      (members.filter picked).foldl addRestriction (restrictions.filter picked) := by
  induction members generalizing restrictions with
  | nil => rfl
  | cons first rest ih =>
      rw [List.foldl_cons, ih, filter_addRestriction congr, ← List.foldl_append,
        ← List.filter_append, List.singleton_append]

end Picking

end Collecting

/-- Two lists have the same members up to their order and up to equality. -/
def SameMembers (first second : List Restriction) : Prop :=
  ∃ middle, sameRestrictions first middle = true ∧ middle.Perm second

namespace SameMembers

variable {first second third : List Restriction}

theorem refl (restrictions : List Restriction) : SameMembers restrictions restrictions :=
  ⟨restrictions, sameRestrictions_refl restrictions, .refl restrictions⟩

theorem trans (start : SameMembers first second) (next : SameMembers second third) :
    SameMembers first third := by
  obtain ⟨middle, same, perm⟩ := start
  obtain ⟨last, same', perm'⟩ := next
  -- the permutation of the first step moves behind the equality of the second
  obtain ⟨moved, each, perm''⟩ := List.perm_comp_forall₂ perm (sameRestrictions_iff.1 same')
  refine ⟨moved, ?_, perm''.trans perm'⟩
  rw [sameRestrictions_congr first middle same]
  exact sameRestrictions_iff.2 each

theorem append (start : SameMembers first second) {members others : List Restriction}
    (rest : SameMembers members others) : SameMembers (first ++ members) (second ++ others) := by
  obtain ⟨middle, same, perm⟩ := start
  obtain ⟨middle', same', perm'⟩ := rest
  refine ⟨middle ++ middle', ?_, perm.append perm'⟩
  exact sameRestrictions_iff.2
    (List.rel_append (sameRestrictions_iff.1 same) (sameRestrictions_iff.1 same'))

theorem contains (same : SameMembers first second) (other : Restriction) :
    first.contains other = second.contains other := by
  obtain ⟨middle, equal, perm⟩ := same
  rw [contains_congr equal other.same_refl, perm.contains_eq]

theorem addRestriction (same : SameMembers first second) (restriction : Restriction) :
    SameMembers (addRestriction first restriction) (addRestriction second restriction) := by
  unfold QueryAlgebra.addRestriction
  rw [same.contains restriction]
  split
  · exact same
  · exact same.append (refl [restriction])

theorem foldl (same : SameMembers first second) (members : List Restriction) :
    SameMembers (members.foldl QueryAlgebra.addRestriction first)
      (members.foldl QueryAlgebra.addRestriction second) := by
  induction members generalizing first second with
  | nil => exact same
  | cons member rest ih => exact ih (same.addRestriction member)

/-- Which of two members is added first only matters for the order. -/
theorem swap (restrictions : List Restriction) (one two : Restriction) :
    SameMembers
      (QueryAlgebra.addRestriction (QueryAlgebra.addRestriction restrictions one) two)
      (QueryAlgebra.addRestriction (QueryAlgebra.addRestriction restrictions two) one) := by
  have ahead := contains_addRestriction restrictions one two
  have behind := contains_addRestriction restrictions two one
  cases held : restrictions.contains one with
  | true =>
      rw [held, Bool.true_or] at behind
      rw [addRestriction_of_contains held, addRestriction_of_contains behind]
      exact refl _
  | false =>
      cases held' : restrictions.contains two with
      | true =>
          rw [held', Bool.true_or] at ahead
          rw [addRestriction_of_contains held', addRestriction_of_contains ahead]
          exact refl _
      | false =>
          rw [held', Bool.false_or] at ahead
          rw [held, Bool.false_or] at behind
          cases equal : one == two with
          | true =>
              rw [equal] at behind
              rw [BEq.comm, equal] at ahead
              rw [addRestriction_of_contains ahead, addRestriction_of_contains behind,
                addRestriction_of_not_contains held, addRestriction_of_not_contains held']
              refine (refl restrictions).append ⟨[two], ?_, .refl _⟩
              exact sameRestrictions_iff.2 (.cons equal .nil)
          | false =>
              rw [equal] at behind
              rw [BEq.comm, equal] at ahead
              rw [addRestriction_of_not_contains ahead, addRestriction_of_not_contains behind,
                addRestriction_of_not_contains held, addRestriction_of_not_contains held',
                List.append_assoc, List.append_assoc]
              exact (refl restrictions).append
                ⟨[one, two], sameRestrictions_refl _, .swap two one []⟩

/-- Members that come in another order give a list that differs only in the order. -/
theorem of_perm {members others : List Restriction} (perm : members.Perm others)
    (restrictions : List Restriction) :
    SameMembers (members.foldl QueryAlgebra.addRestriction restrictions)
      (others.foldl QueryAlgebra.addRestriction restrictions) := by
  induction perm generalizing restrictions with
  | nil => exact refl restrictions
  | cons member _ ih => exact ih (QueryAlgebra.addRestriction restrictions member)
  | swap one two rest => exact (swap restrictions two one).foldl rest
  | trans _ _ start next => exact (start restrictions).trans (next restrictions)

end SameMembers

end QueryAlgebra
