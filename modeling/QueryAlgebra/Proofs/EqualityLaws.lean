/-
This file shows that the equality of values, headings, restrictions and expressions is an
equivalence. Equal values differ at most in the signs of zeros, and equal headings in the order
of their attributes.
-/
import Mathlib.Data.List.Perm.Subperm
import QueryAlgebra.Expression.Conjunction
import QueryAlgebra.Proofs.HeadingMembers

namespace QueryAlgebra

/-- A comparison of what two values are mapped to is an equivalence. -/
theorem equivBEq_of_map {α β : Type} [BEq α] (f : α → β)
    (same : ∀ first second : α, (first == second) = true ↔ f first = f second) : EquivBEq α where
  rfl := (same _ _).2 rfl
  symm := fun alike => (same _ _).2 ((same _ _).1 alike).symm
  trans := fun alike next => (same _ _).2 (((same _ _).1 alike).trans ((same _ _).1 next))

/-- The negative zero becomes the other one. -/
def Binary64.unsigned (x : Binary64) : Binary64 :=
  if x.significand = 0 then ⟨0, by decide⟩ else x

theorem Binary64.beq_iff {x y : Binary64} :
    (x == y) = true ↔ x = y ∨ (x.significand = 0 ∧ y.significand = 0) := by
  have unfolded : (x == y) =
      (x.bits == y.bits || (x.significand == 0 && y.significand == 0)) := rfl
  rw [unfolded, Bool.or_eq_true, Bool.and_eq_true, beq_iff_eq, beq_iff_eq, beq_iff_eq,
    Binary64.mk.injEq]

theorem Binary64.beq_iff_unsigned (x y : Binary64) :
    (x == y) = true ↔ x.unsigned = y.unsigned := by
  have zero : Binary64.significand ⟨0, by decide⟩ = 0 := by decide
  rw [beq_iff]
  unfold unsigned
  by_cases first : x.significand = 0 <;> by_cases second : y.significand = 0
  · simp [first, second]
  · rw [if_pos first, if_neg second]
    constructor
    · rintro (rfl | ⟨_, absurd⟩)
      · contradiction
      · contradiction
    · rintro rfl
      contradiction
  · rw [if_neg first, if_pos second]
    constructor
    · rintro (rfl | ⟨absurd, _⟩)
      · contradiction
      · contradiction
    · rintro rfl
      contradiction
  · simp [first, second]

mutual

/-- All zeros inside a document become positive. -/
def Document.unsigned : Document → Document
  | .null => .null
  | .bool value => .bool value
  | .int value => .int value
  | .float value => .float value.unsigned
  | .string value => .string value
  | .array items => .array (unsignedItems items)
  | .object members => .object (unsignedMembers members)

def unsignedItems : List Document → List Document
  | [] => []
  | first :: rest => first.unsigned :: unsignedItems rest

def unsignedMembers : List (String × Document) → List (String × Document)
  | [] => []
  | first :: rest => (first.1, first.2.unsigned) :: unsignedMembers rest

end

mutual

theorem Document.same_iff_unsigned : ∀ first second : Document,
    first.same second = true ↔ first.unsigned = second.unsigned
  | .null => fun second => by cases second <;> simp [Document.same, Document.unsigned]
  | .bool _ => fun second => by cases second <;> simp [Document.same, Document.unsigned]
  | .int _ => fun second => by cases second <;> simp [Document.same, Document.unsigned]
  | .float value => fun second => by
      cases second <;> simp [Document.same, Document.unsigned, Binary64.beq_iff_unsigned]
  | .string _ => fun second => by cases second <;> simp [Document.same, Document.unsigned]
  | .array items => fun second => by
      cases second <;>
        simp [Document.same, Document.unsigned, sameItems_iff_unsigned items]
  | .object members => fun second => by
      cases second <;>
        simp [Document.same, Document.unsigned, sameMembers_iff_unsigned members]

theorem sameItems_iff_unsigned : ∀ first second : List Document,
    Document.same.sameItems first second = true ↔ unsignedItems first = unsignedItems second
  | [] => fun second => by cases second <;> simp [Document.same.sameItems, unsignedItems]
  | head :: tail => fun second => by
      cases second <;> simp [Document.same.sameItems, unsignedItems,
        Document.same_iff_unsigned head, sameItems_iff_unsigned tail]

theorem sameMembers_iff_unsigned : ∀ first second : List (String × Document),
    Document.same.sameMembers first second = true ↔
      unsignedMembers first = unsignedMembers second
  | [] => fun second => by cases second <;> simp [Document.same.sameMembers, unsignedMembers]
  | (name, value) :: tail => fun second => by
      cases second <;> simp [Document.same.sameMembers, unsignedMembers,
        Document.same_iff_unsigned value, sameMembers_iff_unsigned tail]

end

instance : EquivBEq Document := equivBEq_of_map Document.unsigned Document.same_iff_unsigned

mutual

/-- All zeros inside a literal become positive. -/
def Literal.unsigned : Literal → Literal
  | .float value => .float value.unsigned
  | .list items => .list (unsignedLiterals items)
  | .document value => .document value.unsigned
  | .null => .null
  | .bool value => .bool value
  | .int value => .int value
  | .infinity negative => .infinity negative
  | .string value => .string value
  | .decimal text => .decimal text
  | .date value => .date value
  | .time value => .time value
  | .datetime day clock => .datetime day clock
  | .uuid value => .uuid value

def unsignedLiterals : List Literal → List Literal
  | [] => []
  | first :: rest => first.unsigned :: unsignedLiterals rest

end

mutual

theorem Literal.same_iff_unsigned : ∀ first second : Literal,
    first.same second = true ↔ first.unsigned = second.unsigned
  | .null => fun second => by cases second <;> simp [Literal.same, Literal.unsigned]
  | .bool _ => fun second => by cases second <;> simp [Literal.same, Literal.unsigned]
  | .int _ => fun second => by cases second <;> simp [Literal.same, Literal.unsigned]
  | .float value => fun second => by
      cases second <;> simp [Literal.same, Literal.unsigned, Binary64.beq_iff_unsigned]
  | .infinity _ => fun second => by cases second <;> simp [Literal.same, Literal.unsigned]
  | .string _ => fun second => by cases second <;> simp [Literal.same, Literal.unsigned]
  | .decimal _ => fun second => by cases second <;> simp [Literal.same, Literal.unsigned]
  | .date _ => fun second => by cases second <;> simp [Literal.same, Literal.unsigned]
  | .time _ => fun second => by cases second <;> simp [Literal.same, Literal.unsigned]
  | .datetime _ _ => fun second => by cases second <;> simp [Literal.same, Literal.unsigned]
  | .uuid _ => fun second => by cases second <;> simp [Literal.same, Literal.unsigned]
  | .list items => fun second => by
      cases second <;> simp [Literal.same, Literal.unsigned, sameLiterals_iff_unsigned items]
  | .document value => fun second => by
      cases second with
      | document other =>
          rw [Literal.same, Literal.unsigned, Literal.unsigned, Literal.document.injEq]
          exact value.same_iff_unsigned other
      | _ => simp [Literal.same, Literal.unsigned]

theorem sameLiterals_iff_unsigned : ∀ first second : List Literal,
    Literal.same.sameItems first second = true ↔ unsignedLiterals first = unsignedLiterals second
  | [] => fun second => by cases second <;> simp [Literal.same.sameItems, unsignedLiterals]
  | head :: tail => fun second => by
      cases second <;> simp [Literal.same.sameItems, unsignedLiterals,
        Literal.same_iff_unsigned head, sameLiterals_iff_unsigned tail]

end

instance : EquivBEq Literal := equivBEq_of_map Literal.unsigned Literal.same_iff_unsigned

/-- Headings are equal when they have the same attributes in any order. -/
theorem Heading.beq_iff_perm (first second : Heading) :
    (first == second) = true ↔ first.attributes.Perm second.attributes := by
  have unfolded : (first == second) = (first.attributes.length == second.attributes.length &&
    first.attributes.all second.attributes.contains) := rfl
  rw [unfolded, Bool.and_eq_true, beq_iff_eq, List.all_eq_true]
  simp only [List.contains_iff_mem]
  constructor
  · rintro ⟨length, inside⟩
    have apart : first.attributes.Nodup := first.nodup.of_map
    exact (List.subperm_of_subset apart inside).perm_of_length_le (Nat.le_of_eq length.symm)
  · intro perm
    exact ⟨perm.length_eq, fun attr inside => perm.mem_iff.1 inside⟩

instance : EquivBEq Heading where
  rfl := (Heading.beq_iff_perm _ _).2 (.refl _)
  symm := fun same => (Heading.beq_iff_perm _ _).2 ((Heading.beq_iff_perm _ _).1 same).symm
  trans := fun same next =>
    (Heading.beq_iff_perm _ _).2 (((Heading.beq_iff_perm _ _).1 same).trans
      ((Heading.beq_iff_perm _ _).1 next))

/-- Mappings are equal when they have the same keys with equal values. -/
theorem sameMapping_iff {first second : List (String × Literal)} :
    sameMapping first second = true ↔
      List.Forall₂ (fun pair other => pair.1 = other.1 ∧ (pair.2 == other.2) = true)
        first second := by
  induction first generalizing second with
  | nil => cases second <;> simp [sameMapping]
  | cons pair rest ih => cases second <;> simp [sameMapping, ih]

theorem sameMapping_refl (pairs : List (String × Literal)) : sameMapping pairs pairs = true :=
  sameMapping_iff.2 (List.forall₂_same.2 fun _ _ => ⟨rfl, BEq.rfl⟩)

theorem sameMapping_congr {first second third : List (String × Literal)}
    (same : sameMapping first second = true) :
    sameMapping first third = sameMapping second third := by
  induction first generalizing second third with
  | nil => cases second <;> simp_all [sameMapping]
  | cons pair rest ih =>
      cases second with
      | nil => simp [sameMapping] at same
      | cons other others =>
          simp only [sameMapping, Bool.and_eq_true, beq_iff_eq] at same
          cases third with
          | nil => rfl
          | cons last tail =>
              simp only [sameMapping, same.1.1, ih same.2, BEq.congr_left same.1.2]

/-- The columns and the restricting attributes are not compared. -/
theorem Expression.same_eq (first second : Expression) : first.same second =
    (first.session.same second.session && first.operator.same second.operator &&
      first.heading == second.heading &&
      sameRestrictions first.restrictions second.restrictions &&
      first.distinct == second.distinct) := by
  cases first
  simp only [Expression.same]

theorem Session.same_congr {first second : Session} (same : first.same second = true)
    (third : Session) : first.same third = second.same third := by
  unfold Session.same at same ⊢
  rw [beq_iff_eq.1 same]

mutual

theorem Restriction.same_refl : ∀ restriction : Restriction, restriction.same restriction = true
  | .constant _ => by simp [Restriction.same]
  | .raw _ => by simp [Restriction.same]
  | .mapping pairs => by simp [Restriction.same, sameMapping_refl]
  | .record members => by simp [Restriction.same]
  | .disjunction items => by simp [Restriction.same, sameRestrictions_refl items]
  | .conjunction items => by simp [Restriction.same, sameRestrictions_refl items]
  | .negation restriction => by simp [Restriction.same, restriction.same_refl]
  | .semijoin partner checked => by simp [Restriction.same, partner.same_refl]
  | .universal set => by simp [Restriction.same]

theorem sameRestrictions_refl : ∀ items : List Restriction, sameRestrictions items items = true
  | [] => by simp [sameRestrictions]
  | first :: rest => by simp [sameRestrictions, first.same_refl, sameRestrictions_refl rest]

theorem Operator.same_refl : ∀ operator : Operator, operator.same operator = true
  | .table _ => by simp [Operator.same]
  | .join left right _ => by simp [Operator.same, left.same_refl, right.same_refl]
  | .projection source => by simp [Operator.same, source.same_refl]
  | .grouping source => by simp [Operator.same, source.same_refl]
  | .union left right => by simp [Operator.same, left.same_refl, right.same_refl]
  | .subquery inner => by simp [Operator.same, inner.same_refl]

theorem Expression.same_refl : ∀ e : Expression, e.same e = true
  | ⟨session, operator, heading, _, restrictions, _, _⟩ => by
      simp [Expression.same, Session.same, operator.same_refl, sameRestrictions_refl restrictions]

end

mutual

/-- Equal restrictions are equal to the same restrictions. -/
theorem Restriction.same_congr : ∀ (first second : Restriction),
    first.same second = true → ∀ third, first.same third = second.same third
  | .constant _ => by
      intro second same third
      cases second <;> simp_all [Restriction.same]
  | .raw _ => by
      intro second same third
      cases second <;> simp_all [Restriction.same]
  | .mapping _ => by
      intro second same third
      cases second <;> simp only [Restriction.same, Bool.false_eq_true] at same
      cases third <;> simp only [Restriction.same, sameMapping_congr same]
  | .record _ => by
      intro second same third
      cases second <;> simp only [Restriction.same, Bool.false_eq_true] at same
      cases third <;> simp only [Restriction.same, BEq.congr_left same]
  | .disjunction items => by
      intro second same third
      cases second <;> simp only [Restriction.same, Bool.false_eq_true] at same
      cases third <;> simp only [Restriction.same, sameRestrictions_congr items _ same]
  | .conjunction items => by
      intro second same third
      cases second <;> simp only [Restriction.same, Bool.false_eq_true] at same
      cases third <;> simp only [Restriction.same, sameRestrictions_congr items _ same]
  | .negation restriction => by
      intro second same third
      cases second <;> simp only [Restriction.same, Bool.false_eq_true] at same
      cases third <;> simp only [Restriction.same, restriction.same_congr _ same]
  | .semijoin partner _ => by
      intro second same third
      cases second <;>
        simp only [Restriction.same, Bool.false_eq_true, Bool.and_eq_true, beq_iff_eq] at same
      cases third <;> simp only [Restriction.same, partner.same_congr _ same.1, same.2]
  | .universal _ => by
      intro second same third
      cases second <;> simp_all [Restriction.same]

theorem sameRestrictions_congr : ∀ (first second : List Restriction),
    sameRestrictions first second = true →
      ∀ third, sameRestrictions first third = sameRestrictions second third
  | [] => by
      intro second same third
      cases second <;> simp_all [sameRestrictions]
  | head :: tail => by
      intro second same third
      cases second <;>
        simp only [sameRestrictions, Bool.false_eq_true, Bool.and_eq_true] at same
      cases third <;>
        simp only [sameRestrictions, head.same_congr _ same.1, sameRestrictions_congr tail _ same.2]

theorem Operator.same_congr : ∀ (first second : Operator),
    first.same second = true → ∀ third, first.same third = second.same third
  | .table _ => by
      intro second same third
      cases second <;> simp_all [Operator.same]
  | .join left right _ => by
      intro second same third
      cases second <;>
        simp only [Operator.same, Bool.false_eq_true, Bool.and_eq_true, beq_iff_eq] at same
      cases third <;>
        simp only [Operator.same, left.same_congr _ same.1.1, right.same_congr _ same.1.2, same.2]
  | .projection source => by
      intro second same third
      cases second <;> simp only [Operator.same, Bool.false_eq_true] at same
      cases third <;> simp only [Operator.same, source.same_congr _ same]
  | .grouping source => by
      intro second same third
      cases second <;> simp only [Operator.same, Bool.false_eq_true] at same
      cases third <;> simp only [Operator.same, source.same_congr _ same]
  | .union left right => by
      intro second same third
      cases second <;>
        simp only [Operator.same, Bool.false_eq_true, Bool.and_eq_true] at same
      cases third <;>
        simp only [Operator.same, left.same_congr _ same.1, right.same_congr _ same.2]
  | .subquery inner => by
      intro second same third
      cases second <;> simp only [Operator.same, Bool.false_eq_true] at same
      cases third <;> simp only [Operator.same, inner.same_congr _ same]

theorem Expression.same_congr : ∀ (first second : Expression),
    first.same second = true → ∀ third, first.same third = second.same third
  | ⟨session, operator, heading, _, restrictions, _, distinct⟩ => by
      intro second same third
      simp only [Expression.same, Bool.and_eq_true, beq_iff_eq] at same
      obtain ⟨⟨⟨⟨sessions, operators⟩, headings⟩, conditions⟩, distincts⟩ := same
      simp only [Expression.same_eq, Session.same_congr sessions, operator.same_congr _ operators,
        BEq.congr_left headings, sameRestrictions_congr restrictions _ conditions, distincts]

end

/-- A comparison is an equivalence if it is reflexive and equal values compare alike. -/
theorem equivBEq_of_congr {α : Type} [BEq α] (refl : ∀ value : α, (value == value) = true)
    (congr : ∀ first second : α, (first == second) = true → ∀ third,
      (first == third) = (second == third)) : EquivBEq α where
  rfl := refl _
  symm := fun {first second} same => (congr first second same first).symm.trans (refl first)
  trans := fun {first second third} same next => (congr first second same third).trans next

instance : EquivBEq Restriction :=
  equivBEq_of_congr Restriction.same_refl fun first second => first.same_congr second

instance : EquivBEq Expression :=
  equivBEq_of_congr Expression.same_refl fun first second => first.same_congr second

end QueryAlgebra
