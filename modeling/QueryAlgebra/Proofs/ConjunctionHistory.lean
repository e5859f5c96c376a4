/-
This file describes the conjunctions that any sequence of calls builds. Such a conjunction has no
conjunction for a member and no two equal members. It has the first occurrences of what it was
given, in their order, so that it is not changed by members that it has already.
-/
import QueryAlgebra.Proofs.ConjoinedMembers

namespace QueryAlgebra

section Adding

variable {restrictions : List Restriction}

/-- Members are added where they occur first, unless they were there before. -/
theorem foldl_addRestriction_eq (restrictions members : List Restriction) :
    members.foldl addRestriction restrictions =
      restrictions ++ (members.filter fun member => !restrictions.contains member).eraseDups := by
  induction members generalizing restrictions with
  | nil => rw [List.foldl_nil, List.filter_nil, List.eraseDups_nil, List.append_nil]
  | cons first rest ih =>
      rw [List.foldl_cons, ih]
      cases present : restrictions.contains first with
      | true =>
          rw [addRestriction_of_contains present, List.filter_cons_of_neg (by rw [present]; decide)]
      | false =>
          -- what equals the new member is left out on both sides
          have left : ∀ member, (!(addRestriction restrictions first).contains member) =
              ((!member == first) && !restrictions.contains member) := by
            intro member
            rw [contains_addRestriction, Bool.not_or, Bool.and_comm]
          simp only [left]
          rw [addRestriction_of_not_contains present,
            List.filter_cons_of_pos (by rw [present]; decide), List.eraseDups_cons,
            List.filter_filter, List.append_assoc, List.singleton_append]

/-- A list in which no two members are equal. -/
def Unrepeated (restrictions : List Restriction) : Prop :=
  restrictions.Pairwise fun first second => (first == second) = false

theorem Unrepeated.addRestriction (apart : Unrepeated restrictions) (restriction : Restriction) :
    Unrepeated (addRestriction restrictions restriction) := by
  cases present : restrictions.contains restriction with
  | true => rwa [addRestriction_of_contains present]
  | false =>
      rw [addRestriction_of_not_contains present]
      refine List.pairwise_append.2 ⟨apart, List.pairwise_singleton _ restriction, ?_⟩
      intro earlier inside last added
      rw [List.mem_singleton.1 added, ← Bool.not_eq_true, BEq.comm]
      intro equal
      have listed := List.contains_iff_exists_mem_beq.2 ⟨earlier, inside, equal⟩
      rw [present] at listed
      contradiction

theorem Unrepeated.foldl (apart : Unrepeated restrictions) (members : List Restriction) :
    Unrepeated (members.foldl QueryAlgebra.addRestriction restrictions) := by
  induction members generalizing restrictions with
  | nil => exact apart
  | cons first rest ih => exact ih (apart.addRestriction first)

end Adding

/-- No member of a restriction is a conjunction. -/
theorem Restriction.conjunction_not_mem_members (restriction : Restriction)
    (items : List Restriction) : .conjunction items ∉ restriction.members := by
  intro inside
  have alone := members_of_member restriction inside
  rw [Restriction.members] at alone
  have smaller : ∀ member ∈ membersOfAll items,
      sizeOf member < sizeOf (Restriction.conjunction items) := by
    apply @forall_membersOfAll fun member => sizeOf member < sizeOf (Restriction.conjunction items)
    · intro inner bound item listed
      have below := List.sizeOf_lt_of_mem listed
      simp only [Restriction.conjunction.sizeOf_spec] at bound ⊢
      omega
    · intro item listed
      have below := List.sizeOf_lt_of_mem listed
      simp only [Restriction.conjunction.sizeOf_spec]
      omega
  have itself := smaller (.conjunction items) (alone ▸ List.mem_singleton_self _)
  exact Nat.lt_irrefl _ itself

/-- What equals a member of a restriction stands for itself alone. -/
theorem Restriction.members_eq_of_beq {restriction member other : Restriction}
    (equal : (other == member) = true) (within : member ∈ restriction.members) :
    other.members = [other] := by
  cases other with
  | conjunction items =>
      -- only a conjunction equals one, and no member is a conjunction
      have same : (Restriction.conjunction items).same member = true := equal
      cases member <;> simp only [Restriction.same, Bool.false_eq_true] at same
      exact absurd within (restriction.conjunction_not_mem_members _)
  | _ => rw [Restriction.members]

/-- The calls that build a conjunction. -/
inductive ConjunctionHistory where
  | start
  | append (before : ConjunctionHistory) (restriction : Restriction)
  | extend (before other : ConjunctionHistory)
  | collect (items : List Restriction)

namespace ConjunctionHistory

def members : ConjunctionHistory → List Restriction
  | .start => []
  | .append before restriction => appendRestriction before.members restriction
  | .extend before other => extendRestrictions before.members other.members
  | .collect items => extendRestrictions [] items

/-- What the calls are given, with the members of a conjunction in its place. -/
def supplied : ConjunctionHistory → List Restriction
  | .start => []
  | .append before restriction => before.supplied ++ restriction.members
  | .extend before other => before.supplied ++ other.members
  | .collect items => items.flatMap Restriction.members

/-- Every member was a member of some restriction that the calls were given. -/
theorem exists_of_members (history : ConjunctionHistory) {member : Restriction}
    (inside : member ∈ history.members) : ∃ restriction : Restriction,
      member ∈ restriction.members := by
  induction history with
  | start => contradiction
  | append before restriction ih =>
      rcases mem_of_appendRestriction inside with earlier | added
      · exact ih earlier
      · exact ⟨restriction, added⟩
  | extend before other ih _ =>
      rw [members, extendRestrictions_eq_append] at inside
      rcases mem_of_appendRestriction inside with earlier | added
      · exact ih earlier
      · exact ⟨_, added⟩
  | collect items =>
      rw [members, extendRestrictions_eq_append] at inside
      rcases mem_of_appendRestriction inside with earlier | added
      · contradiction
      · exact ⟨_, added⟩

theorem members_of_members (history : ConjunctionHistory) :
    (Restriction.conjunction history.members).members = history.members := by
  rw [Restriction.members]
  apply membersOfAll_of_members
  intro member inside
  obtain ⟨restriction, listed⟩ := history.exists_of_members inside
  exact Restriction.members_of_member restriction listed

/-- A conjunction is built from what is supplied, one member after another. -/
theorem members_eq_foldl (history : ConjunctionHistory) :
    history.members = history.supplied.foldl addRestriction [] := by
  induction history with
  | start => rfl
  | append before restriction ih =>
      rw [members, supplied, List.foldl_append, ← ih, appendRestriction]
  | extend before other ih _ =>
      rw [members, supplied, List.foldl_append, ← ih, extendRestrictions_eq_append,
        appendRestriction, other.members_of_members]
  | collect items =>
      rw [members, supplied, extendRestrictions_eq_foldl, membersOfAll_eq_flatMap]

/-- Whatever calls build a conjunction, its members are the first occurrences, up to equality and
in order, of what the calls supply. None of them is a conjunction and no two of them are equal, so
that a conjunction that is supplied again stands for just its members. Neither the conjunction
itself nor a list of members that it has already extends it. -/
theorem normal_form (history : ConjunctionHistory) :
    history.members = history.supplied.eraseDups ∧
    (∀ items, .conjunction items ∉ history.members) ∧
    Unrepeated history.members ∧
    (Restriction.conjunction history.members).members = history.members ∧
    extendRestrictions history.members history.members = history.members ∧
    ∀ others : List Restriction, (∀ member ∈ others, history.members.contains member = true) →
      extendRestrictions history.members others = history.members := by
  have kept : ∀ others : List Restriction,
      (∀ member ∈ others, history.members.contains member = true) →
        extendRestrictions history.members others = history.members := by
    intro others present
    have alone : ∀ member ∈ others, member.members = [member] := by
      intro member listed
      obtain ⟨other, inside, equal⟩ := List.contains_iff_exists_mem_beq.1 (present member listed)
      obtain ⟨restriction, within⟩ := history.exists_of_members inside
      exact Restriction.members_eq_of_beq equal within
    rw [extendRestrictions_eq_foldl, membersOfAll_of_members alone]
    exact foldl_addRestriction_of_contains present
  refine ⟨?_, ?_, ?_, history.members_of_members, kept _ ?_, kept⟩
  · rw [history.members_eq_foldl, foldl_addRestriction_eq, List.nil_append]
    congr 1
    exact List.filter_eq_self.2 fun _ _ => rfl
  · intro items inside
    obtain ⟨restriction, within⟩ := history.exists_of_members inside
    exact restriction.conjunction_not_mem_members items within
  · rw [history.members_eq_foldl]
    exact Unrepeated.foldl List.Pairwise.nil history.supplied
  · intro member inside
    exact List.contains_iff_exists_mem_beq.2 ⟨member, inside, BEq.rfl⟩

theorem exponentField_zero : exponentField 0 ≠ 2047 := by decide

theorem exponentField_negativeZero : exponentField 0x8000000000000000 ≠ 2047 := by decide

/-- A weight of zero and one of negative zero are one member. -/
def weighed (negative : Bool) : Restriction :=
  .mapping [("weight", .float (cond negative ⟨0x8000000000000000, exponentField_negativeZero⟩
    ⟨0, exponentField_zero⟩))]

/-- Two conditions are repeated, one of them inside a conjunction and one with another zero. -/
def weighedSubjects : ConjunctionHistory :=
  .extend (.append (.collect [.raw "age > 1", weighed false])
    (.conjunction [.negation (.raw "dead"), .raw "age > 1"])) (.collect [weighed true, .raw "tame"])

/-- Four members are left of six, and neither the last condition nor the other zero is added
once more. -/
theorem normal_form_of_weighed :
    weighedSubjects.members.length = 4 ∧
      (∀ member ∈ [.raw "tame", weighed true], weighedSubjects.members.contains member = true) ∧
      extendRestrictions weighedSubjects.members [.raw "tame", weighed true] =
        weighedSubjects.members := by
  obtain ⟨_, _, _, _, _, kept⟩ := normal_form weighedSubjects
  have present : ∀ member ∈ [.raw "tame", weighed true],
      weighedSubjects.members.contains member = true := by decide +kernel
  exact ⟨by decide +kernel, present, kept _ present⟩

end ConjunctionHistory

end QueryAlgebra
