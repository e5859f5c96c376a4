/-
This file shows that equality sees enough of a reachable expression. The columns follow from what
an expression reads, and the restricting attributes from the restrictions and the heading.
-/
import QueryAlgebra.Proofs.AlikeStatements

namespace QueryAlgebra

variable {sessions : Session → Prop}

/-- What is read directly lends its columns, and any other operand shows its heading. -/
def Expression.FollowsColumns (e : Expression) : Prop :=
  match e.operator with
  | .join left right _ => left.columns.join right.columns [] = .ok e.columns
  | .projection source => e.columns = source.columns
  | _ => e.columns = e.heading

theorem Reachable.followsColumns {e : Expression} (reached : Reachable sessions e) :
    e.FollowsColumns := by
  induction reached with
  | table _ built =>
      obtain ⟨heading, _, rfl⟩ := Expression.ofTable_ok built
      rfl
  | restrict _ _ built ih => exact Expression.restrict_preserves built ih rfl fun _ _ => id
  | restrictDirectly _ _ built ih =>
      exact Expression.restrictDirectly_preserves built ih fun _ => id
  | join _ _ built _ _ =>
      have joins := Expression.joinAs_ok built
      unfold Expression.FollowsColumns
      rw [joins.operator]
      exact joins.columns
  | project _ built _ =>
      obtain ⟨selection, projects⟩ := Expression.projectItems_ok built
      unfold Expression.FollowsColumns
      rw [projects.operator]
      exact projects.columns
  | aggregate _ _ built _ _ =>
      obtain ⟨joined, _, _, _, _, _, _, _, rfl⟩ := Expression.aggregateItems_ok built
      rfl
  | groupOver _ built _ =>
      obtain ⟨heading, _, rfl⟩ := Expression.groupOver_ok built
      rfl
  | union _ _ built _ _ =>
      obtain ⟨_, _, _, _, rfl⟩ := Expression.union_ok built
      rfl
  | subquery _ _ => rfl

theorem sameRestrictions_iff {first second : List Restriction} :
    sameRestrictions first second = true ↔
      List.Forall₂ (fun restriction other => restriction.same other = true) first second := by
  induction first generalizing second with
  | nil => cases second <;> simp [sameRestrictions]
  | cons restriction rest ih => cases second <;> simp [sameRestrictions, ih]

/-- Two leaves spell out and ask for the same names. -/
structure SameNames (first second : Restriction) : Prop where
  spelled : first.leafSpelled = second.leafSpelled
  awaited : ∀ name, name ∈ first.leafAwaited ↔ name ∈ second.leafAwaited

mutual

/-- Equal restrictions have leaves with the same names. -/
theorem Restriction.leaves_congr : ∀ restriction other : Restriction,
    restriction.same other = true → List.Forall₂ SameNames restriction.leaves other.leaves
  | .constant _ => by
      intro other same
      cases other <;> simp only [Restriction.same, Bool.false_eq_true] at same
      exact .cons ⟨rfl, fun _ => .rfl⟩ .nil
  | .raw _ => by
      intro other same
      cases other <;> simp only [Restriction.same, Bool.false_eq_true, beq_iff_eq] at same
      subst same
      exact .cons ⟨rfl, fun _ => .rfl⟩ .nil
  | .universal _ => by
      intro other same
      cases other <;> simp only [Restriction.same, Bool.false_eq_true] at same
      exact .cons ⟨rfl, fun _ => .rfl⟩ .nil
  | .mapping pairs => by
      intro other same
      cases other <;> simp only [Restriction.same, Bool.false_eq_true] at same
      refine .cons ⟨rfl, fun name => ?_⟩ .nil
      rw [Restriction.leafAwaited, Restriction.leafAwaited, keys_congr (sameMapping_iff.1 same)]
  | .record members => by
      intro other same
      cases other <;> simp only [Restriction.same, Bool.false_eq_true] at same
      refine .cons ⟨rfl, fun name => ?_⟩ .nil
      have keys := keys_congr (samePairs_of_members same)
      rw [List.map_map, List.map_map] at keys
      exact iff_of_eq (congrArg (name ∈ ·) keys)
  | .disjunction items => by
      intro other same
      cases other <;> simp only [Restriction.same, Bool.false_eq_true] at same
      exact leavesOfAll_congr items _ same
  | .conjunction items => by
      intro other same
      cases other <;> simp only [Restriction.same, Bool.false_eq_true] at same
      exact leavesOfAll_congr items _ same
  | .negation restriction => by
      intro other same
      cases other <;> simp only [Restriction.same, Bool.false_eq_true] at same
      rw [Restriction.leaves, Restriction.leaves]
      exact restriction.leaves_congr _ same
  | .semijoin partner _ => by
      intro other same
      cases other <;>
        simp only [Restriction.same, Bool.false_eq_true, Bool.and_eq_true, beq_iff_eq] at same
      have headings := (Expression.resembles_of_same same.1).heading
      exact .cons ⟨rfl, fun name => headings.names.mem_iff⟩ .nil

theorem leavesOfAll_congr : ∀ items others : List Restriction,
    sameRestrictions items others = true →
      List.Forall₂ SameNames (leavesOfAll items) (leavesOfAll others)
  | [] => by
      intro others same
      cases others <;> simp only [sameRestrictions, Bool.false_eq_true] at same
      exact .nil
  | restriction :: rest => by
      intro others same
      cases others <;>
        simp only [sameRestrictions, Bool.false_eq_true, Bool.and_eq_true] at same
      exact List.rel_append (restriction.leaves_congr _ same.1) (leavesOfAll_congr rest _ same.2)

end

/-- Leaves with the same names mention the same in headings that show the same. -/
theorem mentioned_congr {heading heading' : Heading} {leaves leaves' : List Restriction}
    (shown : ∀ name, name ∈ heading.names ↔ name ∈ heading'.names)
    (same : List.Forall₂ SameNames leaves leaves') (name : String) :
    Mentioned heading leaves name ↔ Mentioned heading' leaves' name := by
  induction same with
  | nil => simp [Mentioned]
  | @cons leaf leaf' rest rest' head _ ih =>
      have first : Mentioned heading [leaf] name ↔ Mentioned heading' [leaf'] name := by
        rw [mentioned_singleton, mentioned_singleton, head.spelled, head.awaited, shown]
      show Mentioned heading ([leaf] ++ rest) name ↔ Mentioned heading' ([leaf'] ++ rest') name
      rw [mentioned_append, mentioned_append, first, ih]

mutual

/-- Every leaf of a restriction is a leaf of one of its members. -/
theorem Restriction.member_of_leaf {leaf : Restriction} : ∀ restriction : Restriction,
    leaf ∈ restriction.leaves → ∃ member ∈ restriction.members, leaf ∈ member.leaves
  | .conjunction items => by
      rw [Restriction.leaves, Restriction.members]
      exact memberOfAll_of_leaf items
  | .constant _ | .raw _ | .mapping _ | .record _ | .disjunction _ | .negation _
  | .semijoin _ _ | .universal _ => by
      intro inside
      rw [Restriction.members]
      exact ⟨_, List.mem_singleton_self _, inside⟩

theorem memberOfAll_of_leaf {leaf : Restriction} : ∀ items : List Restriction,
    leaf ∈ leavesOfAll items → ∃ member ∈ membersOfAll items, leaf ∈ member.leaves
  | [] => by simp [leavesOfAll]
  | first :: rest => by
      rw [leavesOfAll, membersOfAll]
      intro inside
      rcases List.mem_append.1 inside with head | tail
      · obtain ⟨member, listed, below⟩ := Restriction.member_of_leaf first head
        exact ⟨member, List.mem_append_left _ listed, below⟩
      · obtain ⟨member, listed, below⟩ := memberOfAll_of_leaf rest tail
        exact ⟨member, List.mem_append_right _ listed, below⟩

end

/-- Members are added behind a list, and an equal restriction stands for each that is not. -/
theorem exists_appendRestriction (restrictions : List Restriction) (restriction : Restriction) :
    ∃ added, appendRestriction restrictions restriction = restrictions ++ added ∧
      (∀ member ∈ added, member ∈ restriction.members) ∧
      ∀ member ∈ restriction.members, ∃ other ∈ restrictions ++ added,
        member.same other = true := by
  unfold appendRestriction
  generalize restriction.members = members
  induction members generalizing restrictions with
  | nil => exact ⟨[], (List.append_nil _).symm, by simp, by simp⟩
  | cons first rest ih =>
      obtain ⟨added, whole, drawn, covered⟩ := ih (addRestriction restrictions first)
      rw [List.foldl_cons, whole]
      by_cases present : restrictions.contains first = true
      · rw [addRestriction, if_pos present] at covered ⊢
        refine ⟨added, rfl, fun member inside => List.mem_cons_of_mem _ (drawn member inside), ?_⟩
        rw [List.forall_mem_cons]
        obtain ⟨other, inside, equal⟩ := List.contains_iff_exists_mem_beq.1 present
        exact ⟨⟨other, List.mem_append_left _ inside, equal⟩, covered⟩
      · rw [addRestriction, if_neg present] at covered ⊢
        rw [List.append_assoc, List.singleton_append] at covered ⊢
        refine ⟨first :: added, rfl, ?_, ?_⟩
        · rw [List.forall_mem_cons]
          exact ⟨List.mem_cons_self, fun member inside =>
            List.mem_cons_of_mem _ (drawn member inside)⟩
        · rw [List.forall_mem_cons]
          exact ⟨⟨first, by simp, first.same_refl⟩, covered⟩

/-- The source that a projection reads from. -/
def Operator.source? : Operator → Option Expression
  | .projection source => some source
  | _ => none

/-- The restrictions that an operator takes over from its source. -/
def Operator.inherited (operator : Operator) : List Restriction :=
  operator.source?.elim [] Expression.restrictions

/-- The restricting attributes that an operator takes over from its source. -/
def Operator.inheritedNames (operator : Operator) : NameSet :=
  operator.source?.elim NameSet.empty Expression.restricting

/-- An expression is restricted by what its operator takes over and by what the restrictions
added since mention. -/
def Expression.Accounts (e : Expression) : Prop :=
  ∃ added, e.restrictions = e.operator.inherited ++ added ∧
    ∀ name, name ∈ e.restricting ↔
      name ∈ e.operator.inheritedNames ∨ Mentioned e.heading (leavesOfAll added) name

theorem not_mentioned_nil {heading : Heading} {name : String} : ¬ Mentioned heading [] name := by
  simp [Mentioned]

theorem Expression.accounts_of_start {e : Expression}
    (restrictions : e.restrictions = e.operator.inherited)
    (restricting : ∀ name, name ∈ e.restricting ↔ name ∈ e.operator.inheritedNames) :
    e.Accounts := by
  refine ⟨[], by rw [restrictions, List.append_nil], fun name => ?_⟩
  rw [restricting, leavesOfAll]
  exact (or_iff_left not_mentioned_nil).symm

/-- A recorded restriction is accounted for when what it repeats was accounted for before. -/
theorem Expression.Accounts.record {e : Expression} (accounts : e.Accounts)
    {restriction : Restriction} {mentioned : NameSet}
    (columns : ∀ name, name ∈ mentioned ↔ Mentioned e.heading restriction.leaves name)
    (repeated : ∀ member ∈ restriction.members, ∀ other ∈ e.operator.inherited,
      member.same other = true → ∀ name, Mentioned e.heading member.leaves name →
        name ∈ e.operator.inheritedNames) :
    (e.record restriction mentioned).Accounts := by
  obtain ⟨before, restrictions, restricting⟩ := accounts
  obtain ⟨added, whole, drawn, covered⟩ := exists_appendRestriction e.restrictions restriction
  rw [restrictions] at covered
  refine ⟨before ++ added, ?_, fun name => ?_⟩
  · show appendRestriction e.restrictions restriction = _
    rw [whole, restrictions, List.append_assoc]
    rfl
  · show name ∈ e.restricting.union mentioned ↔
      name ∈ e.operator.inheritedNames ∨ Mentioned e.heading (leavesOfAll (before ++ added)) name
    rw [NameSet.mem_union, restricting, columns]
    constructor
    · rintro ((known | ⟨leaf, below, reason⟩) | ⟨leaf, below, reason⟩)
      · exact .inl known
      · obtain ⟨other, inside, below⟩ := mem_leavesOfAll.1 below
        exact .inr ⟨leaf, mem_leavesOfAll.2 ⟨other, List.mem_append_left _ inside, below⟩, reason⟩
      · obtain ⟨member, listed, below⟩ := Restriction.member_of_leaf restriction below
        obtain ⟨other, inside, equal⟩ := covered member listed
        have alone : Mentioned e.heading member.leaves name := ⟨leaf, below, reason⟩
        rw [List.append_assoc] at inside
        rcases List.mem_append.1 inside with inherited | own
        · exact .inl (repeated member listed other inherited equal name alone)
        · obtain ⟨leaf', below', reason'⟩ :=
            (mentioned_congr (fun _ => .rfl) (member.leaves_congr other equal) name).1 alone
          exact .inr ⟨leaf', mem_leavesOfAll.2 ⟨other, own, below'⟩, reason'⟩
    · rintro (known | ⟨leaf, below, reason⟩)
      · exact .inl (.inl known)
      · obtain ⟨other, inside, below⟩ := mem_leavesOfAll.1 below
        rcases List.mem_append.1 inside with old | new
        · exact .inl (.inr ⟨leaf, mem_leavesOfAll.2 ⟨other, old, below⟩, reason⟩)
        · exact .inr ⟨leaf, Restriction.leaves_of_members (drawn other new) below, reason⟩

section Recording

variable {e : Expression} {restriction : Restriction} {compiled : Compiled}

/-- The columns of an accepted restriction are what it mentions. -/
theorem Expression.mem_columns_of_validate (accepted : e.validate restriction = .ok compiled)
    (name : String) :
    name ∈ compiled.columns ↔ Mentioned e.heading restriction.leaves name :=
  restriction.mem_columns_of_compile (e.scope e.session.config.semanticCheck) name
    (Prod.ext (validate_ok accepted).1 rfl)

/-- What a projection took over mentions nothing new unless it asks for a new name. -/
theorem Reachable.inherited_of_mentioned {source : Expression} {member other : Restriction}
    (reached : Reachable sessions e) (projection : e.operator = .projection source)
    (inside : other ∈ source.restrictions) (equal : member.same other = true)
    (plain : ∀ name, Mentioned e.heading member.leaves name → name ∉ e.heading.derived)
    (name : String) (mentioned : Mentioned e.heading member.leaves name) :
    name ∈ source.restricting := by
  have leaves := member.leaves_congr other equal
  obtain ⟨⟨selected, renames, keepKey, heading, kept⟩, carries⟩ :=
    reached.carried_by_projection projection inside
  have carried := (carries other inside).2
  have agrees : source.heading.AgreesOn e.heading other.leaves := by
    intro leaf below asked awaited
    apply Heading.agreesAt_of_projectKeyed heading
    · intro shown
      exact kept asked (carried asked ⟨leaf, below, .inr ⟨awaited, shown⟩⟩).1 shown
    · -- a new name is derived, and the equal restriction would mention it
      intro new
      obtain ⟨attr, visible, named, derived⟩ := Heading.exists_of_new_name heading new
      have shown : asked ∈ e.heading.names := Heading.mem_names.2 ⟨attr, visible, named⟩
      have found := (mentioned_congr (fun _ => .rfl) leaves asked).2
        ⟨leaf, below, .inr ⟨awaited, shown⟩⟩
      exact plain asked found (Heading.mem_derived.2 ⟨attr, visible, derived, named⟩)
  have again := (mentioned_congr (fun _ => .rfl) leaves name).1 mentioned
  exact (carried name ((agrees.mentioned_iff name).2 again)).1

/-- A restriction on plain columns, or on groups, is accounted for. -/
theorem Reachable.accounts_record (reached : Reachable sessions e) (accounts : e.Accounts)
    (accepted : e.validate restriction = .ok compiled)
    (plain : e.operator.isGrouping = false →
      ∀ name ∈ compiled.columns, name ∉ e.heading.derived) :
    (e.record restriction compiled.columns).Accounts := by
  refine accounts.record (Expression.mem_columns_of_validate accepted) ?_
  intro member listed other inside equal name mentioned
  cases projection : e.operator with
  | projection source =>
      rw [projection] at inside plain
      refine reached.inherited_of_mentioned projection inside equal ?_ name mentioned
      rintro asked ⟨leaf, below, reason⟩
      refine plain rfl asked ((Expression.mem_columns_of_validate accepted asked).2 ?_)
      exact ⟨leaf, Restriction.leaves_of_members listed below, reason⟩
  | table _ | join _ _ _ | grouping _ | union _ _ | subquery _ =>
      rw [projection] at inside
      contradiction

end Recording

/-- Without restrictions there are no restricting attributes. -/
def Expression.Unmarked (e : Expression) : Prop :=
  e.restrictions = [] → ∀ name, name ∉ e.restricting

theorem Expression.unmarked_asSubquery (e : Expression) : e.asSubquery.Unmarked :=
  fun _ => NameSet.not_mem_empty

theorem Expression.Unmarked.joinOperand {e : Expression} (unmarked : e.Unmarked)
    (overlapping : Bool) (name : String) : name ∉ (e.joinOperand overlapping).restricting := by
  rcases e.joinOperand_cases overlapping with wrapped | ⟨direct, _, _, bare⟩
  · rw [wrapped]
    exact NameSet.not_mem_empty name
  · rw [direct]
    exact unmarked bare name

/-- A restriction that adds no member has no leaf that mentions anything. -/
theorem Expression.Unmarked.record {e : Expression} (unmarked : e.Unmarked)
    {restriction : Restriction} {mentioned : NameSet} {heading : Heading}
    (columns : ∀ name, name ∈ mentioned ↔ Mentioned heading restriction.leaves name) :
    (e.record restriction mentioned).Unmarked := by
  intro bare name inside
  have added : appendRestriction e.restrictions restriction = [] := bare
  have before : e.restrictions = [] :=
    List.prefix_nil.1 (added ▸ prefix_appendRestriction e.restrictions restriction)
  rcases (NameSet.mem_union _ _ name).1 inside with known | new
  · exact unmarked before name known
  · obtain ⟨leaf, below, _⟩ := (columns name).1 new
    obtain ⟨member, listed, _⟩ := Restriction.member_of_leaf restriction below
    rw [members_eq_nil_of_appendRestriction added] at listed
    contradiction

theorem Reachable.unmarked {e : Expression} (reached : Reachable sessions e) : e.Unmarked := by
  induction reached with
  | table _ built =>
      obtain ⟨heading, _, rfl⟩ := Expression.ofTable_ok built
      exact fun _ => NameSet.not_mem_empty
  | @restrict e _ _ _ _ built ih =>
      obtain ⟨compiled, accepted, ⟨_, rfl⟩ | ⟨_, rfl⟩⟩ := Expression.restrict_ok built
      · exact ih
      · rcases e.restrictedSource_cases with wrapped | ⟨direct, _⟩
        · rw [wrapped]
          exact e.unmarked_asSubquery.record (Expression.mem_columns_of_validate accepted)
        · rw [direct]
          exact ih.record (Expression.mem_columns_of_validate accepted)
  | restrictDirectly _ _ built ih =>
      obtain ⟨compiled, accepted, ⟨_, rfl⟩ | ⟨_, rfl, _⟩⟩ := Expression.restrictDirectly_ok built
      · exact ih
      · exact ih.record (Expression.mem_columns_of_validate accepted)
  | join _ _ built ih ih' =>
      intro _ name inside
      rw [(Expression.joinAs_ok built).restricting, NameSet.mem_union] at inside
      exact inside.elim (ih.joinOperand _ name) (ih'.joinOperand _ name)
  | @project e _ _ renames keepKey _ built ih =>
      obtain ⟨selection, projects⟩ := Expression.projectItems_ok built
      intro bare name inside
      rw [projects.restrictions] at bare
      rw [projects.restricting] at inside
      rcases e.projectedSource_cases selection.selected renames keepKey with wrapped | ⟨direct, _⟩
      · rw [wrapped] at bare inside
        exact e.unmarked_asSubquery bare name inside
      · rw [direct] at bare inside
        exact ih bare name inside
  | aggregate _ _ built _ _ =>
      obtain ⟨joined, _, _, _, _, _, _, _, rfl⟩ := Expression.aggregateItems_ok built
      exact fun _ => NameSet.not_mem_empty
  | groupOver _ built _ =>
      obtain ⟨heading, _, rfl⟩ := Expression.groupOver_ok built
      exact fun _ => NameSet.not_mem_empty
  | union _ _ built _ _ =>
      obtain ⟨_, _, _, _, rfl⟩ := Expression.union_ok built
      exact fun _ => NameSet.not_mem_empty
  | subquery _ _ => exact fun _ => NameSet.not_mem_empty

/-- What restricts a reachable expression is accounted for. -/
theorem Reachable.accounts {e : Expression} (reached : Reachable sessions e) : e.Accounts := by
  induction reached with
  | table _ built =>
      obtain ⟨heading, _, rfl⟩ := Expression.ofTable_ok built
      exact Expression.accounts_of_start rfl fun _ => .rfl
  | @restrict e _ restriction source _ built ih =>
      obtain ⟨compiled, accepted, ⟨_, rfl⟩ | ⟨_, rfl⟩⟩ := Expression.restrict_ok built
      · exact ih
      · rcases e.restrictedSource_cases with wrapped | ⟨direct, reason⟩
        · rw [wrapped]
          refine (Expression.accounts_of_start rfl fun _ => .rfl).record (fun name => ?_) ?_
          · rw [Expression.mem_columns_of_validate accepted]
            exact mentioned_congr (fun name => by rw [e.names_asSubquery])
              (restriction.leaves_congr _ restriction.same_refl) name
          · exact fun _ _ _ inside => by contradiction
        · rw [direct]
          refine source.accounts_record ih accepted fun resolved name _ => ?_
          rw [resolved] at reason
          exact Heading.not_mem_derived (reason.resolve_left Bool.false_ne_true) name
  | restrictDirectly source _ built ih =>
      obtain ⟨compiled, accepted, ⟨_, rfl⟩ | ⟨_, rfl, plain⟩⟩ :=
        Expression.restrictDirectly_ok built
      · exact ih
      · exact source.accounts_record ih accepted plain
  | @join left right _ _ first second built _ _ =>
      have joins := Expression.joinAs_ok built
      refine Expression.accounts_of_start ?_ fun name => ?_
      · rw [joins.restrictions, joins.operator]
        rfl
      · rw [joins.restricting, joins.operator, NameSet.mem_union]
        refine iff_of_false (not_or.2 ⟨?_, ?_⟩) (NameSet.not_mem_empty name)
        · exact first.unmarked.joinOperand _ name
        · exact second.unmarked.joinOperand _ name
  | project _ built _ =>
      obtain ⟨selection, projects⟩ := Expression.projectItems_ok built
      refine Expression.accounts_of_start ?_ fun name => ?_
      · rw [projects.restrictions, projects.operator]
        rfl
      · rw [projects.restricting, projects.operator]
        rfl
  | aggregate _ _ built _ _ =>
      obtain ⟨joined, _, _, _, _, _, _, _, rfl⟩ := Expression.aggregateItems_ok built
      exact Expression.accounts_of_start rfl fun _ => .rfl
  | groupOver _ built _ =>
      obtain ⟨heading, _, rfl⟩ := Expression.groupOver_ok built
      exact Expression.accounts_of_start rfl fun _ => .rfl
  | union _ _ built _ _ =>
      obtain ⟨_, _, _, _, rfl⟩ := Expression.union_ok built
      exact Expression.accounts_of_start rfl fun _ => .rfl
  | subquery _ _ => exact Expression.accounts_of_start rfl fun _ => .rfl

/-- What equality does not compare is the same in both expressions. -/
structure Expression.Hides (first second : Expression) : Prop where
  columns : first.columns.Reorders second.columns
  restricting : ∀ name, name ∈ first.restricting ↔ name ∈ second.restricting

/-- Expressions that take over the same are restricted by the same attributes. -/
theorem Expression.Accounts.congr {e other : Expression} (accounts : e.Accounts)
    (accounts' : other.Accounts) (same : e.same other = true)
    (inherited : sameRestrictions e.operator.inherited other.operator.inherited = true)
    (names : ∀ name, name ∈ e.operator.inheritedNames ↔ name ∈ other.operator.inheritedNames)
    (name : String) : name ∈ e.restricting ↔ name ∈ other.restricting := by
  obtain ⟨added, whole, restricting⟩ := accounts
  obtain ⟨added', whole', restricting'⟩ := accounts'
  have restricted := sameRestrictions_iff.1 (sameRestrictions_of_same same)
  rw [whole, whole'] at restricted
  have length := (sameRestrictions_iff.1 inherited).length_eq
  have rest := List.forall₂_drop e.operator.inherited.length restricted
  rw [List.drop_left, length, List.drop_left] at rest
  have leaves := leavesOfAll_congr added added' (sameRestrictions_iff.2 rest)
  have headings := (resembles_of_same same).heading
  rw [restricting, restricting', names,
    mentioned_congr (fun name => headings.names.mem_iff) leaves name]

/-- Equal reachable expressions have the same columns and restricting attributes. -/
theorem Reachable.hides : ∀ e other : Expression, Reachable sessions e →
    Reachable sessions other → e.same other = true → e.Hides other
  | ⟨_, .table _, _, _, _, _, _⟩ | ⟨_, .grouping _, _, _, _, _, _⟩
  | ⟨_, .union _ _, _, _, _, _, _⟩ | ⟨_, .subquery _, _, _, _, _, _⟩ => by
      intro other reached reached' same
      have resembles := Expression.resembles_of_same same
      have operators := resembles.operator
      have follows := reached'.followsColumns
      cases node : other.operator <;>
        simp only [node, Operator.same, Bool.false_eq_true] at operators
      unfold Expression.FollowsColumns at follows
      rw [node] at follows
      refine ⟨?_, reached.accounts.congr reached'.accounts same ?_ ?_⟩
      · rw [reached.followsColumns, follows]
        exact resembles.heading
      · rw [node]
        exact sameRestrictions_refl []
      · rw [node]
        exact fun _ => .rfl
  | ⟨_, .join left right _, _, _, _, _, _⟩ => by
      intro other reached reached' same
      have resembles := Expression.resembles_of_same same
      have operators := resembles.operator
      have follows : left.columns.join right.columns [] = .ok _ := reached.followsColumns
      have follows' := reached'.followsColumns
      unfold Expression.FollowsColumns at follows'
      cases node : other.operator <;>
        simp only [node, Operator.same, Bool.false_eq_true, Bool.and_eq_true] at operators
      rename_i left' right' _
      rw [node] at follows'
      have first := Reachable.hides left left' (reached.operand (by simp [Operator.operands]))
        (reached'.operand (by simp [node, Operator.operands])) operators.1.1
      have second := Reachable.hides right right' (reached.operand (by simp [Operator.operands]))
        (reached'.operand (by simp [node, Operator.operands])) operators.1.2
      have joined := first.columns.join second.columns (.refl [])
      rw [follows, follows'] at joined
      refine ⟨?_, reached.accounts.congr reached'.accounts same ?_ ?_⟩
      · cases joined with
        | given alike => exact alike
      · rw [node]
        exact sameRestrictions_refl []
      · rw [node]
        exact fun _ => .rfl
  | ⟨_, .projection source, _, _, _, _, _⟩ => by
      intro other reached reached' same
      have resembles := Expression.resembles_of_same same
      have operators := resembles.operator
      have follows := reached'.followsColumns
      unfold Expression.FollowsColumns at follows
      cases node : other.operator <;>
        simp only [node, Operator.same, Bool.false_eq_true] at operators
      rename_i source'
      rw [node] at follows
      have inner := Reachable.hides source source'
        (reached.operand (List.mem_singleton_self source))
        (reached'.operand (node ▸ List.mem_singleton_self source')) operators
      refine ⟨?_, reached.accounts.congr reached'.accounts same ?_ ?_⟩
      · rw [reached.followsColumns, follows]
        exact inner.columns
      · rw [node]
        exact Expression.sameRestrictions_of_same operators
      · rw [node]
        exact inner.restricting

end QueryAlgebra
