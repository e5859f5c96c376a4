/-
This file defines the expressions that successful operators build from the tables of sessions.
Every expression that occurs inside a reachable one is reachable.
-/
import QueryAlgebra.Expression.Universal
import QueryAlgebra.Proofs.OperatorResults

namespace QueryAlgebra

mutual

/-- The expressions that the semijoins of a restriction read from. -/
def Restriction.partners : Restriction → List Expression
  | .constant _ | .raw _ | .mapping _ | .record _ | .universal _ => []
  | .disjunction items => partnersOfAll items
  | .conjunction items => partnersOfAll items
  | .negation restriction => restriction.partners
  | .semijoin partner _ => [partner]

def partnersOfAll : List Restriction → List Expression
  | [] => []
  | restriction :: rest => restriction.partners ++ partnersOfAll rest

end

theorem mem_partnersOfAll {restrictions : List Restriction} {partner : Expression} :
    partner ∈ partnersOfAll restrictions ↔
      ∃ restriction ∈ restrictions, partner ∈ restriction.partners := by
  induction restrictions with
  | nil => simp [partnersOfAll]
  | cons first rest ih => simp [partnersOfAll, ih]

def Operator.operands : Operator → List Expression
  | .table _ => []
  | .join left right _ => [left, right]
  | .projection source => [source]
  | .grouping source => [source]
  | .union left right => [left, right]
  | .subquery inner => [inner]

/-- The expressions that an expression is put together from. -/
def Expression.parts (e : Expression) : List Expression :=
  e.operator.operands ++ partnersOfAll e.restrictions

/-- A node occurs at the root of a tree or inside one of its parts. -/
inductive Occurs (node : Expression) : Expression → Prop where
  | root : Occurs node node
  | inside {part e : Expression} (member : part ∈ e.parts) (below : Occurs node part) :
      Occurs node e

/-- Operators that succeed build an expression from tables of the given sessions.
Universal sets add nothing, because they project or group the expressions they meet. -/
inductive Reachable (sessions : Session → Prop) : Expression → Prop where
  | table {session : Session} {declaration : TableDeclaration} {result : Expression}
      (known : sessions session) (built : Expression.ofTable session declaration = .ok result) :
      Reachable sessions result
  | restrict {e result : Expression} {restriction : Restriction} (source : Reachable sessions e)
      (partners : ∀ partner ∈ restriction.partners, Reachable sessions partner)
      (built : e.restrict restriction = .ok result) : Reachable sessions result
  | restrictDirectly {e result : Expression} {restriction : Restriction}
      (source : Reachable sessions e)
      (partners : ∀ partner ∈ restriction.partners, Reachable sessions partner)
      (built : e.restrictDirectly restriction = .ok result) : Reachable sessions result
  | join {left right result : Expression} {mode : JoinMode} (first : Reachable sessions left)
      (second : Reachable sessions right) (built : left.joinAs right mode = .ok result) :
      Reachable sessions result
  | project {e result : Expression} {items : List ProjectionItem} {renames : Renames}
      {keepKey : Bool} (source : Reachable sessions e)
      (built : e.projectItems items renames keepKey = .ok result) : Reachable sessions result
  | aggregate {base group result : Expression} {items : List ProjectionItem} {renames : Renames}
      {keepAll : Bool} (first : Reachable sessions base) (second : Reachable sessions group)
      (built : base.aggregateItems group items renames keepAll = .ok result) :
      Reachable sessions result
  | groupOver {e result : Expression} {key : List String} {renames : Renames}
      (source : Reachable sessions e) (built : e.groupOver key renames = .ok result) :
      Reachable sessions result
  | union {left right result : Expression} (first : Reachable sessions left)
      (second : Reachable sessions right) (built : left.union right = .ok result) :
      Reachable sessions result
  | subquery {e : Expression} (source : Reachable sessions e) : Reachable sessions e.asSubquery

variable {sessions : Session → Prop}

/-- A projection that does not fail has a reachable result. -/
theorem Reachable.exists_project {e : Expression} (source : Reachable sessions e)
    (items : List ProjectionItem) (renames : Renames) (keepKey : Bool)
    (succeeds : (e.projectItems items renames keepKey).isOk = true) :
    ∃ result, e.projectItems items renames keepKey = .ok result ∧ Reachable sessions result := by
  obtain ⟨result, built⟩ := isOk_iff.1 succeeds
  exact ⟨result, built, .project source built⟩

/-- A restriction of a universal set projects. -/
theorem Reachable.restrictBy {set : UniversalSet} {e result : Expression}
    (source : Reachable sessions e) (built : set.restrictBy e = .ok result) :
    Reachable sessions result := by
  unfold UniversalSet.restrictBy at built
  split at built
  · contradiction
  · exact .project source built

/-- An aggregation over a universal set groups. -/
theorem Reachable.aggregateBy {set : UniversalSet} {e result : Expression}
    {renames : List (String × String)} {keepAll : Bool} (source : Reachable sessions e)
    (built : set.aggregate e renames keepAll = .ok result) : Reachable sessions result := by
  unfold UniversalSet.aggregate at built
  split at built
  · contradiction
  · exact .groupOver source built

mutual

/-- What conjunctions hand down to their items also comes down to the members. -/
theorem Restriction.forall_members {holds : Restriction → Prop}
    (inherited : ∀ items, holds (.conjunction items) → ∀ item ∈ items, holds item) :
    ∀ restriction : Restriction, holds restriction → ∀ member ∈ restriction.members, holds member
  | .conjunction items => by
      intro whole
      rw [Restriction.members]
      exact forall_membersOfAll inherited items (inherited items whole)
  | .constant _ => by simp [Restriction.members]
  | .raw _ => by simp [Restriction.members]
  | .mapping _ => by simp [Restriction.members]
  | .record _ => by simp [Restriction.members]
  | .disjunction _ => by simp [Restriction.members]
  | .negation _ => by simp [Restriction.members]
  | .semijoin _ _ => by simp [Restriction.members]
  | .universal _ => by simp [Restriction.members]

theorem forall_membersOfAll {holds : Restriction → Prop}
    (inherited : ∀ items, holds (.conjunction items) → ∀ item ∈ items, holds item) :
    ∀ items : List Restriction, (∀ item ∈ items, holds item) →
      ∀ member ∈ membersOfAll items, holds member
  | [] => by simp [membersOfAll]
  | first :: rest => by
      intro all
      obtain ⟨head, tail⟩ := List.forall_mem_cons.1 all
      rw [membersOfAll, List.forall_mem_append]
      exact ⟨Restriction.forall_members inherited first head,
        forall_membersOfAll inherited rest tail⟩

end

/-- The members of a restriction read from no further expression. -/
theorem Restriction.partners_of_members {partner : Expression} {restriction member : Restriction}
    (inside : member ∈ restriction.members) (read : partner ∈ member.partners) :
    partner ∈ restriction.partners := by
  have inherited : ∀ items : List Restriction,
      (partner ∈ (Restriction.conjunction items).partners → partner ∈ restriction.partners) →
        ∀ item ∈ items, partner ∈ item.partners → partner ∈ restriction.partners := by
    intro items whole item listed below
    apply whole
    rw [Restriction.partners, mem_partnersOfAll]
    exact ⟨item, listed, below⟩
  exact @forall_members (fun other => partner ∈ other.partners → partner ∈ restriction.partners)
    inherited restriction id member inside read

/-- The restrictions that were there before stay in front. -/
theorem prefix_foldl_addRestriction (restrictions members : List Restriction) :
    restrictions <+: members.foldl addRestriction restrictions := by
  induction members generalizing restrictions with
  | nil => exact List.prefix_rfl
  | cons first rest ih =>
      refine List.IsPrefix.trans ?_ (ih (addRestriction restrictions first))
      unfold addRestriction
      split
      · exact List.prefix_rfl
      · exact List.prefix_append restrictions [first]

theorem prefix_appendRestriction (restrictions : List Restriction) (restriction : Restriction) :
    restrictions <+: appendRestriction restrictions restriction :=
  prefix_foldl_addRestriction restrictions restriction.members

/-- A restriction with members leaves none of the lists that it is appended to empty. -/
theorem members_eq_nil_of_appendRestriction {restrictions : List Restriction}
    {restriction : Restriction} (none : appendRestriction restrictions restriction = []) :
    restriction.members = [] := by
  unfold appendRestriction at none
  cases members : restriction.members with
  | nil => rfl
  | cons first rest =>
      rw [members, List.foldl_cons] at none
      have front := prefix_foldl_addRestriction (addRestriction restrictions first) rest
      rw [none, List.prefix_nil] at front
      unfold addRestriction at front
      split at front
      · rename_i present
        rw [front] at present
        contradiction
      · simp at front

/-- Only members of the appended restriction are added. -/
theorem mem_of_appendRestriction {restrictions : List Restriction} {restriction : Restriction}
    {other : Restriction} (inside : other ∈ appendRestriction restrictions restriction) :
    other ∈ restrictions ∨ other ∈ restriction.members := by
  unfold appendRestriction at inside
  generalize restriction.members = members at inside ⊢
  induction members generalizing restrictions with
  | nil => exact .inl inside
  | cons first rest ih =>
      rcases ih inside with before | after
      · unfold addRestriction at before
        split at before
        · exact .inl before
        · rw [List.mem_append, List.mem_singleton] at before
          rcases before with before | rfl
          · exact .inl before
          · exact .inr List.mem_cons_self
      · exact .inr (List.mem_cons_of_mem first after)

/-- Recording a restriction adds no other expressions than those it reads from. -/
theorem Expression.parts_record {e part : Expression} {restriction : Restriction}
    {mentioned : NameSet} (inside : part ∈ (e.record restriction mentioned).parts) :
    part ∈ e.parts ∨ part ∈ restriction.partners := by
  unfold Expression.parts at inside ⊢
  rw [List.mem_append, mem_partnersOfAll] at inside
  rw [List.mem_append, mem_partnersOfAll]
  rcases inside with operand | ⟨other, member, read⟩
  · exact .inl (.inl operand)
  · rcases mem_of_appendRestriction member with before | added
    · exact .inl (.inr ⟨other, before, read⟩)
    · exact .inr (Restriction.partners_of_members added read)

theorem Expression.parts_asSubquery (e : Expression) : e.asSubquery.parts = [e] := rfl

/-- A join has no parts but its operands. -/
theorem Expression.Joins.mem_parts {left right result part : Expression} {mode : JoinMode}
    (joins : left.Joins right mode result) (member : part ∈ result.parts) :
    part = left.joinedLeft right ∨ part = left.joinedRight right := by
  rw [parts, joins.operator, joins.restrictions] at member
  simpa [Operator.operands, partnersOfAll] using member

/-- A projection has its source as a part and what the carried restrictions read from. -/
theorem Expression.Projects.mem_parts {e result part : Expression} {items : List ProjectionItem}
    {renames : Renames} {keepKey : Bool} {selection : Selection}
    (projects : e.Projects items renames keepKey selection result)
    (member : part ∈ result.parts) :
    part = e.projectedSource selection.selected renames keepKey ∨ part ∈ e.parts := by
  rw [parts, projects.operator, projects.restrictions, List.mem_append] at member
  rcases member with operand | carried
  · exact .inl (List.mem_singleton.1 operand)
  · rcases e.projectedSource_cases selection.selected renames keepKey with wrapped | ⟨direct, _⟩
    · rw [wrapped] at carried
      contradiction
    · rw [direct] at carried
      exact .inr (List.mem_append_right _ carried)

theorem Expression.mem_parts_united {left right part : Expression} {heading columns : Heading}
    (member : part ∈ (plain left.session (.union left right) heading columns).parts) :
    part = left ∨ part = right := by
  simpa [parts, plain, Operator.operands, partnersOfAll] using member

theorem Reachable.joinOperand {e : Expression} (reached : Reachable sessions e)
    (overlapping : Bool) : Reachable sessions (e.joinOperand overlapping) := by
  rcases e.joinOperand_cases overlapping with wrapped | ⟨direct, _⟩
  · rw [wrapped]
    exact reached.subquery
  · rwa [direct]

theorem Reachable.projectedSource {e : Expression} (reached : Reachable sessions e)
    (selected : List String) (renames : Renames) (keepKey : Bool) :
    Reachable sessions (e.projectedSource selected renames keepKey) := by
  rcases e.projectedSource_cases selected renames keepKey with wrapped | ⟨direct, _⟩
  · rw [wrapped]
    exact reached.subquery
  · rwa [direct]

theorem Reachable.restrictedSource {e : Expression} (reached : Reachable sessions e) :
    Reachable sessions e.restrictedSource := by
  unfold Expression.restrictedSource
  split
  · exact reached.subquery
  · exact reached

theorem Reachable.groupedSource {e : Expression} (reached : Reachable sessions e) :
    Reachable sessions e.groupedSource := by
  unfold Expression.groupedSource
  split
  · exact reached.subquery
  · exact reached

/-- The parts of a reachable expression are reachable. -/
theorem Reachable.part {e part : Expression} (reached : Reachable sessions e)
    (member : part ∈ e.parts) : Reachable sessions part := by
  induction reached with
  | table _ built =>
      obtain ⟨heading, _, rfl⟩ := Expression.ofTable_ok built
      contradiction
  | @restrict e _ restriction source partners built ih =>
      obtain ⟨compiled, _, ⟨_, rfl⟩ | ⟨_, rfl⟩⟩ := Expression.restrict_ok built
      · exact ih member
      · rcases Expression.parts_record member with before | read
        · rcases e.restrictedSource_cases with wrapped | ⟨direct, _⟩
          · rw [wrapped, Expression.parts_asSubquery, List.mem_singleton] at before
            exact before ▸ source
          · rw [direct] at before
            exact ih before
        · exact partners part read
  | restrictDirectly source partners built ih =>
      obtain ⟨compiled, _, ⟨_, rfl⟩ | ⟨_, rfl, _⟩⟩ := Expression.restrictDirectly_ok built
      · exact ih member
      · exact (Expression.parts_record member).elim ih (partners part)
  | @join left right result mode first second built _ _ =>
      rcases (Expression.joinAs_ok built).mem_parts member with rfl | rfl
      · exact first.joinOperand _
      · exact second.joinOperand _
  | @project e result items renames keepKey source built ih =>
      obtain ⟨selection, projects⟩ := Expression.projectItems_ok built
      rcases projects.mem_parts member with rfl | inside
      · exact source.projectedSource selection.selected renames keepKey
      · exact ih inside
  | aggregate first second built _ _ =>
      obtain ⟨joined, _, _, _, join, _, _, _, rfl⟩ := Expression.aggregateItems_ok built
      rw [List.mem_singleton.1 member]
      exact .join first second join
  | groupOver source built _ =>
      obtain ⟨heading, _, rfl⟩ := Expression.groupOver_ok built
      rw [List.mem_singleton.1 member]
      exact source.groupedSource
  | @union left right _ first second built _ _ =>
      obtain ⟨_, _, _, _, rfl⟩ := Expression.union_ok built
      rcases Expression.mem_parts_united member with rfl | rfl
      · exact first
      · exact second
  | subquery source _ =>
      rw [List.mem_singleton.1 member]
      exact source

/-- Every node that occurs in a reachable expression is reachable. -/
theorem Reachable.node {e node : Expression} (reached : Reachable sessions e)
    (occurs : Occurs node e) : Reachable sessions node := by
  induction occurs with
  | root => exact reached
  | inside member _ ih => exact ih (reached.part member)

/-- The session of the sample tables. -/
def laboratory : Session := ⟨0, .strict⟩

def subjectDeclaration : TableDeclaration :=
  ⟨"lab", "subject", [.primary "subject_id" .int, .secondary "species" .string,
    .secondary "sex" .string]⟩

/-- The entries of a subject carry a tag that is not shown. -/
def logDeclaration : TableDeclaration :=
  ⟨"lab", "log", [subjectDeclaration.referenceTo true [], .primary "entry" .int,
    .hidden "tag" .string]⟩

end QueryAlgebra
