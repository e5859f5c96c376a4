/-
This file determines which reachable expressions have a statement.
Only a new name that a projection in place gives can make a carried restriction fail.
-/
import QueryAlgebra.Proofs.LeafCompilation
import QueryAlgebra.Proofs.RenderingSuccess

namespace QueryAlgebra

/-- A projection has the heading that its source gives and keeps what restricts that source,
and a union shows names that both operands show. -/
def Expression.Formed (e : Expression) : Prop :=
  match e.operator with
  | .projection source => source.restrictions = [] ∨
      ∃ selected renames keepKey,
        source.heading.projectKeyed selected renames keepKey = .ok e.heading ∧
          ∀ name ∈ source.restricting, name ∈ source.heading.names → name ∈ selected
  | .union left right =>
      ∀ name ∈ e.heading.names, name ∈ left.heading.names ∧ name ∈ right.heading.names
  | _ => True

variable {sessions : Session → Prop}

theorem mem_sortedNames {names : List String} {name : String} :
    name ∈ sortedNames names ↔ name ∈ names :=
  (List.mergeSort_perm names _).mem_iff

/-- Operators keep what makes projections and unions well-formed. -/
theorem Reachable.formed {e : Expression} (reached : Reachable sessions e) : e.Formed := by
  induction reached with
  | table _ built =>
      obtain ⟨heading, _, rfl⟩ := Expression.ofTable_ok built
      trivial
  | restrict _ _ built ih => exact Expression.restrict_preserves built ih trivial fun _ _ => id
  | restrictDirectly _ _ built ih =>
      exact Expression.restrictDirectly_preserves built ih fun _ => id
  | join _ _ built _ _ =>
      unfold Expression.Formed
      rw [(Expression.joinAs_ok built).operator]
      trivial
  | @project e _ _ renames keepKey _ built _ =>
      obtain ⟨selection, projects⟩ := Expression.projectItems_ok built
      unfold Expression.Formed
      rw [projects.operator]
      have heading := projects.heading
      rcases e.projectedSource_cases selection.selected renames keepKey with
        wrapped | ⟨direct, _, _, kept⟩
      · rw [wrapped]
        exact .inl e.restrictions_asSubquery
      · rw [direct] at heading ⊢
        exact .inr ⟨_, _, _, heading, kept⟩
  | aggregate _ _ built _ _ =>
      obtain ⟨joined, _, _, _, _, _, _, _, rfl⟩ := Expression.aggregateItems_ok built
      trivial
  | groupOver _ built _ =>
      obtain ⟨heading, _, rfl⟩ := Expression.groupOver_ok built
      trivial
  | @union left right _ _ _ built _ _ =>
      obtain ⟨_, sameNames, _, _, rfl⟩ := Expression.union_ok built
      intro name shown
      have inside : name ∈ left.heading.names := by
        rwa [← left.heading.names_asColumns]
      exact ⟨inside, mem_sortedNames.1 (sameNames ▸ mem_sortedNames.2 inside)⟩
  | subquery _ _ => trivial

/-- A recorded restriction compiles, unless it is carried by a projection. -/
def Expression.Accepts (e : Expression) (restriction : Restriction) : Prop :=
  restriction.Compiles (e.scope e.session.config.semanticCheck) ∨
    ∃ source, e.operator = .projection source ∧ restriction ∈ source.restrictions

theorem Expression.accepts_record {e : Expression} {restriction : Restriction}
    (compiles : restriction.Compiles (e.scope e.session.config.semanticCheck))
    (before : ∀ other ∈ e.restrictions, e.Accepts other) (mentioned : NameSet) :
    ∀ other ∈ (e.record restriction mentioned).restrictions,
      (e.record restriction mentioned).Accepts other := by
  intro other inside
  rcases mem_of_appendRestriction inside with old | added
  · exact before other old
  · exact .inl (compiles.member added)

/-- What an expression is restricted by was checked against its heading or is carried. -/
theorem Reachable.accepts {e : Expression} (reached : Reachable sessions e) :
    ∀ restriction ∈ e.restrictions, e.Accepts restriction := by
  induction reached with
  | table _ built =>
      obtain ⟨heading, _, rfl⟩ := Expression.ofTable_ok built
      exact List.forall_mem_nil _
  | @restrict e _ _ _ _ built ih =>
      obtain ⟨compiled, accepted, ⟨_, rfl⟩ | ⟨_, rfl⟩⟩ := Expression.restrict_ok built
      · exact ih
      · have compiles := (Expression.compiles_of_validate accepted).1
        rcases e.restrictedSource_cases with wrapped | ⟨direct, _⟩
        · rw [wrapped]
          exact Expression.accepts_record compiles.asSubquery (List.forall_mem_nil _) _
        · rw [direct]
          exact Expression.accepts_record compiles ih _
  | restrictDirectly _ _ built ih =>
      obtain ⟨compiled, accepted, ⟨_, rfl⟩ | ⟨_, rfl, _⟩⟩ := Expression.restrictDirectly_ok built
      · exact ih
      · exact Expression.accepts_record (Expression.compiles_of_validate accepted).1 ih _
  | join _ _ built _ _ =>
      rw [(Expression.joinAs_ok built).restrictions]
      exact List.forall_mem_nil _
  | project _ built _ =>
      obtain ⟨selection, projects⟩ := Expression.projectItems_ok built
      intro restriction inside
      rw [projects.restrictions] at inside
      exact .inr ⟨_, projects.operator, inside⟩
  | aggregate _ _ built _ _ =>
      obtain ⟨joined, _, _, _, _, _, _, _, rfl⟩ := Expression.aggregateItems_ok built
      exact List.forall_mem_nil _
  | groupOver _ built _ =>
      obtain ⟨heading, _, rfl⟩ := Expression.groupOver_ok built
      exact List.forall_mem_nil _
  | union _ _ built _ _ =>
      obtain ⟨_, _, _, _, rfl⟩ := Expression.union_ok built
      exact List.forall_mem_nil _
  | subquery _ _ => exact List.forall_mem_nil _

mutual

/-- A leaf has no leaves but itself. -/
theorem Restriction.leaves_of_leaf {leaf : Restriction} :
    ∀ restriction : Restriction, leaf ∈ restriction.leaves → leaf.leaves = [leaf]
  | .constant _ | .raw _ | .mapping _ | .record _ | .semijoin _ _ | .universal _ => by
      intro inside
      rw [Restriction.leaves, List.mem_singleton] at inside
      rw [inside, Restriction.leaves]
  | .disjunction items => by
      rw [Restriction.leaves]
      exact leaves_of_leafOfAll items
  | .conjunction items => by
      rw [Restriction.leaves]
      exact leaves_of_leafOfAll items
  | .negation restriction => by
      rw [Restriction.leaves]
      exact Restriction.leaves_of_leaf restriction

theorem leaves_of_leafOfAll {leaf : Restriction} :
    ∀ items : List Restriction, leaf ∈ leavesOfAll items → leaf.leaves = [leaf]
  | [] => by simp [leavesOfAll]
  | first :: rest => by
      intro inside
      rw [leavesOfAll, List.mem_append] at inside
      exact inside.elim (Restriction.leaves_of_leaf first) (leaves_of_leafOfAll rest)

end

/-- An expression belongs to one of the sessions that its tables belong to. -/
theorem Reachable.session_mem {e : Expression} (reached : Reachable sessions e) :
    sessions e.session := by
  induction reached with
  | table known built =>
      obtain ⟨heading, _, rfl⟩ := Expression.ofTable_ok built
      exact known
  | restrict _ _ built ih =>
      exact @Expression.restrict_preserves (fun other => sessions other.session) _ _ _ built ih ih
        fun _ _ => id
  | restrictDirectly _ _ built ih =>
      exact @Expression.restrictDirectly_preserves (fun other => sessions other.session) _ _ _
        built ih fun _ => id
  | join _ _ built ih _ =>
      rw [(Expression.joinAs_ok built).session]
      exact ih
  | project _ built ih =>
      obtain ⟨selection, projects⟩ := Expression.projectItems_ok built
      rw [projects.session]
      exact ih
  | aggregate _ _ built ih _ =>
      obtain ⟨joined, _, _, _, join, _, _, _, rfl⟩ := Expression.aggregateItems_ok built
      show sessions joined.session
      rw [(Expression.joinAs_ok join).session]
      exact ih
  | @groupOver e _ _ _ _ built ih =>
      obtain ⟨heading, _, rfl⟩ := Expression.groupOver_ok built
      show sessions e.groupedSource.session
      unfold Expression.groupedSource
      split
      · exact ih
      · exact ih
  | union _ _ built ih _ =>
      obtain ⟨_, _, _, _, rfl⟩ := Expression.union_ok built
      exact ih
  | subquery _ ih => exact ih

/-- An operand is reachable like the expression that it belongs to. -/
theorem Reachable.operand {e part : Expression} (reached : Reachable sessions e)
    (member : part ∈ e.operator.operands) : Reachable sessions part :=
  reached.part (List.mem_append_left _ member)

/-- A pair names a derived attribute that cannot be compared with its value. -/
def Heading.RefusesPair (heading : Heading) (pairs : List (String × Literal)) : Prop :=
  ∃ pair ∈ pairs, (splitPath pair.1).1 ∈ heading.derived ∧
    ¬ ∃ comparison, heading.compare? pair.1 pair.2 = .ok comparison

/-- A derived attribute cannot be compared, or it has a namesake in a semijoin partner that is
not accepted or cannot be rendered. -/
def Expression.Refuses (e : Expression) : Restriction → Prop
  | .mapping pairs => e.heading.RefusesPair pairs
  | .record members =>
      e.heading.RefusesPair (members.map fun member => (member.1, Literal.ofDocument member.2))
  | .semijoin partner checked =>
      (∃ name ∈ partner.heading.names, name ∈ e.heading.derived) ∧
        ¬ ((e.scope e.session.config.semanticCheck).accept partner checked = .ok () ∧
          partner.Prints e.session.config.semanticCheck)
  | _ => False

/-- A mapping that compiles in one scope compiles in another one that differs in derived
attributes only, unless one of these is refused. -/
theorem Restriction.compiles_mapping_iff {first second : Scope}
    {pairs : List (String × Literal)} (compiles : (Restriction.mapping pairs).Compiles first)
    (agrees : ∀ pair ∈ pairs, (splitPath pair.1).1 ∉ second.heading.derived →
      first.heading.AgreesAt second.heading (splitPath pair.1).1) :
    (Restriction.mapping pairs).Compiles second ↔ ¬ second.heading.RefusesPair pairs := by
  rw [compiles_mapping] at compiles ⊢
  constructor
  · rintro compared ⟨pair, inside, derived, refused⟩
    exact refused (compared pair inside (Heading.names_of_derived derived))
  · intro free pair inside shown
    by_cases derived : (splitPath pair.1).1 ∈ second.heading.derived
    · by_contra refused
      exact free ⟨pair, inside, derived, refused⟩
    · have same := agrees pair inside derived
      rw [← same.compare?]
      exact compiles pair inside (same.mem_names_iff.2 shown)

section OneSession

variable {session : Session} {e source : Expression} {leaf : Restriction}

/-- A leaf that its source can compile is carried unless it is refused. -/
theorem Expression.compiles_iff_not_refuses (single : leaf.leaves = [leaf])
    (same : source.session = e.session)
    (compiles : leaf.Compiles (source.scope source.session.config.semanticCheck))
    (agrees : ∀ name ∈ leaf.leafAwaited, name ∉ e.heading.derived →
      source.heading.AgreesAt e.heading name) :
    leaf.Compiles (e.scope e.session.config.semanticCheck) ↔ ¬ e.Refuses leaf := by
  rw [scope, same] at compiles
  have kept : (∀ name ∈ leaf.leafAwaited, name ∉ e.heading.derived) →
      leaf.Compiles (e.scope e.session.config.semanticCheck) := by
    intro old
    obtain ⟨compiled, later, run⟩ := compiles
    refine ⟨compiled, later, leaf.compile_agrees e.session _ ?_ run⟩
    intro other inside name awaited
    rw [single, List.mem_singleton] at inside
    subst inside
    exact agrees name awaited (old name awaited)
  cases leaf with
  | mapping pairs =>
      refine Restriction.compiles_mapping_iff compiles fun pair inside old => ?_
      exact agrees _ (List.mem_map_of_mem inside) old
  | record members =>
      rw [Restriction.compiles_record] at compiles ⊢
      refine Restriction.compiles_mapping_iff compiles fun pair inside old => ?_
      obtain ⟨member, listed, rfl⟩ := List.mem_map.1 inside
      exact agrees _ (List.mem_map_of_mem listed) old
  | semijoin partner checked =>
      by_cases shared : ∃ name ∈ partner.heading.names, name ∈ e.heading.derived
      · have common : e.heading.common partner.heading ≠ [] := by
          obtain ⟨name, read, derived⟩ := shared
          exact List.ne_nil_of_mem
            (Heading.mem_common.2 ⟨Heading.names_of_derived derived, read⟩)
        rw [Restriction.compiles_semijoin common]
        exact ⟨fun accepted refused => refused.2 accepted,
          fun free => by_contra fun refused => free ⟨shared, refused⟩⟩
      · refine iff_of_true (kept fun name awaited derived => shared ⟨name, awaited, derived⟩) ?_
        exact fun refused => shared refused.1
  | constant _ | raw _ | disjunction _ | conjunction _ | negation _ | universal _ =>
      exact iff_of_true (kept (List.forall_mem_nil _)) id

/-- A projection that carries restrictions reads its source directly. It selects what they mention,
and the source compiles them. -/
theorem Reachable.carried_by_projection {restriction : Restriction}
    (reached : Reachable sessions e) (projection : e.operator = .projection source)
    (inside : restriction ∈ source.restrictions) :
    (∃ selected renames keepKey,
      source.heading.projectKeyed selected renames keepKey = .ok e.heading ∧
        ∀ name ∈ source.restricting, name ∈ source.heading.names → name ∈ selected) ∧
      source.Carries := by
  have formed := reached.formed
  have clauses := reached.root_keepsClauses
  unfold Expression.Formed at formed
  unfold Expression.KeepsClauses at clauses
  rw [projection] at formed clauses
  have operand : source ∈ e.operator.operands := projection ▸ List.mem_singleton_self source
  obtain ⟨resolved, _, underived⟩ :=
    Expression.needsSubquery_eq_false.1 (Expression.flat_iff.1 clauses.1)
  refine ⟨formed.resolve_left fun bare => ?_, (reached.operand operand).carries resolved underived⟩
  rw [bare] at inside
  contradiction

/-- A projection compiles the leaves that it carries unless they are refused. -/
theorem Reachable.compiles_carried_iff (reached : Reachable (· = session) e)
    (projection : e.operator = .projection source)
    (inside : leaf ∈ leavesOfAll source.restrictions) :
    leaf.Compiles (e.scope e.session.config.semanticCheck) ↔ ¬ e.Refuses leaf := by
  obtain ⟨restriction, member, below⟩ := mem_leavesOfAll.1 inside
  obtain ⟨⟨selected, renames, keepKey, heading, kept⟩, carries⟩ :=
    reached.carried_by_projection projection member
  obtain ⟨compiles, recorded⟩ := carries restriction member
  have operand : source ∈ e.operator.operands := projection ▸ List.mem_singleton_self source
  refine Expression.compiles_iff_not_refuses (Restriction.leaves_of_leaf restriction below)
    ((reached.operand operand).session_mem.trans reached.session_mem.symm)
    (restriction.compiles_iff_leaves.1 compiles leaf below) fun name awaited old => ?_
  apply Heading.agreesAt_of_projectKeyed heading
  · intro shown
    exact kept name (recorded name ⟨leaf, below, .inr ⟨awaited, shown⟩⟩).1 shown
  · intro new
    obtain ⟨attr, visible, named, derived⟩ := Heading.exists_of_new_name heading new
    exact old (Heading.mem_derived.2 ⟨attr, visible, derived, named⟩)

/-- The condition of an expression is rendered unless a carried leaf is refused. -/
theorem Reachable.condition_succeeds_iff (reached : Reachable (· = session) e) :
    (e.condition session.config.semanticCheck).Succeeds ↔
      ∀ source, e.operator = .projection source →
        ∀ leaf ∈ leavesOfAll source.restrictions, ¬ e.Refuses leaf := by
  have same := reached.session_mem
  rw [Expression.condition_succeeds_iff, ← same]
  constructor
  · intro all source projection leaf inside refused
    obtain ⟨restriction, member, below⟩ := mem_leavesOfAll.1 inside
    have clauses := reached.root_keepsClauses
    unfold Expression.KeepsClauses at clauses
    rw [projection] at clauses
    have compiles := all restriction (clauses.2.subset member)
    refine (reached.compiles_carried_iff projection inside).1 ?_ refused
    exact restriction.compiles_iff_leaves.1 compiles leaf below
  · intro free restriction inside
    rcases reached.accepts restriction inside with compiles | ⟨source, projection, carried⟩
    · exact compiles
    · refine restriction.compiles_iff_leaves.2 fun leaf below => ?_
      have member := mem_leavesOfAll.2 ⟨restriction, carried, below⟩
      exact (reached.compiles_carried_iff projection member).2 (free source projection leaf member)

/-- What restricts a flat expression can always be rendered. -/
theorem Reachable.condition_of_flat (reached : Reachable (· = session) e) (flat : e.Flat) :
    (e.condition session.config.semanticCheck).Succeeds := by
  obtain ⟨resolved, _, underived⟩ :=
    Expression.needsSubquery_eq_false.1 (Expression.flat_iff.1 flat)
  have carries := reached.carries resolved underived
  rw [Expression.condition_succeeds_iff, ← reached.session_mem]
  exact fun restriction inside => (carries restriction inside).1

/-- Rendering an expression is rendering its operands and its own condition. -/
theorem Reachable.prints_iff_operands (reached : Reachable (· = session) e) :
    e.Prints session.config.semanticCheck ↔
      (∀ part ∈ e.operator.operands, part.Prints session.config.semanticCheck) ∧
        (e.condition session.config.semanticCheck).Succeeds := by
  have clauses := reached.root_keepsClauses
  have formed := reached.formed
  have operands := fun part => @reached.operand _ _ part
  have origin := e.origin_eq session.config.semanticCheck
  unfold Expression.KeepsClauses at clauses
  unfold Expression.Formed at formed
  cases operator : e.operator with
  | table name =>
      rw [Expression.prints_iff (by rw [operator]; rfl), origin, operator, Operator.origin]
      simp [Rendering.Succeeds, Operator.operands]
  | join left right keepAll =>
      rw [operator] at clauses
      obtain ⟨⟨first, leftBare⟩, second, rightBare⟩ := clauses
      rw [Expression.prints_iff (by rw [operator]; rfl), origin, operator,
        Operator.origin_join_succeeds_iff]
      simp only [Operator.operands, List.forall_mem_cons, first.prints_iff, second.prints_iff,
        Expression.condition_succeeds_of_bare leftBare,
        Expression.condition_succeeds_of_bare rightBare, and_true, List.not_mem_nil,
        false_implies, implies_true]
  | projection source =>
      rw [operator] at clauses operands
      have below := operands source (List.mem_singleton_self source)
      rw [Expression.prints_iff (by rw [operator]; rfl), origin, operator, Operator.origin]
      simp only [Operator.operands, List.forall_mem_singleton, clauses.1.prints_iff,
        below.condition_of_flat clauses.1, and_true]
  | grouping source =>
      rw [operator] at clauses operands
      have below := operands source (List.mem_singleton_self source)
      have collected := below.condition_of_flat clauses
      have sources := e.sourceCondition_eq session.config.semanticCheck
      rw [operator, Operator.sourceCondition] at sources
      rw [operator, Operator.origin] at origin
      simp only [Operator.operands, List.forall_mem_singleton, clauses.prints_iff]
      constructor
      · exact fun prints => ⟨⟨origin ▸ prints.origin, collected⟩, prints.condition⟩
      · rintro ⟨⟨relation, _⟩, condition⟩
        exact ⟨origin ▸ relation, by simpa [sources] using collected, condition⟩
  | union left right =>
      rw [operator] at formed
      rw [Expression.prints_iff (by rw [operator]; rfl), origin, operator,
        Operator.origin_union_succeeds_iff formed]
      simp [Operator.operands]
  | subquery inner =>
      rw [Expression.prints_iff (by rw [operator]; rfl), origin, operator,
        Operator.origin_subquery_succeeds_iff]
      simp [Operator.operands]

end OneSession

/-- A node stands in the operand tree of an expression. -/
inductive Below (node : Expression) : Expression → Prop where
  | root : Below node node
  | operand {part e : Expression} (member : part ∈ e.operator.operands)
      (below : Below node part) : Below node e

theorem below_iff {node e : Expression} :
    Below node e ↔ node = e ∨ ∃ part ∈ e.operator.operands, Below node part := by
  constructor
  · rintro (_ | ⟨member, below⟩)
    · exact .inl rfl
    · exact .inr ⟨_, member, below⟩
  · rintro (rfl | ⟨part, member, below⟩)
    · exact .root
    · exact .operand member below

/-- Operands are smaller than what they belong to. -/
theorem Expression.sizeOf_operand {e part : Expression} (member : part ∈ e.operator.operands) :
    sizeOf part < sizeOf e := by
  obtain ⟨session, operator, heading, columns, restrictions, restricting, distinct⟩ := e
  rw [Expression.mk.sizeOf_spec]
  cases operator with
  | table name => contradiction
  | join left right keepAll | union left right =>
      simp only [Operator.operands, List.mem_cons, List.not_mem_nil, or_false] at member
      rcases member with rfl | rfl <;> simp only [Operator.join.sizeOf_spec,
        Operator.union.sizeOf_spec] <;> omega
  | projection source | grouping source | subquery source =>
      obtain rfl := List.mem_singleton.1 member
      simp only [Operator.projection.sizeOf_spec, Operator.grouping.sizeOf_spec,
        Operator.subquery.sizeOf_spec]
      omega

variable {session : Session}

/-- Rendering an expression is rendering the conditions in its operand tree. -/
theorem Reachable.prints_iff {e : Expression} (reached : Reachable (· = session) e) :
    e.Prints session.config.semanticCheck ↔
      ∀ node, Below node e → (node.condition session.config.semanticCheck).Succeeds := by
  have parts : ∀ part ∈ e.operator.operands, (part.Prints session.config.semanticCheck ↔
      ∀ node, Below node part → (node.condition session.config.semanticCheck).Succeeds) :=
    fun part member => (reached.operand member).prints_iff
  rw [reached.prints_iff_operands, forall₂_congr parts]
  constructor
  · rintro ⟨inside, condition⟩ node below
    rcases below_iff.1 below with rfl | ⟨part, member, below⟩
    · exact condition
    · exact inside part member node below
  · exact fun all => ⟨fun part member node below => all node (.operand member below),
      all e .root⟩
termination_by sizeOf e
decreasing_by exact Expression.sizeOf_operand member

theorem Below.reachable {node e : Expression} (below : Below node e)
    (reached : Reachable sessions e) : Reachable sessions node := by
  induction below with
  | root => exact reached
  | operand member _ ih => exact ih (reached.operand member)

/-- An expression over the tables of one session has SQL text if and only if no projection in
its operand tree gives a new name that a carried restriction asks for and then refuses. -/
theorem Expression.sql_iff_not_refuses {e : Expression} (reached : Reachable (· = session) e) :
    (∃ text, e.sql none = .ok text) ↔
      ∀ node source, Below node e → node.operator = .projection source →
        ∀ leaf ∈ leavesOfAll source.restrictions, ¬ node.Refuses leaf := by
  rw [sql_succeeds_iff, reached.session_mem, reached.prints_iff]
  apply forall_congr'
  intro node
  rw [forall_comm]
  apply forall_congr'
  intro below
  exact (below.reachable reached).condition_succeeds_iff

/-- A label that the carried restriction does not ask for leaves the projection renderable. -/
theorem Expression.sql_of_label :
    ∃ e source text, Reachable (· = laboratory) e ∧ e.operator = .projection source ∧
      source.restrictions ≠ [] ∧ e.heading.derived = ["label"] ∧ e.sql none = .ok text := by
  have subjects := @Reachable.table (· = laboratory) laboratory subjectDeclaration _ rfl rfl
  have mice := @Reachable.restrict (· = laboratory) _ _
    (.mapping [("species", .string "mouse"), ("kind.x", .int 1)]) subjects (by
      simp [Restriction.partners]) rfl
  have labelled := @Reachable.project (· = laboratory) _ _ [.named "species"]
    (Renames.ofList [("label", "upper(sex)")]) true mice rfl
  have apart : ∀ pair ∈ [("species", Literal.string "mouse"), ("kind.x", .int 1)],
      (splitPath pair.1).1 ≠ "label" := by decide +kernel
  have rendered := (sql_iff_not_refuses labelled).2 (by
    intro node source below projection leaf inside refused
    rcases below_iff.1 below with rfl | ⟨part, member, below⟩
    · injection projection with same
      rw [← same] at inside
      obtain rfl := List.mem_singleton.1 inside
      obtain ⟨pair, listed, derived, _⟩ := refused
      exact absurd (List.mem_singleton.1 derived) (apart pair listed)
    · rw [List.mem_singleton.1 member, below_iff] at below
      rcases below with rfl | ⟨_, none, _⟩ <;> contradiction)
  obtain ⟨text, rendered⟩ := rendered
  exact ⟨_, _, text, labelled, rfl, List.cons_ne_nil _ _, rfl, rendered⟩

/-- A new name that is asked for as a document is refused when the statement is rendered. -/
theorem Expression.sql_refuses_kind :
    ∃ e, Reachable (· = laboratory) e ∧
      e.sql none = .error (.restriction (.notDocument "kind")) := by
  have subjects := @Reachable.table (· = laboratory) laboratory subjectDeclaration _ rfl rfl
  have mice := @Reachable.restrict (· = laboratory) _ _
    (.mapping [("species", .string "mouse"), ("kind.x", .int 1)]) subjects (by
      simp [Restriction.partners]) rfl
  have kinds := @Reachable.project (· = laboratory) _ _ [.named "species"]
    (Renames.ofList [("kind", "upper(sex)")]) true mice rfl
  exact ⟨_, kinds, by decide +kernel⟩

end QueryAlgebra
