/-
This file describes what an expression makes of restrictions that name no other expression. Each
of them becomes a condition of its own, and a conjunction always holds when all of its members do.
-/
import QueryAlgebra.Proofs.ConjoinedMembers
import QueryAlgebra.Proofs.RestrictionSteps

namespace QueryAlgebra

section Admission

variable {e : Expression}

/-- An expression admits a restriction that passes its check. -/
def Expression.Admits (e : Expression) (restriction : Restriction) : Prop :=
  ∃ compiled, e.validate restriction = .ok compiled

theorem Expression.admits_iff_leaves {restriction : Restriction} :
    e.Admits restriction ↔ ∀ leaf ∈ restriction.leaves, e.Admits leaf := by
  have each : ∀ other : Restriction, e.Admits other ↔ ∀ leaf ∈ other.leaves, ∃ part,
      leaf.Gives (e.scope e.session.config.semanticCheck) AliasCount.zero part ∧
        ∀ name ∈ part.columns, name ∈ e.heading.names :=
    fun other => exists_restrict_iff.symm.trans (restrict_accepts_iff AliasCount.zero)
  rw [each]
  apply forall₂_congr
  intro leaf below
  rw [each, Restriction.leaves_of_leaf restriction below, List.forall_mem_singleton]

theorem Expression.admits_conjunction {items : List Restriction} :
    e.Admits (.conjunction items) ↔ ∀ item ∈ items, e.Admits item := by
  rw [admits_iff_leaves, Restriction.leaves]
  constructor
  · intro each item listed
    apply admits_iff_leaves.2
    intro leaf below
    exact each leaf (mem_leavesOfAll.2 ⟨item, listed, below⟩)
  · intro each leaf below
    obtain ⟨item, listed, below⟩ := mem_leavesOfAll.1 below
    exact admits_iff_leaves.1 (each item listed) leaf below

/-- A restriction is admitted when all of its members are. -/
theorem Expression.admits_iff_members {restriction : Restriction} :
    e.Admits restriction ↔ ∀ member ∈ restriction.members, e.Admits member := by
  constructor
  · intro whole member listed
    apply admits_iff_leaves.2
    intro leaf below
    exact admits_iff_leaves.1 whole leaf (Restriction.leaves_of_members listed below)
  · intro each
    apply admits_iff_leaves.2
    intro leaf below
    obtain ⟨member, listed, below⟩ := Restriction.member_of_leaf restriction below
    exact admits_iff_leaves.1 (each member listed) leaf below

end Admission

/-- The condition that an admitted restriction becomes. -/
def Expression.reading (e : Expression) (restriction : Restriction) : Condition :=
  match e.validate restriction with
  | .ok compiled => compiled.condition
  | .error _ => .constant true

/-- An expression ignores a restriction that always holds. -/
def Expression.ignores (e : Expression) (restriction : Restriction) : Bool :=
  (e.reading restriction).isConstant true

section Reading

variable {e : Expression}

theorem Expression.reading_of_validate {restriction : Restriction} {compiled : Compiled}
    (accepted : e.validate restriction = .ok compiled) :
    e.reading restriction = compiled.condition := by
  rw [reading, accepted]

theorem Expression.admits_congr {first second : Restriction} (same : (first == second) = true) :
    e.Admits first ↔ e.Admits second := by
  have concurs := (Expression.Twins.refl e).validate same
  unfold Admits
  generalize e.validate first = outcome, e.validate second = outcome' at concurs
  cases concurs <;> simp

/-- Equality looks at nothing that decides whether a restriction is ignored. -/
theorem Expression.ignores_congr {first second : Restriction} (same : (first == second) = true) :
    e.ignores first = e.ignores second := by
  have concurs := (Expression.Twins.refl e).validate same
  unfold ignores reading
  generalize e.validate first = outcome, e.validate second = outcome' at concurs
  cases concurs with
  | refused fault other => rfl
  | given alike => exact alike.condition.isConstant true

/-- Steps that were taken before do not change what is admitted and what is ignored. -/
theorem Expression.ignores_of_validate {e other : Expression}
    (same : other.validate = e.validate) : other.ignores = e.ignores := by
  funext restriction
  unfold ignores reading
  rw [same]

end Reading

/-- The restriction reads from no other expression. -/
def Restriction.Unpartnered (restriction : Restriction) : Prop := restriction.partners = []

theorem Restriction.Unpartnered.member {restriction member : Restriction}
    (alone : restriction.Unpartnered) (listed : member ∈ restriction.members) :
    member.Unpartnered := by
  apply List.eq_nil_iff_forall_not_mem.2
  intro partner read
  have found := partners_of_members listed read
  rw [alone] at found
  exact List.not_mem_nil found

theorem Restriction.unpartnered_conjunction {items : List Restriction} :
    (Restriction.conjunction items).Unpartnered ↔ ∀ item ∈ items, item.Unpartnered := by
  unfold Unpartnered
  rw [Restriction.partners]
  induction items with
  | nil => simp [partnersOfAll]
  | cons first rest ih => rw [partnersOfAll, List.append_eq_nil_iff, ih, List.forall_mem_cons]

/-- A rendering that gives out no aliases. -/
def Rendering.Still {α : Type} (rendering : Rendering α) : Prop :=
  ∃ result, rendering = .ofExcept result

section Still

variable {α β : Type}

theorem Rendering.Still.pure (value : α) : Still (Pure.pure value) := ⟨.ok value, rfl⟩

theorem Rendering.Still.bind {first : Rendering α} {next : α → Rendering β} (start : first.Still)
    (step : ∀ value, (next value).Still) : Still (first >>= next) := by
  obtain ⟨result, rfl⟩ := start
  cases result with
  | error fault => exact ⟨.error fault, rfl⟩
  | ok value => exact step value

theorem Rendering.Still.eq_pure {rendering : Rendering α} {value : α} (still : rendering.Still)
    (given : (rendering.run AliasCount.zero).1 = .ok value) : rendering = Pure.pure value := by
  obtain ⟨result, rfl⟩ := still
  exact congrArg Rendering.ofExcept given

mutual

/-- Only partners are put into subqueries. -/
theorem Restriction.compile_still (scope : Scope) (negated : Bool) :
    ∀ restriction : Restriction, restriction.Unpartnered →
      (restriction.compile scope negated).Still
  | .constant _ | .universal _ => by
      intro _
      rw [Restriction.compile]
      exact .pure _
  | .raw _ | .mapping _ | .record _ => by
      intro _
      rw [Restriction.compile]
      exact ⟨_, rfl⟩
  | .disjunction items | .conjunction items => by
      intro alone
      rw [Restriction.Unpartnered, Restriction.partners] at alone
      rw [Restriction.compile]
      exact .bind (compileAll_still scope items alone) fun parts => .pure _
  | .negation restriction => by
      intro alone
      rw [Restriction.Unpartnered, Restriction.partners] at alone
      rw [Restriction.compile]
      exact restriction.compile_still scope (!negated) alone
  | .semijoin partner checked => by
      intro alone
      rw [Restriction.Unpartnered, Restriction.partners] at alone
      contradiction

theorem compileAll_still (scope : Scope) :
    ∀ items : List Restriction, partnersOfAll items = [] → (compileAll scope items).Still
  | [] => by
      intro _
      rw [compileAll]
      exact .pure _
  | restriction :: rest => by
      intro alone
      rw [partnersOfAll, List.append_eq_nil_iff] at alone
      rw [compileAll]
      exact .bind (restriction.compile_still scope false alone.1) fun first =>
        .bind (compileAll_still scope rest alone.2) fun others => .pure _

end

end Still

section Ignoring

variable {e : Expression}

/-- Admitted restrictions without partners become their conditions in any place of a list. -/
theorem Expression.compileAll_readings {items : List Restriction}
    (alone : ∀ item ∈ items, item.Unpartnered) (admitted : ∀ item ∈ items, e.Admits item) :
    ∃ parts, compileAll (e.scope e.session.config.semanticCheck) items = pure parts ∧
      parts.map (·.condition) = items.map e.reading := by
  induction items with
  | nil => exact ⟨[], by rw [compileAll], rfl⟩
  | cons first rest ih =>
      obtain ⟨head, tail⟩ := List.forall_mem_cons.1 alone
      obtain ⟨⟨compiled, accepted⟩, others⟩ := List.forall_mem_cons.1 admitted
      obtain ⟨parts, run, conditions⟩ := ih tail others
      have start := (first.compile_still (e.scope e.session.config.semanticCheck) false
        head).eq_pure (validate_ok accepted).1
      refine ⟨compiled :: parts, ?_, ?_⟩
      · rw [compileAll, start, run, pure_bind, pure_bind]
      · rw [List.map_cons, List.map_cons, conditions, reading_of_validate accepted]

theorem Expression.reading_conjunction {items : List Restriction}
    (alone : ∀ item ∈ items, item.Unpartnered) (admitted : ∀ item ∈ items, e.Admits item) :
    e.reading (.conjunction items) = Condition.conjunction false (items.map e.reading) := by
  obtain ⟨compiled, accepted⟩ := admits_conjunction.2 admitted
  obtain ⟨parts, run, conditions⟩ := compileAll_readings alone admitted
  have rendered := (validate_ok accepted).1
  rw [Restriction.compile, run, pure_bind] at rendered
  have same := Except.ok.inj rendered
  rw [reading_of_validate accepted, ← same, conditions]

end Ignoring

section Conjunctions

/-- A conjunction always holds exactly when all of its members do. -/
theorem Condition.isConstant_conjunction (conditions : List Condition) :
    (Condition.conjunction false conditions).isConstant true =
      conditions.all (Condition.isConstant true) := by
  have none_open : conditions.any (Condition.isConstant false) = false →
      (conditions.filterMap Condition.formula? = [] ↔
        conditions.all (Condition.isConstant true) = true) := by
    intro possible
    rw [List.filterMap_eq_nil_iff, List.all_eq_true]
    apply forall₂_congr
    intro condition inside
    have open' := List.any_eq_false.1 possible condition inside
    rcases condition with (_ | _) | inner
    · exact absurd rfl open'
    · exact ⟨fun _ => rfl, fun _ => rfl⟩
    · exact ⟨nofun, nofun⟩
  unfold conjunction
  split
  · rename_i refuted
    obtain ⟨condition, inside, never⟩ := List.any_eq_true.1 refuted
    symm
    apply List.all_eq_false.2
    refine ⟨condition, inside, ?_⟩
    rcases condition with (_ | _) | inner
    · exact Bool.false_ne_true
    · contradiction
    · contradiction
  · rename_i possible
    have decided := none_open (Bool.eq_false_iff.2 possible)
    split
    · rename_i nothing
      exact (decided.1 nothing).symm
    · rename_i something
      exact (Bool.eq_false_iff.2 fun all => something (decided.2 all)).symm

/-- Members that always hold can be left out of a conjunction. -/
theorem Condition.conjunction_filter (negated : Bool) (conditions : List Condition) :
    Condition.conjunction negated (conditions.filter (!Condition.isConstant true ·)) =
      Condition.conjunction negated conditions := by
  have refuted : ∀ condition : Condition,
      (!condition.isConstant true && condition.isConstant false) = condition.isConstant false := by
    rintro ((_ | _) | inner) <;> rfl
  have formulas : ∀ condition : Condition,
      (if (!condition.isConstant true) = true then condition.formula? else none) =
        condition.formula? := by
    rintro ((_ | _) | inner) <;> rfl
  unfold conjunction
  rw [List.any_filter, List.filterMap_filter]
  simp only [refuted, formulas]

end Conjunctions

section Members

variable {e : Expression}

mutual

/-- A restriction is ignored when all of its members are. -/
theorem Expression.ignores_eq_members : ∀ restriction : Restriction,
    restriction.Unpartnered → e.Admits restriction →
      e.ignores restriction = restriction.members.all e.ignores
  | .conjunction items => by
      intro alone admitted
      have each := Restriction.unpartnered_conjunction.1 alone
      have fine := admits_conjunction.1 admitted
      rw [ignores, reading_conjunction each fine, Condition.isConstant_conjunction, List.all_map,
        Restriction.members]
      exact all_ignores_eq_members items each fine
  | .constant _ | .raw _ | .mapping _ | .record _ | .disjunction _ | .negation _
  | .semijoin _ _ | .universal _ => by
      intro _ _
      rw [Restriction.members, List.all_cons, List.all_nil, Bool.and_true]

theorem Expression.all_ignores_eq_members : ∀ items : List Restriction,
    (∀ item ∈ items, item.Unpartnered) → (∀ item ∈ items, e.Admits item) →
      items.all e.ignores = (membersOfAll items).all e.ignores
  | [] => fun _ _ => rfl
  | first :: rest => by
      intro alone admitted
      obtain ⟨head, tail⟩ := List.forall_mem_cons.1 alone
      obtain ⟨start, others⟩ := List.forall_mem_cons.1 admitted
      rw [membersOfAll, List.all_cons, List.all_append, ignores_eq_members first head start,
        all_ignores_eq_members rest tail others]

end

/-- What is not ignored among the members stems from items that are not ignored. -/
theorem Expression.filter_membersOfAll {items : List Restriction}
    (alone : ∀ item ∈ items, item.Unpartnered) (admitted : ∀ item ∈ items, e.Admits item) :
    (membersOfAll (items.filter (!e.ignores ·))).filter (!e.ignores ·) =
      (membersOfAll items).filter (!e.ignores ·) := by
  induction items with
  | nil => rfl
  | cons first rest ih =>
      obtain ⟨head, tail⟩ := List.forall_mem_cons.1 alone
      obtain ⟨start, others⟩ := List.forall_mem_cons.1 admitted
      have step := ih tail others
      rw [membersOfAll, List.filter_append, ← step]
      cases ignored : e.ignores first with
      | false =>
          rw [List.filter_cons_of_pos (by rw [ignored]; rfl), membersOfAll, List.filter_append]
      | true =>
          have nothing : first.members.filter (!e.ignores ·) = [] := by
            rw [ignores_eq_members first head start, List.all_eq_true] at ignored
            rw [List.filter_eq_nil_iff]
            intro member listed
            rw [ignored member listed]
            exact Bool.false_ne_true
          rw [List.filter_cons_of_neg (by rw [ignored]; exact Bool.false_ne_true), nothing,
            List.nil_append]

end Members

end QueryAlgebra
