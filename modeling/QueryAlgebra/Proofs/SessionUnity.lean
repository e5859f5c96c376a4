/-
This file shows that all nodes of a reachable expression belong to one session.
Joins and unions compare their operands, and every semijoin of a restriction is compared.
-/
import QueryAlgebra.Proofs.CarriedRestriction
import QueryAlgebra.Proofs.LeafCompilation

namespace QueryAlgebra

variable {sessions : Session → Prop}

theorem Session.same_iff {first second : Session} :
    first.same second = true ↔ first.number = second.number := by
  simp [Session.same]

/-- A partner is accepted in its own session only. -/
theorem Scope.number_of_accept {scope : Scope} {partner : Expression} {checked : Bool}
    (accepted : scope.accept partner checked = .ok ()) :
    partner.session.number = scope.session.number := by
  unfold Scope.accept at accepted
  split at accepted
  · contradiction
  · rename_i same
    rw [Bool.not_eq_true', Bool.not_eq_false, Session.same_iff] at same
    exact same.symm

/-- No list and no negation hides a partner from the comparison of sessions. -/
theorem Restriction.Compiles.number_of_partner {scope : Scope} {restriction : Restriction}
    {partner : Expression} (compiles : restriction.Compiles scope)
    (read : partner ∈ restriction.partners) :
    partner.session.number = scope.session.number := by
  obtain ⟨checked, leaf⟩ := restriction.semijoin_of_partner read
  obtain ⟨compiled, later, run⟩ := restriction.compiles_iff_leaves.1 compiles _ leaf
  exact Scope.number_of_accept (Restriction.yields_semijoin.1 run).1

/-- The expressions that a recorded restriction adds belong to the session it was checked in. -/
theorem Expression.number_of_recorded {e source part : Expression} {restriction : Restriction}
    {compiled : Compiled} (accepted : e.validate restriction = .ok compiled)
    (before : ∀ other ∈ source.parts, other.session.number = e.session.number)
    (member : part ∈ (source.record restriction compiled.columns).parts) :
    part.session.number = e.session.number := by
  rcases parts_record member with old | read
  · exact before part old
  · exact (compiles_of_validate accepted).1.number_of_partner read

/-- The parts of a reachable expression belong to its session. -/
theorem Reachable.number_of_part {e part : Expression} (reached : Reachable sessions e)
    (member : part ∈ e.parts) : part.session.number = e.session.number := by
  induction reached generalizing part with
  | table _ built =>
      obtain ⟨heading, _, rfl⟩ := Expression.ofTable_ok built
      contradiction
  | @restrict e _ restriction _ _ built ih =>
      obtain ⟨compiled, accepted, ⟨_, rfl⟩ | ⟨_, rfl⟩⟩ := Expression.restrict_ok built
      · exact ih member
      · rcases e.restrictedSource_cases with wrapped | ⟨direct, _⟩
        · rw [wrapped] at member ⊢
          show part.session.number = e.session.number
          refine Expression.number_of_recorded accepted (fun other inside => ?_) member
          rw [Expression.parts_asSubquery, List.mem_singleton] at inside
          rw [inside]
        · rw [direct] at member ⊢
          exact Expression.number_of_recorded accepted (fun _ => ih) member
  | restrictDirectly _ _ built ih =>
      obtain ⟨compiled, accepted, ⟨_, rfl⟩ | ⟨_, rfl, _⟩⟩ := Expression.restrictDirectly_ok built
      · exact ih member
      · exact Expression.number_of_recorded accepted (fun _ => ih) member
  | @join left right _ _ _ _ built _ _ =>
      have joins := Expression.joinAs_ok built
      rw [joins.session]
      rcases joins.mem_parts member with rfl | rfl
      · rw [Expression.joinedLeft, Expression.session_joinOperand]
      · rw [Expression.joinedRight, Expression.session_joinOperand]
        exact (Session.same_iff.1 joins.sameSession).symm
  | @project e _ _ _ _ _ built ih =>
      obtain ⟨selection, projects⟩ := Expression.projectItems_ok built
      rw [projects.session]
      rcases projects.mem_parts member with rfl | inside
      · rw [Expression.session_projectedSource]
      · exact ih inside
  | aggregate _ _ built _ _ =>
      obtain ⟨joined, _, _, _, _, _, _, _, rfl⟩ := Expression.aggregateItems_ok built
      rw [List.mem_singleton.1 member]
      rfl
  | groupOver _ built _ =>
      obtain ⟨heading, _, rfl⟩ := Expression.groupOver_ok built
      rw [List.mem_singleton.1 member]
      rfl
  | union _ _ built _ _ =>
      obtain ⟨sameSession, _, _, _, rfl⟩ := Expression.union_ok built
      rcases Expression.mem_parts_united member with rfl | rfl
      · rfl
      · exact (Session.same_iff.1 sameSession).symm
  | subquery _ _ =>
      rw [List.mem_singleton.1 member]
      rfl

/-- Every node that occurs in a reachable expression, as an operand or as a partner of a
restriction at any depth, belongs to the session of the expression. -/
theorem Reachable.number_of_occurs {e node : Expression} (reached : Reachable sessions e)
    (occurs : Occurs node e) : node.session.number = e.session.number := by
  induction occurs with
  | root => rfl
  | inside member below ih =>
      rw [ih (reached.part member), reached.number_of_part member]

/-- The table below a partner in a list that is decided without it belongs to the session. -/
theorem Reachable.number_of_occurs_of_partner :
    ∃ e partner, Reachable (· = laboratory) e ∧ e.restrictions =
        [.negation (.disjunction [.constant true, .semijoin partner.asSubquery true])] ∧
      Occurs partner e ∧ partner.session.number = e.session.number := by
  have subjects := @Reachable.table (· = laboratory) laboratory subjectDeclaration _ rfl rfl
  have entries := @Reachable.table (· = laboratory) laboratory logDeclaration _ rfl rfl
  have none := @Reachable.restrict (· = laboratory) _ _
    (.negation (.disjunction [.constant true, .semijoin _ true])) subjects (by
      intro partner read
      rw [Restriction.partners, Restriction.partners, partnersOfAll, partnersOfAll,
        partnersOfAll, Restriction.partners, Restriction.partners] at read
      exact List.mem_singleton.1 read ▸ entries.subquery) rfl
  refine ⟨_, _, none, rfl, ?below, none.number_of_occurs ?below⟩
  exact .inside (List.mem_singleton_self _) (.inside (List.mem_singleton_self _) .root)

end QueryAlgebra
