/-
This file describes one restriction as a step. A restriction is checked behind a subquery as it is
before it, and the check of a further restriction does not see the restrictions of earlier steps.
-/
import QueryAlgebra.Proofs.CarriedRestriction

namespace QueryAlgebra

/-- Restrictions that are read against either heading meet the same answers. -/
structure Heading.AnswersAlike (first second : Heading) : Prop where
  contains : first.contains = second.contains
  compare? (key : String) (value : Literal) : first.compare? key value = second.compare? key value
  homologous : first.homologous = second.homologous

section Reading

variable {first second : Heading}

theorem Heading.AnswersAlike.common (alike : first.AnswersAlike second) :
    first.common = second.common := by
  funext partner
  rw [Heading.common, alike.contains]
  rfl

theorem Heading.AnswersAlike.compare (alike : first.AnswersAlike second) (session : Session)
    (checked : Bool) :
    Scope.compare ⟨first, session, checked⟩ = Scope.compare ⟨second, session, checked⟩ := by
  funext negated pairs
  unfold Scope.compare
  dsimp only
  simp only [alike.contains, alike.compare?]

theorem Heading.AnswersAlike.accept (alike : first.AnswersAlike second) (session : Session)
    (checked : Bool) :
    Scope.accept ⟨first, session, checked⟩ = Scope.accept ⟨second, session, checked⟩ := by
  funext partner required
  unfold Scope.accept
  dsimp only
  rw [alike.homologous]

mutual

/-- Headings that answer alike give the same condition, the same columns and the same faults. -/
theorem Restriction.compile_alike (alike : first.AnswersAlike second) (session : Session)
    (checked negated : Bool) : ∀ restriction : Restriction,
      restriction.compile ⟨first, session, checked⟩ negated =
        restriction.compile ⟨second, session, checked⟩ negated
  | .constant _ | .universal _ | .raw _ => by
      rw [Restriction.compile, Restriction.compile]
  | .mapping pairs => by
      rw [Restriction.compile, Restriction.compile, alike.compare]
  | .record members => by
      rw [Restriction.compile, Restriction.compile, alike.compare]
  | .disjunction items => by
      rw [Restriction.compile, Restriction.compile, compileAll_alike alike session checked items]
  | .conjunction items => by
      rw [Restriction.compile, Restriction.compile, compileAll_alike alike session checked items]
  | .negation restriction => by
      rw [Restriction.compile, Restriction.compile]
      exact Restriction.compile_alike alike session checked (!negated) restriction
  | .semijoin partner required => by
      rw [Restriction.compile_semijoin, Restriction.compile_semijoin, alike.accept, alike.common]

theorem compileAll_alike (alike : first.AnswersAlike second) (session : Session)
    (checked : Bool) : ∀ items : List Restriction,
      compileAll ⟨first, session, checked⟩ items = compileAll ⟨second, session, checked⟩ items
  | [] => by
      rw [compileAll, compileAll]
  | restriction :: rest => by
      rw [compileAll, compileAll, Restriction.compile_alike alike session checked false restriction,
        compileAll_alike alike session checked rest]

end

end Reading

theorem Heading.get?_asColumns (heading : Heading) (name : String) :
    heading.asColumns.visiblePart.get? name = (heading.get? name).map Attribute.asColumn := by
  unfold Heading.get?
  rw [visible_visiblePart, visible_asColumns, List.find?_map]
  rfl

/-- A subquery shows its attributes without their expressions, for which no restriction asks. -/
theorem Heading.answersAlike_asColumns (heading : Heading) :
    heading.asColumns.visiblePart.AnswersAlike heading where
  contains := by
    funext name
    rw [Heading.contains, get?_asColumns, Option.isSome_map]
    rfl
  compare? := by
    intro key value
    unfold Heading.compare?
    rw [get?_asColumns]
    cases heading.get? (splitPath key).1 <;> rfl
  homologous := by
    funext partner
    unfold Heading.homologous
    rw [visible_visiblePart, visible_asColumns, List.forM_eq_forM, List.forM_map]
    rfl

theorem Restriction.compile_asSubquery (e : Expression) (checked negated : Bool)
    (restriction : Restriction) :
    restriction.compile (e.asSubquery.scope checked) negated =
      restriction.compile (e.scope checked) negated :=
  compile_alike e.heading.answersAlike_asColumns e.session checked negated restriction

/-- What an expression accepts is accepted behind a subquery too, with the same faults. -/
theorem Expression.validate_asSubquery (e : Expression) (restriction : Restriction) :
    e.asSubquery.validate restriction = e.validate restriction := by
  have compiled := restriction.compile_asSubquery e e.session.config.semanticCheck false
  unfold validate
  rw [← e.heading.answersAlike_asColumns.contains]
  exact congrArg (fun rendering => rendering.fresh >>= _) compiled

theorem Expression.validate_restrictedSource (e : Expression) (restriction : Restriction) :
    e.restrictedSource.validate restriction = e.validate restriction := by
  rcases e.restrictedSource_cases with wrapped | ⟨direct, _⟩
  · rw [wrapped, validate_asSubquery]
  · rw [direct]

/-- Restrictions that are recorded already play no part in the check of another one. -/
theorem Expression.validate_record (e : Expression) (restriction other : Restriction)
    (mentioned : NameSet) :
    (e.record restriction mentioned).validate other = e.validate other := rfl

/-- What a restriction is recorded on needs no subquery for a further one. -/
theorem Expression.restrictedSource_settled (e : Expression) :
    (!e.restrictedSource.operator.isGrouping && e.restrictedSource.heading.hasDerived) = false := by
  rcases e.restrictedSource_cases with wrapped | ⟨direct, grouping | underived⟩
  · rw [wrapped, Bool.and_eq_false_iff]
    exact .inr e.heading.hasDerived_asColumns
  · rw [direct, grouping]
    rfl
  · rw [direct, underived, Bool.and_false]

theorem Expression.restrictedSource_restrictedSource (e : Expression) :
    e.restrictedSource.restrictedSource = e.restrictedSource :=
  if_neg (by rw [restrictedSource_settled]; exact Bool.false_ne_true)

theorem Expression.restrictedSource_record (e : Expression) (restriction : Restriction)
    (mentioned : NameSet) :
    (e.restrictedSource.record restriction mentioned).restrictedSource =
      e.restrictedSource.record restriction mentioned := by
  have settled := e.restrictedSource_settled
  exact if_neg (by rw [record, settled]; exact Bool.false_ne_true)

/-- The expression that an accepted restriction leaves behind. -/
def Expression.restrictedBy (e : Expression) (restriction : Restriction) (compiled : Compiled) :
    Expression :=
  if compiled.condition.isConstant true then e
  else e.restrictedSource.record restriction compiled.columns

/-- Restricting is checking and then recording. -/
theorem Expression.restrict_eq (e : Expression) (restriction : Restriction) :
    e.restrict restriction = (e.validate restriction).map (e.restrictedBy restriction) := by
  unfold restrict
  cases e.validate restriction with
  | error fault => rfl
  | ok compiled =>
      show (if _ then _ else _) = Except.ok _
      unfold restrictedBy restrictedSource
      split
      · rfl
      · split <;> rfl

theorem Expression.restrict_eq_ok {e result : Expression} {restriction : Restriction} :
    e.restrict restriction = .ok result ↔
      ∃ compiled, e.validate restriction = .ok compiled ∧
        e.restrictedBy restriction compiled = result := by
  rw [restrict_eq]
  cases e.validate restriction <;> simp [Except.map]

section Steps

variable {e : Expression} {restriction : Restriction} {compiled : Compiled}

theorem Expression.restrictedBy_of_true (holds : compiled.condition.isConstant true = true) :
    e.restrictedBy restriction compiled = e :=
  if_pos holds

theorem Expression.restrictedBy_of_open (open' : compiled.condition.isConstant true = false) :
    e.restrictedBy restriction compiled =
      e.restrictedSource.record restriction compiled.columns :=
  if_neg (by rw [open']; exact Bool.false_ne_true)

/-- A step leaves an expression that accepts what was accepted before. -/
theorem Expression.validate_restrictedBy (other : Restriction) :
    (e.restrictedBy restriction compiled).validate other = e.validate other := by
  unfold restrictedBy
  split
  · rfl
  · rw [validate_record, validate_restrictedSource]

end Steps

end QueryAlgebra
