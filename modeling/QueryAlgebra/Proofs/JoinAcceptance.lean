/-
This file says which expressions are joined and what the key of a join is. The checks at the
beginning decide, since the headings of the stored operands can always be joined.
-/
import QueryAlgebra.Proofs.CarriedLineage
import QueryAlgebra.Proofs.JoinedHeading
import QueryAlgebra.Proofs.JoinedRows
import QueryAlgebra.Proofs.SessionUnity

namespace QueryAlgebra

/-- Headings pass the check when every name that they share is in a key and stems from one
origin. -/
theorem Heading.homologous_iff_shared {first second : Heading} :
    first.homologous second = .ok () ↔ ∀ name ∈ first.names, name ∈ second.names →
      (name ∈ first.primaryKey ∨ name ∈ second.primaryKey) ∧
        ∃ origin, first.Carries name (some origin) ∧ second.Carries name (some origin) := by
  rw [homologous_eq_ok]
  constructor
  · intro each name shown shared
    obtain ⟨attr, inside, rfl⟩ := mem_names.1 shown
    obtain ⟨other, member, same⟩ := mem_names.1 shared
    obtain ⟨inKey, known, agree⟩ := each attr inside other (get?_eq_some.2 ⟨member, same⟩)
    obtain ⟨origin, stems⟩ := Option.isSome_iff_exists.1 known
    constructor
    · apply inKey.imp
      · intro key
        exact mem_primaryKey.2 ⟨attr, (mem_visible.1 inside).1, key, rfl⟩
      · intro key
        exact mem_primaryKey.2 ⟨other, (mem_visible.1 member).1, key, same⟩
    · exact ⟨origin, ⟨attr, inside, rfl, stems⟩, ⟨other, member, same, agree.symm.trans stems⟩⟩
  · intro each attr inside other found
    obtain ⟨member, same⟩ := get?_eq_some.1 found
    obtain ⟨inKey, origin, carries, carries'⟩ := each attr.name
      (mem_names.2 ⟨attr, inside, rfl⟩) (mem_names.2 ⟨other, member, same⟩)
    have stems : attr.lineage = some origin := (carries_iff inside).1 carries
    have stems' : other.lineage = some origin := (carries_iff member).1 (same ▸ carries')
    refine ⟨?_, by rw [stems]; rfl, stems.trans stems'.symm⟩
    apply inKey.imp
    · intro key
      obtain ⟨owner, stored, inKey, named⟩ := mem_primaryKey.1 key
      rwa [eq_of_name (mem_visible.1 inside).1 stored named.symm]
    · intro key
      obtain ⟨owner, stored, inKey, named⟩ := mem_primaryKey.1 key
      rwa [eq_of_name (mem_visible.1 member).1 stored (same.trans named.symm)]

section Joining

variable {left right result : Expression} {mode : JoinMode}

/-- What the operands of a join have to satisfy. -/
structure Expression.Joinable (left right : Expression) (mode : JoinMode) : Prop where
  sameSession : left.session.same right.session = true
  homologous : mode.checked = true →
    ∀ name ∈ left.heading.names, name ∈ right.heading.names →
      (name ∈ left.heading.primaryKey ∨ name ∈ right.heading.primaryKey) ∧
        ∃ origin, left.heading.Carries name (some origin) ∧
          right.heading.Carries name (some origin)
  eligible : mode.keepAll = true → mode.enforced = true →
    ∀ name ∈ right.heading.primaryKey, name ∈ left.heading.names

/-- The join of two stored operands. -/
def Expression.joinedWith (left right : Expression) (keepAll : Bool) (heading columns : Heading) :
    Expression :=
  { Expression.plain (left.joinedLeft right).session
      (.join (left.joinedLeft right) (left.joinedRight right) keepAll) heading columns with
    restrictions :=
      extendRestrictions (left.joinedLeft right).restrictions (left.joinedRight right).restrictions
    restricting := (left.joinedLeft right).restricting.union (left.joinedRight right).restricting }

/-- The headings of the stored operands are joined on the key of the join. -/
theorem Expression.exists_joinedHeading (left right : Expression) :
    ∃ heading, (left.joinedLeft right).heading.join (left.joinedRight right).heading
      (left.heading.joinKey right.heading) = .ok heading := by
  apply Heading.exists_join (left.heading.nodup_joinKey right.heading)
  intro name inside
  unfold joinedLeft joinedRight
  rw [names_joinOperand, names_joinOperand]
  exact Heading.names_of_joinKey inside

theorem Expression.exists_joinedColumns (left right : Expression) :
    ∃ columns, (left.joinedLeft right).columns.join (left.joinedRight right).columns [] =
      .ok columns :=
  Heading.exists_join List.nodup_nil (List.forall_mem_nil _)

/-- The checks decide whether expressions are joined. -/
theorem Expression.exists_joinAs_iff :
    (∃ result, left.joinAs right mode = .ok result) ↔ left.Joinable right mode := by
  constructor
  · rintro ⟨result, built⟩
    have joins := joinAs_ok built
    exact ⟨joins.sameSession,
      fun checked => Heading.homologous_iff_shared.1 (joins.homologous checked),
      fun kept enforced => Heading.determines_iff.1 (joins.eligible kept enforced)⟩
  · rintro ⟨sameSession, homologous, eligible⟩
    obtain ⟨heading, joined⟩ := left.exists_joinedHeading right
    obtain ⟨columns, allColumns⟩ := left.exists_joinedColumns right
    refine ⟨left.joinedWith right mode.keepAll heading columns, ?_⟩
    unfold joinAs
    refine guard_eq_ok.2 ⟨by simp [sameSession], when_eq_ok.2 ⟨?_, guard_eq_ok.2 ⟨?_, ?_⟩⟩⟩
    · exact fun checked => Heading.homologous_iff_shared.2 (homologous checked)
    · intro undetermined
      simp only [Bool.and_eq_true, Bool.not_eq_true'] at undetermined
      obtain ⟨⟨kept, enforced⟩, apart⟩ := undetermined
      rw [Heading.determines_iff.2 (eligible kept enforced)] at apart
      contradiction
    · exact bind_eq_ok.2 ⟨heading, joined, bind_eq_ok.2 ⟨columns, allColumns, rfl⟩⟩

/-- Only keeping the rows of one side tells the operands apart. -/
theorem Expression.Joinable.symm (inner : mode.keepAll = false)
    (joinable : left.Joinable right mode) : right.Joinable left mode where
  sameSession := Session.same_iff.2 (Session.same_iff.1 joinable.sameSession).symm
  homologous := by
    intro checked name shown shared
    obtain ⟨inKey, origin, carries, carries'⟩ := joinable.homologous checked name shared shown
    exact ⟨inKey.symm, origin, carries', carries⟩
  eligible := by
    intro kept
    rw [inner] at kept
    contradiction

/-- The checks of a join decide alone, and after them nothing can fail. They ask for one session,
for shared names that are in a key and stem from one origin if the origins are compared, and for a
left side that determines the right one if all of its rows are kept and this is enforced. Where no
rows are kept, the order of the operands does not matter. The key of the join is that of a
determining side, the left one first, and otherwise both keys are needed. -/
theorem Expression.joinAs_decided_by_checks (left right : Expression) (mode : JoinMode) :
    ((∃ result, left.joinAs right mode = .ok result) ↔ left.Joinable right mode) ∧
      (mode.keepAll = false → ((∃ result, left.joinAs right mode = .ok result) ↔
        ∃ result, right.joinAs left mode = .ok result)) ∧
      (∀ result, left.joinAs right mode = .ok result →
        (left.heading.determines right.heading = true →
          result.heading.primaryKey = left.heading.primaryKey) ∧
        (left.heading.determines right.heading = false →
          right.heading.determines left.heading = true →
            result.heading.primaryKey = right.heading.primaryKey) ∧
        (left.heading.determines right.heading = false →
          right.heading.determines left.heading = false →
            result.heading.primaryKey = left.heading.primaryKey ++
              right.heading.primaryKey.filter (!left.heading.primaryKey.contains ·))) ∧
      (∃ heading, (left.joinedLeft right).heading.join (left.joinedRight right).heading
        (left.heading.joinKey right.heading) = .ok heading) ∧
      ∃ columns, (left.joinedLeft right).columns.join (left.joinedRight right).columns [] =
        .ok columns := by
  refine ⟨exists_joinAs_iff, ?_, ?_, left.exists_joinedHeading right,
    left.exists_joinedColumns right⟩
  · intro inner
    rw [exists_joinAs_iff, exists_joinAs_iff]
    exact ⟨.symm inner, .symm inner⟩
  · intro result built
    rw [(joinAs_ok built).primaryKey_eq, Heading.joinKey]
    refine ⟨fun first => if_pos first, fun first second => ?_, fun first second => ?_⟩
    · rw [first, second, if_neg Bool.false_ne_true, if_pos rfl]
    · rw [first, second, if_neg Bool.false_ne_true, if_neg Bool.false_ne_true]

end Joining

/-- Entries determine their subjects and not the other way around, so the join has the key of the
entries in either order, and the rows of the subjects cannot all be kept. -/
theorem Expression.joinAs_decided_by_checks_of_log :
    ∃ subjects entries result reversed, Reachable (· = laboratory) subjects ∧
      Reachable (· = laboratory) entries ∧
      subjects.joinAs entries ⟨false, true, true⟩ = .ok result ∧
      result.heading.primaryKey = entries.heading.primaryKey ∧
      subjects.Joinable entries ⟨false, true, true⟩ ∧
      entries.joinAs subjects ⟨false, true, true⟩ = .ok reversed ∧
      reversed.heading.primaryKey = entries.heading.primaryKey ∧
      ¬ ∃ kept, subjects.joinAs entries ⟨true, true, true⟩ = .ok kept := by
  obtain ⟨subjects, entries, first, second, ⟨result, built⟩, apart, determined, unknown⟩ :
      ∃ subjects entries : Expression, Reachable (· = laboratory) subjects ∧
        Reachable (· = laboratory) entries ∧
        (∃ result, subjects.joinAs entries ⟨false, true, true⟩ = .ok result) ∧
        subjects.heading.determines entries.heading = false ∧
        entries.heading.determines subjects.heading = true ∧
        "entry" ∈ entries.heading.primaryKey ∧ "entry" ∉ subjects.heading.names := by
    have first := @Reachable.table (· = laboratory) laboratory subjectDeclaration _ rfl rfl
    have second := @Reachable.table (· = laboratory) laboratory logDeclaration _ rfl rfl
    exact ⟨_, _, first, second, ⟨_, rfl⟩, by decide, by decide, by decide, by decide⟩
  obtain ⟨decided, symmetric, keys, _⟩ :=
    subjects.joinAs_decided_by_checks entries ⟨false, true, true⟩
  obtain ⟨reversed, again⟩ := (symmetric rfl).1 ⟨result, built⟩
  have turned :=
    (entries.joinAs_decided_by_checks subjects ⟨false, true, true⟩).2.2.1 reversed again
  refine ⟨subjects, entries, result, reversed, first, second, built,
    (keys result built).2.1 apart determined, decided.1 ⟨result, built⟩, again,
    turned.1 determined, ?_⟩
  intro kept
  have joinable := (subjects.joinAs_decided_by_checks entries ⟨true, true, true⟩).1.1 kept
  exact unknown.2 (joinable.eligible rfl rfl "entry" unknown.1)

end QueryAlgebra
