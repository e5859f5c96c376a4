/-
This file compares the key that is forced on a projection with the key of its result. They are the
same exactly when every forced name is selected or new, since all other names are left out of the
key and not refused.
-/
import QueryAlgebra.Proofs.AggregatedKey

namespace QueryAlgebra

/-- The key of a projection has the forced names that are selected or new, each once and in the
order of the forced list. So it is the forced key if and only if all its names are selected or
new. -/
theorem Heading.forced_key_iff {heading result : Heading} {selected key : List String}
    {renames : Renames} (built : heading.project selected renames (some key) = .ok result) :
    (result.primaryKey = key.eraseDups.filter fun name =>
      selected.contains name || renames.names.contains name) ∧
    (result.primaryKey = key.eraseDups ↔
      ∀ name ∈ key, name ∈ selected ∨ name ∈ renames.names) := by
  have kept := primaryKey_project_of_forced built
  refine ⟨kept, ?_⟩
  rw [kept, List.filter_eq_self]
  simp only [List.mem_eraseDups, Bool.or_eq_true, List.contains_iff_mem]

/-- The species under a new name and the subject itself, in another order than before. -/
theorem Heading.forced_key_iff_of_kind :
    ∃ heading result : Heading, subjectDeclaration.heading? = .ok heading ∧
      heading.project ["subject_id"] (Renames.ofList [("kind", "species")])
        (some ["kind", "subject_id", "kind"]) = .ok result ∧
      result.primaryKey = ["kind", "subject_id"] := by
  obtain ⟨heading, declared, result, built⟩ : ∃ heading : Heading,
      subjectDeclaration.heading? = .ok heading ∧
      ∃ result, heading.project ["subject_id"] (Renames.ofList [("kind", "species")])
        (some ["kind", "subject_id", "kind"]) = .ok result :=
    ⟨_, rfl, isOk_iff.1 (by decide +kernel)⟩
  refine ⟨heading, result, declared, built, ?_⟩
  exact (forced_key_iff built).2.2 (by decide +kernel)

/-- A key attribute that is not selected is lost, and the projection has no key at all. -/
theorem Heading.forced_key_loses_subject :
    ∃ heading result : Heading, subjectDeclaration.heading? = .ok heading ∧
      heading.project ["species"] Renames.empty (some ["subject_id"]) = .ok result ∧
      result.primaryKey ≠ ["subject_id"].eraseDups := by
  obtain ⟨heading, declared, result, built⟩ : ∃ heading : Heading,
      subjectDeclaration.heading? = .ok heading ∧
      ∃ result, heading.project ["species"] Renames.empty (some ["subject_id"]) = .ok result :=
    ⟨_, rfl, isOk_iff.1 (by decide +kernel)⟩
  refine ⟨heading, result, declared, built, ?_⟩
  rw [primaryKey_project_of_forced built]
  decide +kernel

end QueryAlgebra
