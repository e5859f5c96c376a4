/-
This file describes headings that are given another key. A list of shown names without repetition
can become the key, and then it is the key.
-/
import QueryAlgebra.Proofs.JoinedHeading

namespace QueryAlgebra

variable {heading result : Heading} {key : List String}

/-- The names of the attributes that a list of shown names stands for. -/
theorem Heading.names_filterMap_get? (shown : ∀ name ∈ key, name ∈ heading.names) :
    (key.filterMap heading.get?).map Attribute.name = key := by
  induction key with
  | nil => rfl
  | cons name rest ih =>
      obtain ⟨head, tail⟩ := List.forall_mem_cons.1 shown
      obtain ⟨attr, inside, named⟩ := mem_names.1 head
      rw [List.filterMap_cons_some (get?_eq_some.2 ⟨inside, named⟩), List.map_cons, named, ih tail]

theorem Heading.attributes_rekey (built : heading.rekey key = .ok result) :
    result.attributes = (key.filterMap heading.get?).map (fun attr =>
        { attr with inKey := true }) ++
      (heading.attributes.filter (!key.contains ·.name)).map fun attr =>
        { attr with inKey := false } := by
  rw [attributes_ofAttributes (rekey_eq_ok.1 built).2]
  refine keyOrder_eq_self (List.pairwise_append.2 ⟨?_, ?_, ?_⟩)
  · exact List.pairwise_map.2 (List.pairwise_of_forall fun _ _ _ => rfl)
  · exact List.pairwise_map.2 (List.pairwise_of_forall fun _ _ => nofun)
  · intro earlier inside _ _ _
    obtain ⟨attr, _, rfl⟩ := List.mem_map.1 inside
    rfl

/-- The given key is the key. -/
theorem Heading.primaryKey_rekey (built : heading.rekey key = .ok result) :
    result.primaryKey = key := by
  have chosen : (fun attr : Attribute => attr.inKey) ∘
      (fun attr : Attribute => { attr with inKey := true }) = fun _ => true := rfl
  have others : (fun attr : Attribute => attr.inKey) ∘
      (fun attr : Attribute => { attr with inKey := false }) = fun _ => false := rfl
  rw [primaryKey_eq, attributes_rekey built, List.filter_append, List.filter_map, List.filter_map,
    chosen, others, List.filter_true, List.filter_false, List.map_nil, List.append_nil,
    map_name_moved, names_filterMap_get? (rekey_eq_ok.1 built).1]

/-- Exactly the lists of shown names without repetition can become the key. -/
theorem Heading.exists_rekey : (∃ result, heading.rekey key = .ok result) ↔
    key.Nodup ∧ ∀ name ∈ key, name ∈ heading.names := by
  constructor
  · rintro ⟨result, built⟩
    exact ⟨primaryKey_rekey built ▸ result.nodup_primaryKey, (rekey_eq_ok.1 built).1⟩
  · rintro ⟨distinct, shown⟩
    simp only [rekey_eq_ok, and_iff_right shown, exists_ofAttributes]
    constructor
    · rw [List.map_append, map_name_moved, map_name_moved, names_filterMap_get? shown,
        List.nodup_append]
      refine ⟨distinct, heading.nodup.sublist (List.filter_sublist.map _), ?_⟩
      intro name inside other member same
      obtain ⟨attr, kept, rfl⟩ := List.mem_map.1 member
      have outside := (List.mem_filter.1 kept).2
      rw [Bool.not_eq_true', List.contains_eq_mem, decide_eq_false_iff_not] at outside
      exact outside (same ▸ inside)
    · intro attr inside inKey
      rcases List.mem_append.1 inside with keyed | other
      · obtain ⟨origin, member, rfl⟩ := List.mem_map.1 keyed
        obtain ⟨name, _, found⟩ := List.mem_filterMap.1 member
        exact (mem_visible.1 (get?_eq_some.1 found).1).2
      · obtain ⟨origin, _, rfl⟩ := List.mem_map.1 other
        contradiction

end QueryAlgebra
