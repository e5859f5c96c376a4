/-
This file describes the keys of aggregations. With a partner the key continues that of the base,
and without one it is the given key. The partner lends listed attributes only.
-/
import Mathlib.Data.List.Flatten
import QueryAlgebra.Proofs.ProjectionAcceptance

namespace QueryAlgebra

section Forcing

variable {key : List String} {attrs : List Attribute} {name : String}

def markKey (key : List String) (attrs : List Attribute) : List Attribute :=
  attrs.map fun attr => { attr with inKey := key.contains attr.name }

/-- The attributes of one name, which stand together in a forced key. -/
def keyBlock (key : List String) (attrs : List Attribute) (name : String) : List Attribute :=
  (markKey key attrs).filter (·.name = name)

theorem forceKey_eq (key : List String) (attrs : List Attribute) :
    forceKey key attrs = key.eraseDups.flatMap (keyBlock key attrs) ++
      (markKey key attrs).filter (!·.inKey) := rfl

/-- A block has a name as often as the attributes have it. -/
theorem names_keyBlock (key : List String) (attrs : List Attribute) (name : String) :
    (keyBlock key attrs name).map Attribute.name =
      List.replicate ((attrs.map Attribute.name).count name) name := by
  have named : (fun attr : Attribute => decide (attr.name = name)) =
      (fun other => decide (other = name)) ∘ Attribute.name := rfl
  have marked : (markKey key attrs).map Attribute.name = attrs.map Attribute.name := List.map_map
  rw [keyBlock, named, ← List.filter_map, List.filter_eq, marked]

theorem inKey_of_keyBlock (inside : name ∈ key) {attr : Attribute}
    (member : attr ∈ keyBlock key attrs name) : attr.inKey = true := by
  obtain ⟨marked, named⟩ := List.mem_filter.1 member
  obtain ⟨origin, _, rfl⟩ := List.mem_map.1 marked
  rw [List.contains_iff_mem]
  exact of_decide_eq_true named ▸ inside

/-- A forced key becomes the key without the names that no attribute has. -/
theorem names_key_forceKey (distinct : ((forceKey key attrs).map Attribute.name).Nodup) :
    ((forceKey key attrs).filter (·.inKey)).map Attribute.name =
      key.eraseDups.filter (attrs.map Attribute.name).contains := by
  have block : ∀ name ∈ key.eraseDups, (keyBlock key attrs name).map Attribute.name =
      [name].filter (attrs.map Attribute.name).contains := by
    intro name inside
    have within : (keyBlock key attrs name).Sublist (forceKey key attrs) :=
      (List.sublist_flatten_of_mem (List.mem_map_of_mem inside)).trans
        (List.sublist_append_left _ _)
    -- the names of a block are equal, and so there is room for one of them
    have once := distinct.sublist (within.map Attribute.name)
    rw [names_keyBlock, List.nodup_replicate] at once
    rw [names_keyBlock]
    by_cases present : name ∈ attrs.map Attribute.name
    · have some := List.count_pos_iff.2 present
      rw [Nat.le_antisymm once some, List.replicate_one,
        List.filter_cons_of_pos (List.contains_iff_mem.2 present), List.filter_nil]
    · have absent : ¬ (attrs.map Attribute.name).contains name = true :=
        fun present' => present (List.contains_iff_mem.1 present')
      rw [List.count_eq_zero.2 present, List.replicate_zero, List.filter_cons_of_neg absent,
        List.filter_nil]
  have inKey : (key.eraseDups.flatMap (keyBlock key attrs)).filter (·.inKey) =
      key.eraseDups.flatMap (keyBlock key attrs) := by
    refine List.filter_eq_self.2 fun attr inside => ?_
    obtain ⟨name, keyed, member⟩ := List.mem_flatMap.1 inside
    exact inKey_of_keyBlock (List.mem_eraseDups.1 keyed) member
  have others : ((markKey key attrs).filter (!·.inKey)).filter (·.inKey) = [] := by simp
  rw [forceKey_eq, List.filter_append, inKey, others, List.append_nil, List.map_flatMap,
    List.flatMap_congr block, ← List.filter_flatMap, List.flatMap_singleton']

end Forcing

section Projecting

variable {heading result : Heading} {selected key : List String} {renames : Renames}

/-- What a projection shows is selected or has a new name. -/
theorem Heading.mem_names_produced (shown : ∀ name ∈ selected, name ∈ heading.names)
    {name : String} : name ∈ (heading.produced selected renames).map Attribute.name ↔
      name ∈ selected ∨ name ∈ renames.names := by
  rw [heading.names_produced, List.mem_append, List.mem_flatMap, List.mem_map]
  constructor
  · rintro (⟨source, _, image⟩ | ⟨entry, computed, rfl⟩)
    · rcases mem_imageNames.1 image with ⟨rfl, kept⟩ | ⟨entry, listed, rfl, _⟩
      · exact .inl kept
      · exact .inr (heading.names_renamings renames ▸ List.mem_map_of_mem listed)
    · have listed := (List.mem_filter.1 computed).1
      exact .inr (heading.names_renamings renames ▸ List.mem_map_of_mem listed)
  · rintro (kept | new)
    · exact .inl ⟨name, shown name kept, mem_imageNames.2 (.inl ⟨rfl, kept⟩)⟩
    · obtain ⟨⟨_, value⟩, given, rfl⟩ := List.mem_map.1 new
      have listed := List.mem_map_of_mem (f := fun entry : String × String =>
        (entry.1, heading.classify entry.2)) given
      cases meaning : (heading.classify value).source? with
      | none => exact .inr ⟨_, List.mem_filter.2 ⟨listed, decide_eq_true meaning⟩, rfl⟩
      | some source =>
          refine .inl ⟨source, source_of_classify meaning, ?_⟩
          exact mem_imageNames.2 (.inr ⟨_, listed, rfl, meaning⟩)

/-- The key of a projection with a forced key has the forced names that are shown. -/
theorem Heading.primaryKey_project_of_forced
    (built : heading.project selected renames (some key) = .ok result) :
    result.primaryKey = key.eraseDups.filter fun name =>
      selected.contains name || renames.names.contains name := by
  obtain ⟨shown, forced⟩ := project_eq_ok.1 built
  rw [Option.elim] at forced
  rw [primaryKey_eq, attributes_ofAttributes forced, filter_keyOrder,
    names_key_forceKey (exists_ofAttributes.1 ⟨result, forced⟩).1]
  refine List.filter_congr fun name _ => ?_
  rw [Bool.eq_iff_iff, List.contains_iff_mem, mem_names_produced shown, Bool.or_eq_true,
    List.contains_iff_mem, List.contains_iff_mem]

/-- The key of a grouping is the given list without repetitions. -/
theorem Heading.primaryKey_project_of_key
    (built : heading.project key renames (some key) = .ok result) :
    result.primaryKey = key.eraseDups := by
  rw [primaryKey_project_of_forced built, List.filter_eq_self]
  intro name inside
  rw [List.contains_iff_mem.2 (List.mem_eraseDups.1 inside), Bool.true_or]

end Projecting

/-- One name for each of some attributes, in their order, stands among all names for them. -/
theorem sublist_flatMap_of_mem {names : List String} {carried : String → String}
    {images : String → List String} (inside : ∀ name ∈ names, carried name ∈ images name) :
    (names.map carried).Sublist (names.flatMap images) := by
  rw [List.map_eq_flatMap]
  exact .flatMap_right _ fun name member => List.singleton_sublist.2 (inside name member)

section Aggregating

variable {base group result : Expression} {items : List ProjectionItem} {renames : Renames}
  {keepAll : Bool}

/-- An aggregation gives a projection of the joined heading, rekeyed by the base and without what
the partner does not lend. -/
theorem Expression.exists_keyed_of_aggregate
    (built : base.aggregateItems group items renames keepAll = .ok result) :
    ∃ (joined : Expression) (keyed : Heading) (selected : List String),
      base.joinAs group ⟨keepAll, base.session.config.semanticCheck, false⟩ = .ok joined ∧
      keyed.renamings renames = joined.heading.renamings renames ∧
      keyed.primaryKey = base.heading.primaryKey ∧
      (∀ name ∈ keyed.primaryKey, name ∈ selected ↔ name ∉ keyed.movedSources renames) ∧
      (∀ name ∈ selected, name ∈ base.heading.primaryKey ∨ name ∈ base.heading.secondary ∨
        .named name ∈ items) ∧
      keyed.project selected renames none = .ok result.heading := by
  obtain ⟨joined, keyed, selection, heading, join, rekeyed, entries, projected, rfl⟩ :=
    aggregateItems_ok built
  have key := Heading.primaryKey_rekey rekeyed
  refine ⟨joined, keyed, _, join,
    Heading.renamings_congr (Heading.mem_names_rekey rekeyed) renames, key, ?_, ?_, projected⟩
  · intro name inside
    have lent : base.heading.lends items name = true := by
      simp [Heading.lends, key ▸ inside]
    rw [List.mem_filter, and_iff_left lent]
    exact Heading.mem_selected_of_key (key ▸ entries) inside
  · intro name inside
    have lent := (List.mem_filter.1 inside).2
    simpa [Heading.lends, or_assoc] using lent

end Aggregating

/-- An aggregation with a partner is keyed on the base. Every key attribute of the base goes on in
the key, in the order of the base, and nothing else is in it. What is shown beside new names is
listed or belongs to the base. An aggregation without a partner is keyed on the given list. -/
theorem Expression.aggregation_keyed_on_base :
    (∀ (base group result : Expression) (items : List ProjectionItem) (renames : Renames)
        (keepAll : Bool), base.aggregateItems group items renames keepAll = .ok result →
      ∃ joined : Expression,
        base.joinAs group ⟨keepAll, base.session.config.semanticCheck, false⟩ = .ok joined ∧
        (base.heading.primaryKey.map (joined.heading.carriedName renames)).Sublist
          result.heading.primaryKey ∧
        (∀ name, name ∈ result.heading.primaryKey ↔
          ∃ source ∈ base.heading.primaryKey, joined.heading.Continues renames source name) ∧
        ∀ name ∈ result.heading.names, name ∈ base.heading.primaryKey ∨
          name ∈ base.heading.secondary ∨ .named name ∈ items ∨ name ∈ renames.names) ∧
    ∀ (e result : Expression) (key : List String) (renames : Renames),
      e.groupOver key renames = .ok result → result.heading.primaryKey = key.eraseDups := by
  refine ⟨fun base group result items renames keepAll built => ?_,
    fun e result key renames built => ?_⟩
  · obtain ⟨joined, keyed, selected, join, renamed, key, kept, lent, projected⟩ :=
      exists_keyed_of_aggregate built
    have continues : ∀ source ∈ keyed.primaryKey, ∀ name,
        name ∈ imageNames selected (keyed.renamings renames) source ↔
          joined.heading.Continues renames source name := by
      intro source inside name
      rw [Heading.mem_imageNames_of_key (kept source inside)]
      unfold Heading.Continues Heading.movedSources
      rw [renamed]
    refine ⟨joined, join, ?_, fun name => ?_, fun name shown => ?_⟩
    · rw [← key, Heading.primaryKey_project projected]
      exact sublist_flatMap_of_mem fun source inside =>
        (continues source inside _).2 (Heading.continues_carriedName source)
    · rw [← key, Heading.primaryKey_project projected, List.mem_flatMap]
      exact exists_congr fun source => and_congr_right fun inside => continues source inside name
    · have whole : keyed.projectKeyed selected renames true = .ok result.heading :=
        bind_eq_ok.2 ⟨result.heading, projected, rfl⟩
      rcases Heading.mem_names_of_projectKeyed whole shown with inside | new
      · rcases lent name inside with inKey | other | listed
        · exact .inl inKey
        · exact .inr (.inl other)
        · exact .inr (.inr (.inl listed))
      · exact .inr (.inr (.inr new))
  · obtain ⟨heading, projected, rfl⟩ := groupOver_ok built
    exact Heading.primaryKey_project_of_key projected

/-- The subjects renamed and with the number of their entries. -/
def countedEntries : Renames := Renames.ofList [("id", "subject_id"), ("entries", "count(*)")]

/-- The join of subjects with their entries has the key of the entries, and the aggregation has
that of the subjects under a new name. -/
theorem Expression.aggregation_keyed_on_base_of_log :
    ∃ subjects entries counted grouped, Reachable (· = laboratory) subjects ∧
      Reachable (· = laboratory) entries ∧
      subjects.aggregateItems entries [.others] countedEntries false = .ok counted ∧
      "id" ∈ counted.heading.primaryKey ∧ "entry" ∉ counted.heading.names ∧
      entries.groupOver ["subject_id", "subject_id"] Renames.empty = .ok grouped ∧
      grouped.heading.primaryKey = ["subject_id"] := by
  obtain ⟨subjects, entries, first, second, ⟨counted, built⟩, ⟨grouped, grouping⟩, carried, key,
      unlent⟩ : ∃ subjects entries : Expression, Reachable (· = laboratory) subjects ∧
        Reachable (· = laboratory) entries ∧
        (∃ counted, subjects.aggregateItems entries [.others] countedEntries false =
          .ok counted) ∧
        (∃ grouped, entries.groupOver ["subject_id", "subject_id"] Renames.empty =
          .ok grouped) ∧
        (subjects.joinAs entries
          ⟨false, subjects.session.config.semanticCheck, false⟩).toOption.map
            (·.heading.carriedName countedEntries "subject_id") = some "id" ∧
        subjects.heading.primaryKey = ["subject_id"] ∧
        ("entry" ∉ subjects.heading.primaryKey ∧ "entry" ∉ subjects.heading.secondary ∧
          "entry" ∉ countedEntries.names) := by
    have first := @Reachable.table (· = laboratory) laboratory subjectDeclaration _ rfl rfl
    have second := @Reachable.table (· = laboratory) laboratory logDeclaration _ rfl rfl
    exact ⟨_, _, first, second, isOk_iff.1 (by decide +kernel), isOk_iff.1 (by decide +kernel),
      by decide +kernel, by decide +kernel, by decide +kernel⟩
  obtain ⟨joined, join, keyed, _, shown⟩ :=
    aggregation_keyed_on_base.1 subjects entries counted _ countedEntries false built
  refine ⟨subjects, entries, counted, grouped, first, second, built, ?_, fun entry => ?_, grouping,
    aggregation_keyed_on_base.2 entries grouped _ _ grouping⟩
  · rw [join] at carried
    have same : joined.heading.carriedName countedEntries "subject_id" = "id" :=
      Option.some.inj carried
    rw [key, List.map_singleton, same] at keyed
    exact List.singleton_sublist.1 keyed
  · rcases shown "entry" entry with inKey | secondary | listed | new
    · exact unlent.1 inKey
    · exact unlent.2.1 secondary
    · simp at listed
    · exact unlent.2.2 new

end QueryAlgebra
