/-
This file says which projections are accepted, what they show and which of it is in their key.
-/
import QueryAlgebra.Proofs.KeyUniqueness
import QueryAlgebra.Proofs.RekeyedHeading
import QueryAlgebra.Proofs.SelectedAttributes

namespace QueryAlgebra

/-- The names under which a projection shows an attribute, its own name first. -/
def imageNames (selected : List String) (renamings : List (String × Renaming)) (name : String) :
    List String :=
  (if name ∈ selected then [name] else []) ++
    (renamings.filter (·.2.source? = some name)).map Prod.fst

theorem Attribute.names_images (attr : Attribute) (selected : List String)
    (renamings : List (String × Renaming)) :
    (attr.images selected renamings).map Attribute.name =
      imageNames selected renamings attr.name := by
  have named : Attribute.name ∘ (fun entry : String × Renaming => attr.renamed entry.1) =
      Prod.fst := rfl
  unfold images imageNames
  rw [List.map_append, List.map_map, named]
  split <;> rfl

theorem mem_imageNames {selected : List String} {renamings : List (String × Renaming)}
    {name other : String} : other ∈ imageNames selected renamings name ↔
      (other = name ∧ name ∈ selected) ∨
        ∃ entry ∈ renamings, entry.1 = other ∧ entry.2.source? = some name := by
  rw [imageNames, List.mem_append]
  apply or_congr
  · by_cases inside : name ∈ selected <;> simp [inside]
  · simp only [List.mem_map, List.mem_filter, decide_eq_true_eq]
    constructor
    · rintro ⟨entry, ⟨member, taken⟩, same⟩
      exact ⟨entry, member, same, taken⟩
    · rintro ⟨entry, member, same, taken⟩
      exact ⟨entry, ⟨member, taken⟩, same⟩

/-- The new names that take or copy nothing are those of computed attributes. -/
theorem names_computed (renamings : List (String × Renaming)) :
    (renamings.filterMap fun entry => entry.2.computed? entry.1).map Attribute.name =
      (renamings.filter (·.2.source? = none)).map Prod.fst := by
  induction renamings with
  | nil => rfl
  | cons entry rest ih =>
      obtain ⟨name, meaning⟩ := entry
      cases meaning with
      | compute expression => exact congrArg (name :: ·) ih
      | move source | copy source =>
          simpa [Renaming.computed?, Renaming.source?] using ih

/-- Different attributes are shown under different names if the new names are new. -/
theorem nodup_imageNames {selected names : List String} {renamings : List (String × Renaming)}
    (distinct : names.Nodup) (renamed : (renamings.map Prod.fst).Nodup)
    (apart : ∀ entry ∈ renamings, entry.1 ∉ selected) :
    (names.flatMap (imageNames selected renamings) ++
      (renamings.filter (·.2.source? = none)).map Prod.fst).Nodup := by
  have part : ∀ keep : String × Renaming → Bool, ((renamings.filter keep).map Prod.fst).Nodup :=
    fun keep => renamed.sublist (List.filter_sublist.map _)
  -- a new name stands for one entry, so it has one meaning
  have same : ∀ {entry other : String × Renaming}, entry ∈ renamings → other ∈ renamings →
      entry.1 = other.1 → entry.2.source? = other.2.source? :=
    fun inside member named => by rw [List.inj_on_of_nodup_map renamed inside member named]
  refine List.nodup_append.2 ⟨List.nodup_flatMap.2 ⟨fun name _ => ?_, ?_⟩, part _, ?_⟩
  · refine List.nodup_append.2 ⟨?_, part _, ?_⟩
    · split
      · exact List.nodup_singleton name
      · exact List.nodup_nil
    · intro other own new renamed' again
      obtain ⟨entry, member, rfl⟩ := List.mem_map.1 renamed'
      split at own
      · rename_i inside
        rw [List.mem_singleton] at own
        exact apart entry (List.mem_filter.1 member).1 (again ▸ own ▸ inside)
      · contradiction
  · refine distinct.imp fun {first second} differ => ?_
    intro name left right
    rcases mem_imageNames.1 left with ⟨rfl, kept⟩ | ⟨entry, inside, named, taken⟩ <;>
      rcases mem_imageNames.1 right with ⟨rfl, kept'⟩ | ⟨other, member, named', taken'⟩
    · exact differ rfl
    · exact apart other member (named' ▸ kept)
    · exact apart entry inside (named ▸ kept')
    · have sources := same inside member (named.trans named'.symm)
      rw [taken, taken', Option.some.injEq] at sources
      exact differ sources
  · intro name image other computed again
    obtain ⟨source, _, shown⟩ := List.mem_flatMap.1 image
    obtain ⟨entry, member, rfl⟩ := List.mem_map.1 computed
    obtain ⟨inside, none⟩ := List.mem_filter.1 member
    rcases mem_imageNames.1 shown with ⟨rfl, kept⟩ | ⟨taking, listed, named, taken⟩
    · exact apart entry inside (again ▸ kept)
    · have sources := same listed inside (named.trans again)
      rw [taken, of_decide_eq_true none] at sources
      contradiction

section Headings

variable {heading result : Heading} {selected : List String} {renames : Renames}

theorem Heading.names_produced (heading : Heading) (selected : List String) (renames : Renames) :
    (heading.produced selected renames).map Attribute.name =
      heading.names.flatMap (imageNames selected (heading.renamings renames)) ++
        ((heading.renamings renames).filter (·.2.source? = none)).map Prod.fst := by
  rw [produced, List.map_append, names_computed, List.map_flatMap, names, List.flatMap_map]
  simp only [Attribute.names_images]

/-- A projection is accepted if it selects shown attributes and no new names. -/
theorem Heading.exists_project
    (shown : ∀ name ∈ selected, name ∈ heading.names ∧ name ∉ renames.names) :
    ∃ result, heading.project selected renames none = .ok result := by
  have new : ∀ entry ∈ heading.renamings renames, entry.1 ∈ renames.names := by
    intro entry listed
    rw [← heading.names_renamings renames]
    exact List.mem_map_of_mem listed
  have distinct : ((heading.renamings renames).map Prod.fst).Nodup := by
    rw [heading.names_renamings renames]
    exact renames.nodup
  simp only [project_eq_ok, Option.elim, exists_and_left, exists_ofAttributes,
    heading.names_produced]
  refine ⟨fun name inside => (shown name inside).1, ?_, fun attr inside _ =>
    visible_of_produced inside⟩
  refine nodup_imageNames heading.nodup_names distinct ?_
  exact fun entry listed inside => (shown entry.1 inside).2 (new entry listed)

theorem Attribute.filter_images (attr : Attribute) (selected : List String)
    (renamings : List (String × Renaming)) :
    (attr.images selected renamings).filter (·.inKey) =
      if attr.inKey then attr.images selected renamings else [] := by
  have same : ∀ image ∈ attr.images selected renamings, image.inKey = attr.inKey := by
    intro image inside
    rcases mem_images.1 inside with ⟨_, rfl⟩ | ⟨_, _, _, rfl⟩ <;> rfl
  rw [List.filter_congr same]
  cases attr.inKey <;> simp

theorem filter_flatMap_images (attrs : List Attribute) (selected : List String)
    (renamings : List (String × Renaming)) :
    (attrs.flatMap (·.images selected renamings)).filter (·.inKey) =
      (attrs.filter (·.inKey)).flatMap (·.images selected renamings) := by
  induction attrs with
  | nil => rfl
  | cons attr rest ih =>
      rw [List.flatMap_cons, List.filter_append, ih, attr.filter_images]
      cases inKey : attr.inKey <;> simp [inKey]

/-- The key of a projection has the images of the old key in their order. -/
theorem Heading.primaryKey_project (built : heading.project selected renames none = .ok result) :
    result.primaryKey =
      heading.primaryKey.flatMap (imageNames selected (heading.renamings renames)) := by
  have computed : ((heading.renamings renames).filterMap fun entry =>
      entry.2.computed? entry.1).filter (·.inKey) = [] := by
    refine List.filter_eq_nil_iff.2 fun attr inside => ?_
    obtain ⟨entry, _, meaning⟩ := List.mem_filterMap.1 inside
    obtain ⟨expression, _, rfl⟩ := Renaming.computed?_eq_some.1 meaning
    exact Bool.false_ne_true
  rw [primaryKey_eq, attributes_ofAttributes (project_eq_ok.1 built).2, filter_keyOrder,
    Option.elim, produced, List.filter_append, computed, List.append_nil, filter_flatMap_images,
    List.map_flatMap, primaryKey, List.flatMap_map]
  simp only [Attribute.names_images]

/-- Shown attributes are selected and no new names, so that the list is accepted in either way. -/
theorem Heading.exists_projectKeyed {keepKey : Bool}
    (shown : ∀ name ∈ selected, name ∈ heading.names ∧ name ∉ renames.names) :
    ∃ result, heading.projectKeyed selected renames keepKey = .ok result := by
  obtain ⟨projected, built⟩ := exists_project shown
  unfold projectKeyed
  rw [built]
  cases keepKey with
  | true => exact ⟨projected, rfl⟩
  | false =>
      exact exists_rekey.2 ⟨projected.nodup_names, fun _ => id⟩

theorem Heading.mem_movedSources {source : String} : source ∈ heading.movedSources renames ↔
    ∃ entry ∈ heading.renamings renames, entry.2 = .move source := by
  have moved : ∀ meaning : Renaming, meaning.moved? = some source ↔ meaning = .move source := by
    intro meaning
    cases meaning <;> simp [Renaming.moved?]
  simp only [movedSources, List.mem_filterMap, moved]

/-- The one name under which an attribute goes on: the name that it moves to, or else its own. -/
def Heading.carriedName (heading : Heading) (renames : Renames) (source : String) : String :=
  ((heading.renamings renames).find? (·.2 = .move source)).elim source Prod.fst

theorem Heading.carriedName_of_unmoved {source : String}
    (unmoved : source ∉ heading.movedSources renames) :
    heading.carriedName renames source = source := by
  have none : (heading.renamings renames).find? (·.2 = .move source) = none := by
    refine List.find?_eq_none.2 fun entry inside moves => unmoved ?_
    exact mem_movedSources.2 ⟨entry, inside, of_decide_eq_true moves⟩
  rw [carriedName, none, Option.elim]

/-- What moves goes on under a name that it moves to. -/
theorem Heading.exists_carriedName {source : String}
    (moved : source ∈ heading.movedSources renames) :
    ∃ entry ∈ heading.renamings renames, entry.2 = .move source ∧
      heading.carriedName renames source = entry.1 := by
  obtain ⟨entry, inside, moves⟩ := mem_movedSources.1 moved
  have some : ((heading.renamings renames).find? (·.2 = .move source)).isSome = true :=
    List.find?_isSome.2 ⟨entry, inside, decide_eq_true moves⟩
  obtain ⟨first, found⟩ := Option.isSome_iff_exists.1 some
  have moves' := List.find?_some found
  refine ⟨first, List.mem_of_find?_eq_some found, of_decide_eq_true moves', ?_⟩
  rw [carriedName, found, Option.elim]

/-- An attribute goes on under its own name unless it moves, and under each new name for it. -/
def Heading.Continues (heading : Heading) (renames : Renames) (source name : String) : Prop :=
  (name = source ∧ source ∉ heading.movedSources renames) ∨
    ∃ entry ∈ heading.renamings renames, entry.1 = name ∧ entry.2.source? = some source

theorem Heading.continues_carriedName (source : String) :
    heading.Continues renames source (heading.carriedName renames source) := by
  by_cases moved : source ∈ heading.movedSources renames
  · obtain ⟨entry, inside, moves, same⟩ := exists_carriedName moved
    exact .inr ⟨entry, inside, same.symm, by rw [moves]; rfl⟩
  · exact .inl ⟨carriedName_of_unmoved moved, moved⟩

/-- Where the key is kept, exactly the key names that do not move are selected of it. -/
theorem Heading.mem_selected_of_key {items : List ProjectionItem} {selection : Selection}
    (chosen : heading.selection items renames heading.primaryKey = .ok selection) {name : String}
    (key : name ∈ heading.primaryKey) :
    name ∈ selection.selected ↔ name ∉ heading.movedSources renames := by
  have selectable := exists_selection.1 ⟨selection, chosen⟩
  rw [mem_selected chosen]
  exact ⟨selectable.unmoved_of_stays, fun unmoved => .inl ⟨key, unmoved⟩⟩

theorem Heading.mem_imageNames_of_key {source name : String}
    (kept : source ∈ selected ↔ source ∉ heading.movedSources renames) :
    name ∈ imageNames selected (heading.renamings renames) source ↔
      heading.Continues renames source name := by
  rw [mem_imageNames, kept, Continues]

end Headings

namespace Expression

variable {e result : Expression} {items : List ProjectionItem} {renames : Renames}
  {keepKey : Bool}

/-- The key names that a projection has to keep. -/
def keptKey (e : Expression) (keepKey : Bool) : List String :=
  if keepKey then e.heading.primaryKey else []

/-- A projection list uses every attribute once, and a kept name that does not move is no new
name. -/
structure Projectable (e : Expression) (items : List ProjectionItem) (renames : Renames)
    (keepKey : Bool) : Prop where
  selectable : e.heading.Selectable items renames (e.keptKey keepKey)
  fresh : ∀ name ∈ e.keptKey keepKey, name ∈ renames.names → name ∈ e.heading.movedSources renames

theorem names_of_keptKey {name : String} (kept : name ∈ e.keptKey keepKey) :
    name ∈ e.heading.names := by
  unfold keptKey at kept
  split at kept
  · exact Heading.names_of_primaryKey kept
  · contradiction

theorem Projects.chosen {selection : Selection}
    (projects : e.Projects items renames keepKey selection result) :
    e.heading.selection items renames (e.keptKey keepKey) = .ok selection :=
  projects.entries

/-- A projection shows what stays and the new names. -/
theorem Projects.mem_names_iff {selection : Selection}
    (projects : e.Projects items renames keepKey selection result) {name : String} :
    name ∈ result.heading.names ↔
      e.heading.Stays items renames (e.keptKey keepKey) name ∨ name ∈ renames.names := by
  rw [← Heading.mem_selected projects.chosen]
  refine ⟨Heading.mem_names_of_projectKeyed projects.heading, ?_⟩
  rintro (kept | new)
  · obtain ⟨projected, images, _⟩ := bind_eq_ok.1 projects.heading
    obtain ⟨attr, inside, rfl⟩ := Heading.mem_names.1 (Heading.selected_of_project images kept)
    have found := Heading.get?_of_projectKeyed projects.heading inside kept
    exact Heading.mem_names.2 ⟨_, (Heading.get?_eq_some.1 found).1, rfl⟩
  · obtain ⟨attr, visible, named, _⟩ := Heading.exists_of_new_name projects.heading new
    exact Heading.mem_names.2 ⟨attr, visible, named⟩

/-- A projection that keeps the key has the heading that its source is projected to. -/
theorem Projects.project {selection : Selection}
    (projects : e.Projects items renames true selection result) :
    (e.projectedSource selection.selected renames true).heading.project selection.selected renames
      none = .ok result.heading := by
  obtain ⟨projected, built, same⟩ := bind_eq_ok.1 projects.heading
  injection same with same
  exact same ▸ built

/-- The key of a projection that keeps it has what continues the old key. -/
theorem Projects.mem_primaryKey_iff {selection : Selection}
    (projects : e.Projects items renames true selection result) {name : String} :
    name ∈ result.heading.primaryKey ↔
      ∃ source ∈ e.heading.primaryKey, e.heading.Continues renames source name := by
  rw [Heading.primaryKey_project projects.project, List.mem_flatMap, e.renamings_projectedSource]
  simp only [e.mem_primaryKey_projectedSource]
  refine exists_congr fun source => and_congr_right fun key => ?_
  exact Heading.mem_imageNames_of_key (Heading.mem_selected_of_key projects.entries key)

/-- Exactly the lists are projected that use every attribute once. -/
theorem exists_projectItems_iff :
    (∃ result, e.projectItems items renames keepKey = .ok result) ↔
      e.Projectable items renames keepKey := by
  constructor
  · rintro ⟨result, built⟩
    obtain ⟨selection, projects⟩ := projectItems_ok built
    refine ⟨Heading.exists_selection.1 ⟨selection, projects.entries⟩, fun name kept new => ?_⟩
    by_contra unmoved
    have selected := (Heading.mem_selected projects.chosen).2 (.inl ⟨kept, unmoved⟩)
    have underived := (needsSubquery_eq_false.1
      (e.needsSubquery_projectedSource selection.selected renames keepKey)).2.2
    exact Heading.not_selected_of_new projects.heading underived new selected
  · intro projectable
    obtain ⟨selection, chosen⟩ := Heading.exists_selection.2 projectable.selectable
    have shown : ∀ name ∈ selection.selected,
        name ∈ (e.projectedSource selection.selected renames keepKey).heading.names ∧
          name ∉ renames.names := by
      intro name inside
      rw [e.names_projectedSource]
      exact projectable.selectable.shown_of_stays (fun _ => names_of_keptKey) projectable.fresh
        ((Heading.mem_selected chosen).1 inside)
    obtain ⟨heading, built⟩ := Heading.exists_projectKeyed shown
    rw [projectItems_eq]
    exact ⟨_, bind_eq_ok.2 ⟨selection, chosen, bind_eq_ok.2 ⟨heading, built, rfl⟩⟩⟩

/-- A projection is accepted exactly if its list uses every attribute once and gives no kept
attribute a new namesake. It shows, each once, what stays and the new names, and an attribute is
in its key if the old key is not kept or if it continues an attribute of it. -/
theorem projectItems_exactly (e : Expression) (items : List ProjectionItem) (renames : Renames)
    (keepKey : Bool) :
    ((∃ result, e.projectItems items renames keepKey = .ok result) ↔
        e.Projectable items renames keepKey) ∧
      ∀ result, e.projectItems items renames keepKey = .ok result →
        result.heading.names.Nodup ∧
        (∀ name, name ∈ result.heading.names ↔
          e.heading.Stays items renames (e.keptKey keepKey) name ∨ name ∈ renames.names) ∧
        ∀ name ∈ result.heading.names, (name ∈ result.heading.primaryKey ↔
          keepKey = false ∨
            ∃ source ∈ e.heading.primaryKey, e.heading.Continues renames source name) := by
  refine ⟨exists_projectItems_iff, fun result built => ?_⟩
  obtain ⟨selection, projects⟩ := projectItems_ok built
  refine ⟨result.heading.nodup_names, fun name => projects.mem_names_iff, fun name shown => ?_⟩
  cases keepKey with
  | true => exact projects.mem_primaryKey_iff.trans (or_iff_right nofun).symm
  | false =>
      obtain ⟨projected, _, keyed⟩ := bind_eq_ok.1 projects.heading
      have rekeyed : projected.rekey projected.names = .ok result.heading := keyed
      rw [Heading.primaryKey_rekey rekeyed, ← Heading.mem_names_rekey rekeyed]
      exact iff_of_true shown (.inl rfl)

/-- New names for the subjects, one of which copies the key. -/
def copiedKey : Renames :=
  Renames.ofList [("id", "subject_id"), ("copy", "(subject_id)"), ("species", "upper(species)")]

/-- Subjects are projected with a copied key, and a listed key that moves is refused. -/
theorem projectItems_exactly_of_copiedKey :
    ∃ subjects result, Reachable (· = laboratory) subjects ∧
      subjects.projectItems [.others, .without "sex"] copiedKey true = .ok result ∧
      "species" ∈ result.heading.names ∧ "sex" ∉ result.heading.names ∧
      "copy" ∈ result.heading.primaryKey ∧
      ¬ ∃ other, subjects.projectItems [.named "subject_id"] copiedKey true = .ok other := by
  have subjects := @Reachable.table (· = laboratory) laboratory subjectDeclaration _ rfl rfl
  obtain ⟨result, built, _⟩ := subjects.exists_project [.others, .without "sex"] copiedKey true
    (by decide +kernel)
  obtain ⟨_, shown, keyed⟩ := (projectItems_exactly _ _ copiedKey true).2 result built
  have copied := (shown "copy").2 (.inr (by decide +kernel))
  refine ⟨_, result, subjects, built, (shown "species").2 (.inr (by decide +kernel)), ?_,
    (keyed "copy" copied).2 (.inr ⟨"subject_id", by decide +kernel, .inr (by decide +kernel)⟩),
    fun accepted => ?_⟩
  · rw [shown]
    unfold Heading.Stays
    decide +kernel
  · have projectable := (projectItems_exactly _ _ copiedKey true).1.1 accepted
    exact absurd (by decide +kernel)
      (projectable.selectable.unmoved "subject_id" List.mem_cons_self)

end Expression

end QueryAlgebra
