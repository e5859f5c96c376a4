/-
This file describes the headings that projections compute.
They show the selected attributes and the new names, and the new names have expressions.
-/
import QueryAlgebra.Expression.Projected
import QueryAlgebra.Proofs.HeadingMembers

namespace QueryAlgebra

/-- The heading of a projection, whose key has all attributes unless the old key is kept. -/
def Heading.projectKeyed (heading : Heading) (selected : List String) (renames : Renames)
    (keepKey : Bool) : Except Fault Heading := do
  let projected ← heading.project selected renames none
  if keepKey then .ok projected else projected.rekey projected.names

/-- The heading of a projection has the images of its source and the computed attributes. -/
theorem Heading.mem_projectKeyed {heading result : Heading} {selected : List String}
    {renames : Renames} {keepKey : Bool}
    (built : heading.projectKeyed selected renames keepKey = .ok result) {attr : Attribute} :
    attr ∈ result.attributes ↔ ∃ shown : Attribute,
      ((∃ origin ∈ heading.visible, shown ∈ origin.images selected (heading.renamings renames)) ∨
        ∃ entry ∈ heading.renamings renames, entry.2.computed? entry.1 = some shown) ∧
      attr = { shown with inKey := !keepKey || shown.inKey } := by
  obtain ⟨projected, images, keyed⟩ := bind_eq_ok.1 built
  cases keepKey with
  | true =>
      injection keyed with same
      subst same
      rw [mem_project images]
      simp
  | false =>
      have inKey : ∀ shown ∈ projected.attributes, projected.names.contains shown.name = true :=
        fun shown inside => by
          rw [List.contains_iff_mem]
          exact mem_names.2 ⟨shown, visible_of_project images inside, rfl⟩
      rw [mem_rekey (by simpa using keyed)]
      apply exists_congr
      intro shown
      rw [mem_project images]
      apply and_congr_right
      intro inside
      rw [inKey shown ((mem_project images).2 inside)]
      rfl

theorem Heading.mem_names_of_refersTo {heading : Heading} {name : List Char}
    (refers : heading.refersTo name = true) : String.ofList name ∈ heading.names := by
  unfold Heading.refersTo at refers
  exact (heading.contains_iff _).1 (Bool.and_eq_true_iff.1 refers).2

/-- Only a visible attribute is moved or copied. -/
theorem Heading.source_of_classify {heading : Heading} {value source : String}
    (moved : (heading.classify value).source? = some source) : source ∈ heading.names := by
  unfold Heading.classify at moved
  dsimp only at moved
  split at moved <;> split at moved
  · rename_i inner _ refers
    injection moved with same
    exact same ▸ mem_names_of_refersTo refers
  · contradiction
  · rename_i refers
    injection moved with same
    exact same ▸ mem_names_of_refersTo refers
  · contradiction

/-- An attribute stands for a visible one, under its own or a new name, or it is computed. -/
def Heading.Produces (heading : Heading) (selected : List String) (renames : Renames)
    (attr : Attribute) : Prop :=
  (∃ origin ∈ heading.visible, attr ∈ origin.images selected (heading.renamings renames)) ∨
    ∃ entry ∈ heading.renamings renames, entry.2.computed? entry.1 = some attr

/-- A heading has the attributes that a projection produces, in or out of a key of its own. -/
def Heading.Reshapes (heading : Heading) (selected : List String) (renames : Renames)
    (result : Heading) : Prop :=
  ∃ inKey : Attribute → Bool, ∀ attr, attr ∈ result.attributes ↔
    ∃ shown, heading.Produces selected renames shown ∧
      attr = { shown with inKey := inKey shown }

theorem Heading.reshapes_of_project {heading result : Heading} {selected : List String}
    {renames : Renames} {key : Option (List String)}
    (built : heading.project selected renames key = .ok result) :
    heading.Reshapes selected renames result := by
  cases key with
  | none => exact ⟨Attribute.inKey, fun attr => by rw [mem_project built]; simp [Produces]⟩
  | some key =>
      refine ⟨fun shown => key.contains shown.name, fun attr => ?_⟩
      rw [attributes_ofAttributes (project_eq_ok.1 built).2, mem_keyOrder, Option.elim,
        mem_forceKey]
      simp only [Produces, produced, List.mem_append, List.mem_flatMap, List.mem_filterMap]

theorem Heading.reshapes_of_projectKeyed {heading result : Heading} {selected : List String}
    {renames : Renames} {keepKey : Bool}
    (built : heading.projectKeyed selected renames keepKey = .ok result) :
    heading.Reshapes selected renames result :=
  ⟨fun shown => !keepKey || shown.inKey, fun _ => mem_projectKeyed built⟩

/-- What the expression of an attribute of this meaning is. -/
def Renaming.text : Renaming → String
  | .move source | .copy source => quoteName source
  | .compute expression => expression

/-- How a value is read depends on the names of a heading alone. -/
theorem Heading.classify_congr {first second : Heading}
    (same : ∀ name, name ∈ first.names ↔ name ∈ second.names) (value : String) :
    first.classify value = second.classify value := by
  have refers : first.refersTo = second.refersTo := by
    funext name
    unfold refersTo
    congr 1
    rw [Bool.eq_iff_iff, first.contains_iff, second.contains_iff, same]
  unfold classify
  rw [refers]

/-- What the new names do depends on the names of a heading alone. -/
theorem Heading.renamings_congr {first second : Heading}
    (same : ∀ name, name ∈ first.names ↔ name ∈ second.names) (renames : Renames) :
    first.renamings renames = second.renamings renames :=
  List.map_congr_left fun entry _ => congrArg (Prod.mk entry.1) (classify_congr same entry.2)

section Reshaping

variable {heading result : Heading} {selected : List String} {renames : Renames}

/-- What a projection produces is shown. -/
theorem Heading.Reshapes.visible (reshapes : heading.Reshapes selected renames result)
    {attr : Attribute} (inside : attr ∈ result.attributes) : attr ∈ result.visible := by
  obtain ⟨inKey, members⟩ := reshapes
  refine mem_visible.2 ⟨inside, ?_⟩
  obtain ⟨shown, ⟨origin, member, image⟩ | ⟨entry, _, computed⟩, rfl⟩ := (members attr).1 inside
  · have exposed := (mem_visible.1 member).2
    rcases Attribute.mem_images.1 image with ⟨_, rfl⟩ | ⟨entry, _, _, rfl⟩
    · exact exposed
    · exact exposed
  · obtain ⟨expression, _, rfl⟩ := Renaming.computed?_eq_some.1 computed
    rfl

/-- An attribute that is shown without an expression was shown so before. -/
theorem Heading.Reshapes.origin (reshapes : heading.Reshapes selected renames result)
    {attr : Attribute} (inside : attr ∈ result.visible) (plain : attr.expression = none) :
    ∃ origin ∈ heading.visible, origin.name = attr.name ∧ origin.expression = none := by
  obtain ⟨inKey, members⟩ := reshapes
  obtain ⟨shown, ⟨origin, member, image⟩ | ⟨entry, _, computed⟩, rfl⟩ :=
    (members attr).1 (mem_visible.1 inside).1
  · rcases Attribute.mem_images.1 image with ⟨_, rfl⟩ | ⟨entry, _, _, rfl⟩
    · exact ⟨shown, member, rfl, plain⟩
    · contradiction
  · obtain ⟨expression, _, rfl⟩ := Renaming.computed?_eq_some.1 computed
    contradiction

/-- A new name gets an attribute with an expression, over columns that of what it means. -/
theorem Heading.Reshapes.exists_of_entry (reshapes : heading.Reshapes selected renames result)
    {name value : String} (entry : (name, value) ∈ renames.entries) :
    ∃ attr ∈ result.visible, attr.name = name ∧ attr.expression.isSome = true ∧
      ((∀ origin ∈ heading.visible, origin.expression = none) →
        attr.expression = some (heading.classify value).text) := by
  have listed : (name, heading.classify value) ∈ heading.renamings renames :=
    List.mem_map.2 ⟨_, entry, rfl⟩
  obtain ⟨shown, produced, named, derived, expressed⟩ : ∃ shown,
      heading.Produces selected renames shown ∧ shown.name = name ∧
        shown.expression.isSome = true ∧
          ((∀ origin ∈ heading.visible, origin.expression = none) →
            shown.expression = some (heading.classify value).text) := by
    cases meaning : heading.classify value with
    | compute expression =>
        refine ⟨.computed name expression, .inr ⟨_, listed, ?_⟩, rfl, rfl, fun _ => rfl⟩
        rw [meaning]
        rfl
    | move source | copy source =>
        have moved : (heading.classify value).source? = some source := by rw [meaning]; rfl
        obtain ⟨attr, member, rfl⟩ := mem_names.1 (source_of_classify moved)
        have image : attr.renamed name ∈ attr.images selected (heading.renamings renames) :=
          Attribute.mem_images.2 (.inr ⟨_, listed, moved, rfl⟩)
        refine ⟨attr.renamed name, .inl ⟨attr, member, image⟩, rfl, rfl, fun columns => ?_⟩
        rw [Attribute.renamed, columns attr member]
        rfl
  obtain ⟨inKey, members⟩ := reshapes
  have inside := (members _).2 ⟨shown, produced, rfl⟩
  exact ⟨_, visible ⟨inKey, members⟩ inside, named, derived, expressed⟩

/-- Over columns, every attribute with an expression has a new name. -/
theorem Heading.Reshapes.entry_of_derived (reshapes : heading.Reshapes selected renames result)
    (columns : ∀ attr ∈ heading.visible, attr.expression = none) {attr : Attribute}
    (inside : attr ∈ result.visible) (derived : attr.derived = true) :
    ∃ value, (attr.name, value) ∈ renames.entries := by
  have given : ∀ entry ∈ heading.renamings renames, ∃ value, (entry.1, value) ∈ renames.entries :=
    fun entry listed => by
      obtain ⟨⟨name, value⟩, member, rfl⟩ := List.mem_map.1 listed
      exact ⟨value, member⟩
  obtain ⟨inKey, members⟩ := reshapes
  obtain ⟨shown, ⟨origin, member, image⟩ | ⟨entry, listed, computed⟩, rfl⟩ :=
    (members attr).1 (mem_visible.1 inside).1
  · rcases Attribute.mem_images.1 image with ⟨_, rfl⟩ | ⟨entry, listed, _, rfl⟩
    · have expressed : shown.expression.isSome = true := derived
      rw [columns shown member] at expressed
      contradiction
    · exact given entry listed
  · obtain ⟨expression, _, rfl⟩ := Renaming.computed?_eq_some.1 computed
    exact given entry listed

end Reshaping

theorem Heading.visible_of_projectKeyed {heading result : Heading} {selected : List String}
    {renames : Renames} {keepKey : Bool}
    (built : heading.projectKeyed selected renames keepKey = .ok result) {attr : Attribute}
    (inside : attr ∈ result.attributes) : attr ∈ result.visible :=
  (reshapes_of_projectKeyed built).visible inside

section ProjectedNames

variable {heading result : Heading} {selected : List String} {renames : Renames} {keepKey : Bool}

/-- A selected attribute is shown under its name. -/
theorem Heading.get?_of_projectKeyed
    (built : heading.projectKeyed selected renames keepKey = .ok result) {attr : Attribute}
    (inside : attr ∈ heading.visible) (kept : attr.name ∈ selected) :
    result.get? attr.name = some { attr with inKey := !keepKey || attr.inKey } := by
  have image : attr ∈ attr.images selected (heading.renamings renames) :=
    Attribute.mem_images.2 (.inl ⟨kept, rfl⟩)
  have member := (mem_projectKeyed built).2 ⟨attr, .inl ⟨attr, inside, image⟩, rfl⟩
  exact get?_eq_some.2 ⟨visible_of_projectKeyed built member, rfl⟩

/-- Every new name is shown with an expression. -/
theorem Heading.exists_of_new_name
    (built : heading.projectKeyed selected renames keepKey = .ok result) {name : String}
    (new : name ∈ renames.names) :
    ∃ attr ∈ result.visible, attr.name = name ∧ attr.expression.isSome = true := by
  obtain ⟨⟨_, value⟩, entry, rfl⟩ := List.mem_map.1 new
  obtain ⟨attr, visible, named, derived, _⟩ :=
    (reshapes_of_projectKeyed built).exists_of_entry entry
  exact ⟨attr, visible, named, derived⟩

/-- A projection shows selected and new names only. -/
theorem Heading.mem_names_of_projectKeyed
    (built : heading.projectKeyed selected renames keepKey = .ok result) {name : String}
    (shown : name ∈ result.names) : name ∈ selected ∨ name ∈ renames.names := by
  have new : ∀ entry ∈ heading.renamings renames, entry.1 ∈ renames.names := by
    intro entry listed
    obtain ⟨given, member, rfl⟩ := List.mem_map.1 listed
    exact List.mem_map.2 ⟨given, member, rfl⟩
  obtain ⟨attr, visible, rfl⟩ := mem_names.1 shown
  obtain ⟨image, source, rfl⟩ := (mem_projectKeyed built).1 (mem_visible.1 visible).1
  rcases source with ⟨origin, _, inside⟩ | ⟨entry, listed, computed⟩
  · rcases Attribute.mem_images.1 inside with ⟨kept, rfl⟩ | ⟨entry, listed, _, rfl⟩
    · exact .inl kept
    · exact .inr (new entry listed)
  · obtain ⟨expression, _, rfl⟩ := Renaming.computed?_eq_some.1 computed
    exact .inr (new entry listed)

/-- A new name is not selected where the heading shows columns only. -/
theorem Heading.not_selected_of_new
    (built : heading.projectKeyed selected renames keepKey = .ok result)
    (underived : heading.hasDerived = false) {name : String} (new : name ∈ renames.names) :
    name ∉ selected := by
  intro kept
  obtain ⟨image, images, _⟩ := bind_eq_ok.1 built
  obtain ⟨attr, inside, rfl⟩ := mem_names.1 (selected_of_project images kept)
  obtain ⟨other, visible, same, derived⟩ := exists_of_new_name built new
  have found := get?_of_projectKeyed built inside kept
  rw [get?_eq_some.2 ⟨visible, same⟩, Option.some.injEq] at found
  rw [found, hasDerived_eq_false.1 underived attr inside] at derived
  contradiction

/-- A projection that shows columns only gives no new names. -/
theorem Heading.names_eq_nil_of_projectKeyed
    (built : heading.projectKeyed selected renames keepKey = .ok result)
    (underived : result.hasDerived = false) : renames.names = [] := by
  refine List.eq_nil_iff_forall_not_mem.2 fun name new => ?_
  obtain ⟨attr, visible, _, derived⟩ := exists_of_new_name built new
  rw [hasDerived_eq_false.1 underived attr visible] at derived
  contradiction

end ProjectedNames

/-- Whatever moves is the source of a new name. -/
theorem Heading.renaming_of_moved {heading : Heading} {items : List ProjectionItem}
    {renames : Renames} {moved : List String}
    (built : heading.movedAttributes items renames = .ok moved) :
    ∀ source ∈ moved, ∃ entry ∈ heading.renamings renames, entry.2 = .move source := by
  refine invariant_of_foldlM
    (fun moved => ∀ source ∈ moved, ∃ entry ∈ heading.renamings renames, entry.2 = .move source)
    built (List.forall_mem_nil _) fun before after entry listed step holds => ?_
  have unlisted : ∀ {between : List String},
      (if items.contains (.named entry.1) then .error (.projection (.usedTwice entry.1))
        else .ok between : Except Fault (List String)) = .ok after → after = between := by
    intro between kept
    split at kept
    · contradiction
    · injection kept with same
      exact same.symm
  cases meaning : entry.2 with
  | move source =>
      rw [meaning] at step
      dsimp only at step
      split at step
      · obtain ⟨_, failed, _⟩ := bind_eq_ok.1 step
        contradiction
      · obtain ⟨between, moves, step⟩ := bind_eq_ok.1 step
        injection moves with same
        rw [unlisted step, ← same, List.forall_mem_append, List.forall_mem_singleton]
        exact ⟨holds, entry, listed, meaning⟩
  | copy source | compute expression =>
      rw [meaning] at step
      obtain ⟨between, stays, step⟩ := bind_eq_ok.1 step
      injection stays with same
      rw [unlisted step, ← same]
      exact holds

/-- Names that are selected first stay selected. -/
theorem mem_foldl_of_mem {excluded candidates start : List String} {name : String}
    (inside : name ∈ start) :
    name ∈ candidates.foldl (fun selected name =>
      if selected.contains name || excluded.contains name then selected
      else selected ++ [name]) start := by
  induction candidates generalizing start with
  | nil => exact inside
  | cons first rest ih =>
      refine ih ?_
      dsimp only
      split
      · exact inside
      · exact List.mem_append_left _ inside

/-- The attributes that have to be kept are still there, under their names or under others. -/
theorem Heading.retained_of_kept {heading : Heading} {items : List ProjectionItem}
    {renames : Renames} {kept : List String} {selection : Selection}
    (built : heading.selection items renames kept = .ok selection) {name : String}
    (inside : name ∈ kept) : name ∈ heading.retained selection.selected renames := by
  unfold Heading.selection at built
  obtain ⟨moved, moving, built⟩ := bind_eq_ok.1 built
  obtain ⟨listed, _, built⟩ := bind_eq_ok.1 built
  dsimp only at built
  split at built
  · contradiction
  · injection built with same
    rw [← same]
    by_cases moves : name ∈ moved
    · obtain ⟨entry, member, meaning⟩ := Heading.renaming_of_moved moving name moves
      exact List.mem_append_right _ (List.mem_filterMap.2 ⟨entry, member, by rw [meaning]; rfl⟩)
    · exact List.mem_append_left _
        (mem_foldl_of_mem (List.mem_filter.2 ⟨inside, by simpa using moves⟩))

end QueryAlgebra
