/-
This file shows that renaming can be undone. Where new names take over distinct attributes and
hide none that stays, the same names the other way around give the old heading back.
-/
import QueryAlgebra.Proofs.DirectRestriction
import QueryAlgebra.Proofs.ProjectionAcceptance

namespace QueryAlgebra

/-- A name can be referred to if it is an identifier and named like no constant. -/
def Referable (name : String) : Prop :=
  isIdentifier name.toList = true ∧ name.toLower ∉ constantNames

instance (name : String) : Decidable (Referable name) := inferInstanceAs (Decidable (_ ∧ _))

/-- The characters of identifiers lie between the digits and the small letters. -/
theorem toNat_of_isIdentifierPart {c : Char} (part : isIdentifierPart c = true) :
    48 ≤ c.toNat ∧ c.toNat ≤ 122 := by
  have upper : c.isUpper = true → 65 ≤ c.toNat ∧ c.toNat ≤ 90 := of_decide_eq_true
  have lower : c.isLower = true → 97 ≤ c.toNat ∧ c.toNat ≤ 122 := fun within =>
    (Bool.and_eq_true_iff.1 within).imp of_decide_eq_true of_decide_eq_true
  have digit : c.isDigit = true → 48 ≤ c.toNat ∧ c.toNat ≤ 57 := fun within =>
    (Bool.and_eq_true_iff.1 within).imp of_decide_eq_true of_decide_eq_true
  rcases Bool.or_eq_true_iff.1 part with word | line
  · rcases Bool.or_eq_true_iff.1 word with letter | number
    · have either := (Bool.or_eq_true_iff.1 letter).imp upper lower
      omega
    · have bounds := digit number
      omega
  · rw [eq_of_beq line]
    decide

theorem isBlank_of_isIdentifierPart {c : Char} (part : isIdentifierPart c = true) :
    isBlank c = false := by
  have bounds := toNat_of_isIdentifierPart part
  exact isBlank_of_visible (by omega) (by omega)

section Identifiers

variable {text : List Char}

theorem isIdentifierPart_of_mem (identifier : isIdentifier text = true) :
    ∀ c ∈ text, isIdentifierPart c = true := by
  cases text with
  | nil => contradiction
  | cons first rest =>
      obtain ⟨start, others⟩ := Bool.and_eq_true_iff.1 identifier
      refine List.forall_mem_cons.2 ⟨?_, List.all_eq_true.1 others⟩
      refine Bool.or_eq_true_iff.2 ((Bool.or_eq_true_iff.1 start).imp ?_ id)
      exact fun letter => Bool.or_eq_true_iff.2 (.inl letter)

theorem trimBlanks_of_identifier (identifier : isIdentifier text = true) :
    trimBlanks text = text := by
  apply trimBlanks_of_dark
  intro c inside
  exact isBlank_of_isIdentifierPart (isIdentifierPart_of_mem identifier c inside)

theorem parenthesised?_of_identifier (identifier : isIdentifier text = true) :
    parenthesised? text = none := by
  unfold parenthesised?
  split
  · have part := isIdentifierPart_of_mem identifier '(' List.mem_cons_self
    contradiction
  · rfl

end Identifiers

/-- A shown attribute that can be referred to moves. -/
theorem Heading.classify_of_referable {heading : Heading} {name : String}
    (referable : Referable name) (shown : name ∈ heading.names) :
    heading.classify name = .move name := by
  have refers : heading.refersTo name.toList = true := by
    simp [refersTo, referable.1, referable.2, (heading.contains_iff name).2 shown]
  unfold classify
  simp only [trimBlanks_of_identifier referable.1, parenthesised?_of_identifier referable.1,
    refers, if_pos, String.ofList_toList]

/-- The same names the other way around. -/
def Renames.inverse (renames : Renames) (once : (renames.entries.map Prod.snd).Nodup) : Renames :=
  ⟨renames.entries.map Prod.swap, by
    rw [List.map_map]
    exact once⟩

theorem Renames.sources_inverse {renames : Renames} (once : (renames.entries.map Prod.snd).Nodup) :
    (renames.inverse once).entries.map Prod.snd = renames.names :=
  List.map_map

/-- New names take over distinct shown attributes, and a new name that is shown is vacated. -/
structure Heading.Relabels (heading : Heading) (renames : Renames) : Prop where
  shown : ∀ entry ∈ renames.entries, entry.2 ∈ heading.names
  once : (renames.entries.map Prod.snd).Nodup
  referable : ∀ entry ∈ renames.entries, Referable entry.1 ∧ Referable entry.2
  vacated : ∀ entry ∈ renames.entries, entry.1 ∈ heading.names →
    entry.1 ∈ renames.entries.map Prod.snd

/-- The column that shows an attribute under another name. -/
def Attribute.columnAs (attr : Attribute) (name : String) : Attribute :=
  { attr.asColumn with name := name }

/-- Other names for attributes do not depend on their expressions. -/
theorem map_columnAs (carried : String → String) (attrs : List Attribute) :
    attrs.map (fun attr => attr.columnAs (carried attr.name)) =
      (attrs.map Attribute.asColumn).map fun attr => attr.columnAs (carried attr.name) := by
  rw [List.map_map]
  rfl

/-- An attribute with a property of its own is the only one that has it. -/
theorem filter_eq_singleton {α β : Type} [DecidableEq α] [DecidableEq β] {f : α → β}
    {entries : List α} {entry : α} (distinct : (entries.map f).Nodup) (inside : entry ∈ entries) :
    entries.filter (fun other => f other = f entry) = [entry] := by
  have same : ∀ other ∈ entries, decide (f other = f entry) = decide (other = entry) := by
    intro other member
    exact decide_eq_decide.2
      ⟨List.inj_on_of_nodup_map distinct member inside, congrArg f⟩
  rw [List.filter_congr same, List.filter_eq,
    List.count_eq_one_of_mem distinct.of_map inside, List.replicate_one]

theorem map_keyOrder (f : Attribute → Attribute) (same : ∀ attr, (f attr).inKey = attr.inKey)
    (attrs : List Attribute) : (keyOrder attrs).map f = keyOrder (attrs.map f) := by
  have key : (fun attr : Attribute => attr.inKey) ∘ f = fun attr => attr.inKey := funext same
  have other : (fun attr : Attribute => !attr.inKey) ∘ f = fun attr => !attr.inKey :=
    funext fun attr => congrArg not (same attr)
  rw [keyOrder, keyOrder, List.map_append, List.filter_map, List.filter_map, key, other]

section Relabelling

variable {heading other result : Heading} {renames : Renames} {selected : List String}
  {name : String}

namespace Heading.Relabels

theorem renamings_eq (relabels : heading.Relabels renames) : heading.renamings renames =
    renames.entries.map fun entry => (entry.1, .move entry.2) := by
  refine List.map_congr_left fun entry inside => congrArg (Prod.mk entry.1) ?_
  exact classify_of_referable (relabels.referable entry inside).2 (relabels.shown entry inside)

theorem movedSources_eq (relabels : heading.Relabels renames) :
    heading.movedSources renames = renames.entries.map Prod.snd := by
  have moved : (fun entry : String × Renaming => entry.2.moved?) ∘
      (fun entry : String × String => (entry.1, Renaming.move entry.2)) =
        fun entry => some entry.2 := rfl
  rw [movedSources, relabels.renamings_eq, List.filterMap_map, moved, ← List.filterMap_eq_map]
  rfl

/-- A moved attribute goes on under the one name that takes it over. -/
theorem carriedName_of_entry (relabels : heading.Relabels renames) {new old : String}
    (entry : (new, old) ∈ renames.entries) : heading.carriedName renames old = new := by
  have moved : old ∈ heading.movedSources renames := by
    rw [relabels.movedSources_eq]
    exact List.mem_map_of_mem entry
  obtain ⟨taking, listed, moves, named⟩ := exists_carriedName moved
  rw [relabels.renamings_eq] at listed
  obtain ⟨given, inside, rfl⟩ := List.mem_map.1 listed
  injection moves with same
  have one := List.inj_on_of_nodup_map relabels.once inside entry same
  rw [named, one]

theorem carriedName_of_stays (relabels : heading.Relabels renames)
    (stays : name ∉ renames.entries.map Prod.snd) : heading.carriedName renames name = name :=
  carriedName_of_unmoved (relabels.movedSources_eq ▸ stays)

/-- Relabelling shows every attribute once, under the name that it goes on with. -/
theorem columns_images (relabels : heading.Relabels renames) {attr : Attribute}
    (kept : attr.name ∈ selected ↔ attr.name ∉ heading.movedSources renames) :
    (attr.images selected (heading.renamings renames)).map Attribute.asColumn =
      [attr.columnAs (heading.carriedName renames attr.name)] := by
  have source : (fun entry : String × Renaming => decide (entry.2.source? = some attr.name)) ∘
      (fun entry : String × String => (entry.1, Renaming.move entry.2)) =
        fun entry => decide (entry.2 = attr.name) :=
    funext fun entry => decide_eq_decide.2 Option.some_inj
  unfold Attribute.images
  rw [relabels.renamings_eq, List.filter_map, source]
  by_cases moved : attr.name ∈ renames.entries.map Prod.snd
  · obtain ⟨⟨new, old⟩, inside, named⟩ := List.mem_map.1 moved
    have unselected : attr.name ∉ selected := fun selects =>
      kept.1 selects (relabels.movedSources_eq ▸ moved)
    have single := filter_eq_singleton relabels.once inside
    rw [if_neg unselected, ← named, single, relabels.carriedName_of_entry inside]
    rfl
  · have selects : attr.name ∈ selected := kept.2 (relabels.movedSources_eq ▸ moved)
    have none : renames.entries.filter (fun entry => entry.2 = attr.name) = [] := by
      refine List.filter_eq_nil_iff.2 fun entry inside same => moved ?_
      exact of_decide_eq_true same ▸ List.mem_map_of_mem inside
    rw [if_pos selects, none, relabels.carriedName_of_stays moved]
    rfl

/-- A relabelled heading shows the old attributes in their order under their new names. -/
theorem columns_project (relabels : heading.Relabels renames)
    (kept : ∀ name ∈ heading.names, name ∈ selected ↔ name ∉ heading.movedSources renames)
    (built : heading.project selected renames none = .ok result) :
    result.visible.map Attribute.asColumn =
      heading.visible.map fun attr => attr.columnAs (heading.carriedName renames attr.name) := by
  have attributes := attributes_ofAttributes (project_eq_ok.1 built).2
  rw [Option.elim] at attributes
  have visible : result.visible = result.attributes :=
    List.filter_eq_self.2 fun attr inside =>
      (List.mem_filter.1 (visible_of_project built inside)).2
  have computed : ((heading.renamings renames).filterMap fun entry =>
      entry.2.computed? entry.1) = [] := by
    rw [relabels.renamings_eq, List.filterMap_map]
    exact List.filterMap_eq_nil_iff.2 fun _ _ => rfl
  have images : ∀ attr ∈ heading.visible,
      (attr.images selected (heading.renamings renames)).map Attribute.asColumn =
        [attr.columnAs (heading.carriedName renames attr.name)] := fun attr inside =>
    relabels.columns_images (kept attr.name (List.mem_map_of_mem inside))
  rw [visible, attributes, map_keyOrder Attribute.asColumn fun _ => rfl, produced, computed,
    List.append_nil, List.map_flatMap, List.flatMap_congr images, ← List.map_eq_flatMap]
  -- every attribute has one image of the same key status, so the key is in front as before
  exact keyOrder_eq_self (List.pairwise_map.2 (heading.keyFirst.sublist List.filter_sublist))

/-- Relabelling depends on the names of a heading alone. -/
theorem congr (relabels : heading.Relabels renames) (same : other.names = heading.names) :
    other.Relabels renames where
  shown := fun entry inside => same ▸ relabels.shown entry inside
  once := relabels.once
  referable := relabels.referable
  vacated := fun entry inside again => relabels.vacated entry inside (same ▸ again)

/-- The new names can be taken back. -/
theorem inverse (relabels : heading.Relabels renames)
    (named : other.names = heading.names.map (heading.carriedName renames)) :
    other.Relabels (renames.inverse relabels.once) where
  shown := by
    intro _ member
    obtain ⟨⟨new, old⟩, inside, rfl⟩ := List.mem_map.1 member
    rw [named, ← relabels.carriedName_of_entry inside]
    exact List.mem_map_of_mem (relabels.shown _ inside)
  once := by
    rw [Renames.sources_inverse]
    exact renames.nodup
  referable := by
    intro _ member
    obtain ⟨entry, inside, rfl⟩ := List.mem_map.1 member
    exact (relabels.referable entry inside).symm
  vacated := by
    intro _ member again
    obtain ⟨⟨new, old⟩, inside, rfl⟩ := List.mem_map.1 member
    rw [named] at again
    obtain ⟨origin, _, same⟩ := List.mem_map.1 again
    rw [Renames.sources_inverse]
    -- an attribute that has an old name now took it over from the attribute that moved
    by_cases moved : origin ∈ renames.entries.map Prod.snd
    · obtain ⟨⟨taking, _⟩, taken, rfl⟩ := List.mem_map.1 moved
      rw [relabels.carriedName_of_entry taken] at same
      exact same ▸ List.mem_map_of_mem taken
    · rw [relabels.carriedName_of_stays moved] at same
      exact absurd (same ▸ List.mem_map_of_mem inside) moved

/-- Taken back, a name is what it was. -/
theorem carriedName_inverse (relabels : heading.Relabels renames)
    (named : other.names = heading.names.map (heading.carriedName renames))
    (shown : name ∈ heading.names) :
    other.carriedName (renames.inverse relabels.once) (heading.carriedName renames name) =
      name := by
  have inverted := relabels.inverse named
  by_cases moved : name ∈ renames.entries.map Prod.snd
  · obtain ⟨⟨new, _⟩, inside, rfl⟩ := List.mem_map.1 moved
    rw [relabels.carriedName_of_entry inside]
    exact inverted.carriedName_of_entry (List.mem_map_of_mem inside)
  · rw [relabels.carriedName_of_stays moved]
    refine inverted.carriedName_of_stays fun taken => moved ?_
    rw [Renames.sources_inverse] at taken
    obtain ⟨entry, inside, rfl⟩ := List.mem_map.1 taken
    exact relabels.vacated entry inside shown

end Heading.Relabels

theorem Heading.primaryKey_or_secondary (shown : name ∈ heading.names) :
    name ∈ heading.primaryKey ∨ name ∈ heading.secondary := by
  obtain ⟨attr, inside, rfl⟩ := List.mem_map.1 shown
  cases inKey : attr.inKey with
  | true => exact .inl (List.mem_map_of_mem (List.mem_filter.2 ⟨inside, inKey⟩))
  | false => exact .inr (List.mem_map_of_mem (List.mem_filter.2 ⟨inside, by rw [inKey]; rfl⟩))

/-- The three dots alone use no attribute twice. -/
theorem Heading.Relabels.selectable (relabels : heading.Relabels renames) (kept : List String) :
    heading.Selectable [.others] renames kept where
  known := by simp
  once := List.nodup_nil
  unmoved := by simp
  unnamed := by simp
  movedOnce := relabels.movedSources_eq ▸ relabels.once
  unexcluded := by simp

/-- A shown attribute with a new namesake moves. -/
theorem Heading.Relabels.moved_of_new (relabels : heading.Relabels renames)
    (shown : name ∈ heading.names) (new : name ∈ renames.names) :
    name ∈ heading.movedSources renames := by
  obtain ⟨entry, inside, rfl⟩ := List.mem_map.1 new
  exact relabels.movedSources_eq ▸ relabels.vacated entry inside shown

/-- All attributes that do not move stay. -/
theorem Heading.Relabels.stays_iff (relabels : heading.Relabels renames)
    (shown : name ∈ heading.names) :
    heading.Stays [.others] renames heading.primaryKey name ↔
      name ∉ heading.movedSources renames := by
  refine ⟨(relabels.selectable _).unmoved_of_stays, fun unmoved => ?_⟩
  rcases primaryKey_or_secondary shown with key | other
  · exact .inl ⟨key, unmoved⟩
  · exact .inr (.inr ⟨List.mem_cons_self, other, unmoved,
      fun new => unmoved (relabels.moved_of_new shown new), by simp⟩)

end Relabelling

section Expressions

variable {e result : Expression} {renames : Renames}

theorem Expression.projectable_of_relabels (relabels : e.heading.Relabels renames) :
    e.Projectable [.others] renames true where
  selectable := relabels.selectable _
  fresh := fun _ kept new => relabels.moved_of_new (names_of_keptKey kept) new

/-- The source of a projection has the columns of the expression. -/
theorem Expression.columns_projectedSource (e : Expression) (selected : List String)
    (renames : Renames) (keepKey : Bool) :
    (e.projectedSource selected renames keepKey).heading.visible.map Attribute.asColumn =
      e.heading.visible.map Attribute.asColumn := by
  rcases e.projectedSource_cases selected renames keepKey with wrapped | ⟨direct, _⟩
  · rw [wrapped]
    exact e.heading.showsAlike_asColumns.columns
  · rw [direct]

/-- A relabelling succeeds and shows the old attributes in their order under their new names. -/
theorem Expression.exists_relabelled (relabels : e.heading.Relabels renames) :
    ∃ result, e.projectItems [.others] renames true = .ok result ∧
      result.heading.visible.map Attribute.asColumn =
        e.heading.visible.map fun attr =>
          attr.columnAs (e.heading.carriedName renames attr.name) := by
  obtain ⟨result, built⟩ := exists_projectItems_iff.2 (projectable_of_relabels relabels)
  obtain ⟨selection, projects⟩ := projectItems_ok built
  refine ⟨result, built, ?_⟩
  have names := e.names_projectedSource selection.selected renames true
  have renamed := e.renamings_projectedSource selection.selected renames true
  have columns := e.columns_projectedSource selection.selected renames true
  have project := projects.project
  generalize (e.projectedSource selection.selected renames true).heading = source at *
  have kept : ∀ name ∈ source.names,
      name ∈ selection.selected ↔ name ∉ source.movedSources renames := by
    intro name shown
    rw [names] at shown
    rw [Heading.mem_selected projects.chosen, Heading.movedSources, renamed]
    exact relabels.stays_iff shown
  have carried : source.carriedName renames = e.heading.carriedName renames := by
    unfold Heading.carriedName
    rw [renamed]
  rw [(relabels.congr names).columns_project kept project, carried]
  rw [map_columnAs, columns, ← map_columnAs]

/-- Relabelled attributes get their names back. The second renaming shows every attribute where
it was, with its name, key, domain, nullability and lineage. -/
theorem Expression.relabelling_taken_back (relabels : e.heading.Relabels renames) :
    ∃ forward back, e.projectItems [.others] renames true = .ok forward ∧
      forward.heading.names = e.heading.names.map (e.heading.carriedName renames) ∧
      forward.projectItems [.others] (renames.inverse relabels.once) true = .ok back ∧
      back.heading.visible.map Attribute.asColumn =
        e.heading.visible.map Attribute.asColumn := by
  obtain ⟨forward, built, columns⟩ := exists_relabelled relabels
  have names : forward.heading.names = e.heading.names.map (e.heading.carriedName renames) := by
    have named := congrArg (List.map Attribute.name) columns
    rw [List.map_map, List.map_map] at named
    rw [Heading.names, Heading.names, List.map_map]
    exact named
  obtain ⟨back, undone, restored⟩ := exists_relabelled (relabels.inverse names)
  refine ⟨forward, back, built, names, undone, ?_⟩
  rw [restored, map_columnAs, columns, List.map_map]
  refine List.map_congr_left fun attr inside => ?_
  exact congrArg attr.columnAs
    (relabels.carriedName_inverse names (List.mem_map_of_mem inside))

/-- The attributes of the subjects pass their names around. -/
def cycledNames : Renames :=
  Renames.ofList [("species", "subject_id"), ("subject_id", "sex"), ("sex", "species")]

/-- The key of the subjects takes a name from outside the key, and all names are taken back. -/
theorem Expression.relabelling_taken_back_of_cycle :
    ∃ (subjects : Expression) (relabels : subjects.heading.Relabels cycledNames)
        (forward back : Expression), Reachable (· = laboratory) subjects ∧
      subjects.projectItems [.others] cycledNames true = .ok forward ∧
      forward.heading.names = ["species", "sex", "subject_id"] ∧
      forward.projectItems [.others] (cycledNames.inverse relabels.once) true = .ok back ∧
      back.heading.visible.map Attribute.asColumn =
        subjects.heading.visible.map Attribute.asColumn := by
  obtain ⟨subjects, reached, relabels, cycled⟩ :
      ∃ subjects : Expression, Reachable (· = laboratory) subjects ∧
        subjects.heading.Relabels cycledNames ∧
        subjects.heading.names.map (subjects.heading.carriedName cycledNames) =
          ["species", "sex", "subject_id"] := by
    have subjects := @Reachable.table (· = laboratory) laboratory subjectDeclaration _ rfl rfl
    exact ⟨_, subjects, ⟨by decide +kernel, by decide +kernel, by decide +kernel,
      by decide +kernel⟩, by decide +kernel⟩
  obtain ⟨forward, back, built, names, undone, restored⟩ := relabelling_taken_back relabels
  exact ⟨subjects, relabels, forward, back, reached, built, names.trans cycled, undone, restored⟩

end Expressions

end QueryAlgebra
