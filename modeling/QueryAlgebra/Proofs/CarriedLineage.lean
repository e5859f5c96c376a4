/-
This file shows what joins, projections and keys do to the lineage of attributes.
A joined heading takes each attribute from one side, and a projection passes lineage on.
-/
import QueryAlgebra.Proofs.ProjectedHeading

namespace QueryAlgebra

/-- A heading shows an attribute of this name and lineage. -/
def Heading.Carries (heading : Heading) (name : String) (lineage : Option String) : Prop :=
  ∃ attr ∈ heading.visible, attr.name = name ∧ attr.lineage = lineage

section Carrying

variable {heading : Heading} {name : String} {lineage : Option String}

theorem Heading.carries_of_visible {attr : Attribute} (inside : attr ∈ heading.visible) :
    heading.Carries attr.name attr.lineage :=
  ⟨attr, inside, rfl, rfl⟩

theorem Heading.carries_iff {attr : Attribute} (inside : attr ∈ heading.visible) :
    heading.Carries attr.name lineage ↔ attr.lineage = lineage := by
  constructor
  · rintro ⟨other, member, named, same⟩
    rw [← same, eq_of_name (mem_visible.1 member).1 (mem_visible.1 inside).1 named]
  · intro same
    exact same ▸ carries_of_visible inside

theorem Heading.Carries.shown (carries : heading.Carries name lineage) : name ∈ heading.names := by
  obtain ⟨attr, inside, named, _⟩ := carries
  exact mem_names.2 ⟨attr, inside, named⟩

@[simp] theorem Heading.carries_asColumns :
    heading.asColumns.visiblePart.Carries name lineage ↔ heading.Carries name lineage := by
  unfold Carries
  rw [visible_visiblePart, visible_asColumns]
  constructor
  · rintro ⟨_, inside, named, same⟩
    obtain ⟨attr, visible, rfl⟩ := List.mem_map.1 inside
    exact ⟨attr, visible, named, same⟩
  · rintro ⟨attr, visible, named, same⟩
    exact ⟨attr.asColumn, List.mem_map_of_mem visible, named, same⟩

/-- Another key leaves the lineage. -/
theorem Heading.carries_rekey {keyed : Heading} {key : List String}
    (built : heading.rekey key = .ok keyed) :
    keyed.Carries name lineage ↔ heading.Carries name lineage := by
  constructor
  · rintro ⟨attr, inside, named, same⟩
    obtain ⟨origin, visible, rfl⟩ := (mem_visible_rekey built).1 inside
    exact ⟨origin, visible, named, same⟩
  · rintro ⟨origin, visible, named, same⟩
    exact ⟨_, (mem_visible_rekey built).2 ⟨origin, visible, rfl⟩, named, same⟩

end Carrying

/-- The second of two joined headings lends a name that it shows alone or has in the key alone. -/
def Heading.LendsSecond (first second : Heading) (key : List String) (name : String) : Prop :=
  name ∉ first.names ∨ name ∈ key ∧ name ∉ first.primaryKey ∧ name ∈ second.primaryKey

section Lending

variable {first second result : Heading} {key : List String} {name : String}

theorem Heading.primaryKey_of_visible {heading : Heading} {attr : Attribute}
    (inside : attr ∈ heading.visible) :
    attr.name ∈ heading.primaryKey ↔ attr.inKey = true := by
  rw [mem_primaryKey]
  constructor
  · rintro ⟨other, member, inKey, named⟩
    rwa [← eq_of_name member (mem_visible.1 inside).1 named]
  · intro inKey
    exact ⟨attr, (mem_visible.1 inside).1, inKey, rfl⟩

theorem Heading.get?_of_shown {heading : Heading} {name : String} (shown : name ∈ heading.names) :
    ∃ attr, heading.get? name = some attr :=
  Option.isSome_iff_exists.1 ((heading.contains_iff name).2 shown)

theorem Heading.filter_get?_of_key {heading : Heading} {name : String}
    (inKey : name ∈ heading.primaryKey) :
    (heading.get? name).filter (·.inKey) = heading.get? name := by
  obtain ⟨attr, found⟩ := get?_of_shown (names_of_primaryKey inKey)
  obtain ⟨inside, rfl⟩ := get?_eq_some.1 found
  rw [found, Option.filter_eq_some_iff]
  exact ⟨rfl, (primaryKey_of_visible inside).1 inKey⟩

theorem Heading.filter_get?_of_other {heading : Heading} {name : String}
    (outside : name ∉ heading.primaryKey) :
    (heading.get? name).filter (·.inKey) = none := by
  rw [Option.filter_eq_none_iff]
  intro attr found inKey
  obtain ⟨inside, rfl⟩ := get?_eq_some.1 found
  exact outside ((primaryKey_of_visible inside).2 inKey)

/-- A key attribute of a join is that of the heading which lends its name. -/
theorem Heading.lender_of_keySource (inKey : name ∈ key) {attr : Attribute}
    (found : first.keySource? second name = some attr) :
    (first.LendsSecond second key name ∧ second.get? name = some attr) ∨
      (¬ first.LendsSecond second key name ∧ first.get? name = some attr) := by
  unfold keySource? at found
  unfold LendsSecond
  by_cases firstKey : name ∈ first.primaryKey
  · have shown := names_of_primaryKey firstKey
    obtain ⟨origin, there⟩ := get?_of_shown shown
    rw [filter_get?_of_key firstKey, there] at found
    exact .inr ⟨by simp [shown, firstKey], there.trans found⟩
  · rw [filter_get?_of_other firstKey] at found
    by_cases secondKey : name ∈ second.primaryKey
    · obtain ⟨origin, there⟩ := get?_of_shown (names_of_primaryKey secondKey)
      rw [filter_get?_of_key secondKey, there] at found
      exact .inl ⟨.inr ⟨inKey, firstKey, secondKey⟩, there.trans found⟩
    · rw [filter_get?_of_other secondKey] at found
      by_cases shown : name ∈ first.names
      · obtain ⟨origin, there⟩ := get?_of_shown shown
        rw [there] at found
        exact .inr ⟨by simp [shown, secondKey], there.trans found⟩
      · rw [get?_eq_none.2 shown] at found
        exact .inl ⟨.inl shown, found⟩

/-- Each attribute that a join shows has the lineage of the attribute that lends its name. -/
theorem Heading.carries_of_join (built : first.join second key = .ok result) {attr : Attribute}
    (inside : attr ∈ result.visible) :
    (first.LendsSecond second key attr.name ∧ second.Carries attr.name attr.lineage) ∨
      (¬ first.LendsSecond second key attr.name ∧ first.Carries attr.name attr.lineage) := by
  obtain ⟨member, exposed⟩ := mem_visible.1 inside
  unfold Heading.join at built
  obtain ⟨keyed, translated, built⟩ := bind_eq_ok.1 built
  rw [attributes_ofAttributes (mapError_eq_ok.1 built), mem_keyOrder, List.mem_append,
    mem_of_mapM translated] at member
  rcases member with ⟨name, inKey, taken⟩ | other
  · cases found : first.keySource? second name with
    | none => simp [found] at taken
    | some origin =>
        simp only [found, Except.ok.injEq] at taken
        subst taken
        obtain rfl := (keySource?_eq_some found).2
        refine (lender_of_keySource inKey found).imp ?_ ?_
        · exact fun lent => ⟨lent.1, origin, (get?_eq_some.1 lent.2).1, rfl, rfl⟩
        · exact fun lent => ⟨lent.1, origin, (get?_eq_some.1 lent.2).1, rfl, rfl⟩
  · obtain ⟨origin, source, rfl⟩ := List.mem_map.1 other
    rw [List.mem_append, List.mem_filter, List.mem_filter] at source
    rcases source with ⟨left, outside⟩ | ⟨right, outside⟩
    · have visible : origin ∈ first.visible := mem_visible.2 ⟨left, exposed⟩
      have shown := mem_names.2 ⟨origin, visible, rfl⟩
      have open' : origin.name ∉ key := by simpa using outside
      exact .inr ⟨by simp [LendsSecond, shown, open'], origin, visible, rfl, rfl⟩
    · have visible : origin ∈ second.visible := mem_visible.2 ⟨right, exposed⟩
      have hidden : origin.name ∉ first.allNames := by
        simpa using (Bool.and_eq_true_iff.1 outside).2
      exact .inl ⟨.inl fun shown => hidden (allNames_of_names shown), origin, visible, rfl, rfl⟩

end Lending

/-- A heading shows attributes of another one under their own names and new names for what
the other one shows or for computed values. -/
structure Heading.PassesTo (source result : Heading) (renames : Renames) : Prop where
  kept : ∀ attr ∈ result.visible, attr.expression = none →
    source.Carries attr.name attr.lineage
  given : ∀ name value, (name, value) ∈ renames.entries → ∃ lineage,
    result.Carries name lineage ∧
      match (source.classify value).source? with
      | some old => source.Carries old lineage
      | none => lineage = none

section Passing

variable {heading result : Heading} {selected : List String} {renames : Renames}

theorem Heading.Reshapes.kept_lineage (reshapes : heading.Reshapes selected renames result)
    {attr : Attribute} (inside : attr ∈ result.visible) (plain : attr.expression = none) :
    heading.Carries attr.name attr.lineage := by
  obtain ⟨inKey, members⟩ := reshapes
  obtain ⟨shown, ⟨origin, member, image⟩ | ⟨entry, _, computed⟩, rfl⟩ :=
    (members attr).1 (mem_visible.1 inside).1
  · rcases Attribute.mem_images.1 image with ⟨_, rfl⟩ | ⟨entry, _, _, rfl⟩
    · exact ⟨shown, member, rfl, rfl⟩
    · contradiction
  · obtain ⟨expression, _, rfl⟩ := Renaming.computed?_eq_some.1 computed
    contradiction

theorem Heading.Reshapes.given_lineage (reshapes : heading.Reshapes selected renames result)
    {name value : String} (entry : (name, value) ∈ renames.entries) :
    ∃ lineage, result.Carries name lineage ∧
      match (heading.classify value).source? with
      | some old => heading.Carries old lineage
      | none => lineage = none := by
  have listed : (name, heading.classify value) ∈ heading.renamings renames :=
    List.mem_map.2 ⟨_, entry, rfl⟩
  have shown : ∀ produced, heading.Produces selected renames produced →
      result.Carries produced.name produced.lineage := by
    intro produced source
    obtain ⟨inKey, members⟩ := reshapes
    have inside := (members _).2 ⟨produced, source, rfl⟩
    exact ⟨_, visible ⟨inKey, members⟩ inside, rfl, rfl⟩
  cases meaning : heading.classify value with
  | compute expression =>
      refine ⟨none, shown (.computed name expression) (.inr ⟨_, listed, ?_⟩), rfl⟩
      rw [meaning]
      rfl
  | move source | copy source =>
      have moved : (heading.classify value).source? = some source := by rw [meaning]; rfl
      obtain ⟨attr, member, rfl⟩ := mem_names.1 (source_of_classify moved)
      have image : attr.renamed name ∈ attr.images selected (heading.renamings renames) :=
        Attribute.mem_images.2 (.inr ⟨_, listed, moved, rfl⟩)
      exact ⟨attr.lineage, shown (attr.renamed name) (.inl ⟨attr, member, image⟩),
        carries_of_visible member⟩

theorem Heading.Reshapes.passesTo (reshapes : heading.Reshapes selected renames result) :
    heading.PassesTo result renames where
  kept := fun _ inside plain => reshapes.kept_lineage inside plain
  given := fun _ _ entry => reshapes.given_lineage entry

theorem Heading.PassesTo.of_rekey {keyed : Heading} {key : List String}
    (rekeyed : heading.rekey key = .ok keyed) (passes : keyed.PassesTo result renames) :
    heading.PassesTo result renames where
  kept := fun attr inside plain => (carries_rekey rekeyed).1 (passes.kept attr inside plain)
  given := by
    intro name value entry
    obtain ⟨lineage, carries, source⟩ := passes.given name value entry
    refine ⟨lineage, carries, ?_⟩
    rw [classify_congr (mem_names_rekey rekeyed) value] at source
    cases moved : (heading.classify value).source? with
    | none => simpa [moved] using source
    | some old =>
        rw [moved] at source
        exact (carries_rekey rekeyed).1 source

end Passing

/-- An attribute without lineage passes no comparison with a namesake. -/
theorem Heading.homologous_ne_ok {first second : Heading} {attr : Attribute}
    (inside : attr ∈ first.visible) (unknown : attr.lineage = none)
    (shared : attr.name ∈ second.names) :
    first.homologous second ≠ .ok () ∧ second.homologous first ≠ .ok () := by
  obtain ⟨other, member, named⟩ := mem_names.1 shared
  constructor
  · intro passed
    have same := homologous_eq_ok.1 passed attr inside other (get?_eq_some.2 ⟨member, named⟩)
    rw [Attribute.Homologous, unknown] at same
    exact Bool.false_ne_true same.2.1
  · intro passed
    have same := homologous_eq_ok.1 passed other member attr (get?_eq_some.2 ⟨inside, named.symm⟩)
    rw [Attribute.Homologous, unknown] at same
    rw [same.2.2] at same
    exact Bool.false_ne_true same.2.1

end QueryAlgebra
