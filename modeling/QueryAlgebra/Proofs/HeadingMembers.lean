/-
This file describes the attributes of a heading that selects, renames, rekeys or joins others.
-/
import Mathlib.Data.List.Forall2
import Mathlib.Data.List.Nodup
import Mathlib.Tactic.Tauto
import QueryAlgebra.Expression
import QueryAlgebra.Heading.Joined
import QueryAlgebra.Heading.Selection

namespace QueryAlgebra

/-- A chain succeeds exactly when both of its steps do. -/
theorem bind_eq_ok {ε α β : Type} {first : Except ε α} {next : α → Except ε β} {result : β} :
    (first >>= next) = .ok result ↔ ∃ value, first = .ok value ∧ next value = .ok result := by
  cases first <;> simp [bind, Except.bind]

theorem bind_eq_error {ε α β : Type} {first : Except ε α} {next : α → Except ε β} {fault : ε} :
    (first >>= next) = .error fault ↔
      first = .error fault ∨ ∃ value, first = .ok value ∧ next value = .error fault := by
  cases first <;> simp [bind, Except.bind]

theorem isOk_iff {ε α : Type} {result : Except ε α} :
    result.isOk = true ↔ ∃ value, result = .ok value := by
  cases result <;> simp [Except.isOk, Except.toBool]

theorem mapError_eq_ok {ε ε' α : Type} {first : Except ε α} {f : ε → ε'} {result : α} :
    first.mapError f = .ok result ↔ first = .ok result := by
  cases first <;> simp [Except.mapError]

theorem map_eq_ok {ε α β : Type} {first : Except ε α} {f : α → β} {result : β} :
    first.map f = .ok result ↔ ∃ value, first = .ok value ∧ f value = result := by
  cases first <;> simp [Except.map]

theorem map_mapError {ε ε' α β : Type} (result : Except ε α) (f : ε → ε') (g : α → β) :
    (result.mapError f).map g = (result.map g).mapError f := by
  cases result <;> rfl

@[simp] theorem mem_keyOrder {attrs : List Attribute} {attr : Attribute} :
    attr ∈ keyOrder attrs ↔ attr ∈ attrs := by
  cases key : attr.inKey <;> simp [keyOrder, key]

/-- A list of attributes that forms a heading is only reordered. -/
theorem Heading.attributes_ofAttributes {attrs : List Attribute} {heading : Heading}
    (built : Heading.ofAttributes? attrs = .ok heading) : heading.attributes = keyOrder attrs := by
  unfold Heading.ofAttributes? at built
  split at built
  · contradiction
  · injection built with built
    rw [← built]

theorem Heading.mem_visible {heading : Heading} {attr : Attribute} :
    attr ∈ heading.visible ↔ attr ∈ heading.attributes ∧ attr.hidden = false := by
  simp [Heading.visible]

theorem Heading.mem_names {heading : Heading} {name : String} :
    name ∈ heading.names ↔ ∃ attr ∈ heading.visible, attr.name = name := by
  simp [Heading.names]

theorem Heading.mem_allNames {heading : Heading} {name : String} :
    name ∈ heading.allNames ↔ ∃ attr ∈ heading.attributes, attr.name = name := by
  simp [Heading.allNames]

theorem Heading.allNames_of_names {heading : Heading} {name : String}
    (shown : name ∈ heading.names) : name ∈ heading.allNames := by
  obtain ⟨attr, inside, same⟩ := mem_names.1 shown
  exact mem_allNames.2 ⟨attr, (mem_visible.1 inside).1, same⟩

theorem Heading.mem_derived {heading : Heading} {name : String} :
    name ∈ heading.derived ↔ ∃ attr ∈ heading.visible, attr.derived ∧ attr.name = name := by
  simp [Heading.derived, and_assoc]

theorem Heading.names_of_derived {heading : Heading} {name : String}
    (derived : name ∈ heading.derived) : name ∈ heading.names := by
  obtain ⟨attr, visible, _, same⟩ := mem_derived.1 derived
  exact mem_names.2 ⟨attr, visible, same⟩

theorem Heading.mem_primaryKey {heading : Heading} {name : String} :
    name ∈ heading.primaryKey ↔ ∃ attr ∈ heading.attributes, attr.inKey = true ∧
      attr.name = name := by
  simp only [primaryKey, List.mem_map, List.mem_filter, mem_visible]
  constructor
  · rintro ⟨attr, ⟨⟨inside, _⟩, key⟩, same⟩
    exact ⟨attr, inside, key, same⟩
  · rintro ⟨attr, inside, key, same⟩
    exact ⟨attr, ⟨⟨inside, heading.visibleKey attr inside key⟩, key⟩, same⟩

theorem Heading.names_of_primaryKey {heading : Heading} {name : String}
    (key : name ∈ heading.primaryKey) : name ∈ heading.names := by
  obtain ⟨attr, inside, inKey, same⟩ := mem_primaryKey.1 key
  exact mem_names.2 ⟨attr, mem_visible.2 ⟨inside, heading.visibleKey attr inside inKey⟩, same⟩

/-- Two attributes of one heading that have the same name are the same. -/
theorem Heading.eq_of_name {heading : Heading} {first second : Attribute}
    (inside : first ∈ heading.attributes) (member : second ∈ heading.attributes)
    (same : first.name = second.name) : first = second :=
  List.inj_on_of_nodup_map heading.nodup inside member same

/-- Among attributes with different names a search finds the one of the name. -/
theorem find?_name_eq_some {attrs : List Attribute} (apart : (attrs.map Attribute.name).Nodup)
    {name : String} {attr : Attribute} :
    attrs.find? (·.name = name) = some attr ↔ attr ∈ attrs ∧ attr.name = name := by
  constructor
  · intro found
    have same := List.find?_some found
    exact ⟨List.mem_of_find?_eq_some found, by simpa using same⟩
  · rintro ⟨inside, rfl⟩
    cases found : attrs.find? (·.name = attr.name) with
    | none =>
        have missed := List.find?_eq_none.1 found attr inside
        simp at missed
    | some other =>
        have same : other.name = attr.name := by simpa using List.find?_some found
        rw [List.inj_on_of_nodup_map apart (List.mem_of_find?_eq_some found) inside same]

/-- The names of a heading are different. -/
theorem Heading.nodup_names (heading : Heading) : heading.names.Nodup :=
  heading.nodup.sublist (List.filter_sublist.map _)

theorem Heading.get?_eq_some {heading : Heading} {name : String} {attr : Attribute} :
    heading.get? name = some attr ↔ attr ∈ heading.visible ∧ attr.name = name :=
  find?_name_eq_some heading.nodup_names

theorem Heading.get?_eq_none {heading : Heading} {name : String} :
    heading.get? name = none ↔ name ∉ heading.names := by
  rw [← heading.contains_iff name, Heading.contains]
  cases heading.get? name <;> simp

theorem Heading.not_mem_names {heading : Heading} {name : String} :
    (!heading.contains name) = true ↔ name ∉ heading.names := by
  rw [← heading.contains_iff name]
  simp

/-- A search for an unknown name finds none if all names are shown. -/
theorem Heading.find?_unknown {heading : Heading} {names : List String} :
    names.find? (!heading.contains ·) = none ↔ ∀ name ∈ names, name ∈ heading.names := by
  rw [List.find?_eq_none]
  exact forall₂_congr fun name _ => by rw [not_mem_names, not_not]

/-- What is done with known names is done only if all of them are shown. -/
theorem Heading.known_eq_ok {heading : Heading} {names : List String} {α : Type}
    {next : Except Fault α} {result : α} :
    (match names.find? (!heading.contains ·) with
      | some missing => Except.error (Fault.unknownAttribute missing)
      | none => next) = .ok result ↔
      (∀ name ∈ names, name ∈ heading.names) ∧ next = .ok result := by
  rw [← find?_unknown]
  cases names.find? (!heading.contains ·) <;> simp

/-- A heading without derived attributes has no visible attribute with an expression. -/
theorem Heading.hasDerived_eq_false {heading : Heading} :
    heading.hasDerived = false ↔ ∀ attr ∈ heading.visible, attr.expression = none := by
  simp [Heading.hasDerived, Attribute.derived]

theorem Heading.not_mem_derived {heading : Heading} (columns : heading.hasDerived = false)
    (name : String) : name ∉ heading.derived := by
  intro inside
  obtain ⟨attr, visible, derived, _⟩ := mem_derived.1 inside
  rw [Attribute.derived, hasDerived_eq_false.1 columns attr visible] at derived
  contradiction

/-- Only the expressions of the visible attributes get lost in a subquery. -/
theorem Heading.visible_asColumns (heading : Heading) :
    heading.asColumns.visiblePart.attributes = heading.visible.map Attribute.asColumn := by
  have unchanged : ((fun attr : Attribute => !attr.hidden) ∘ Attribute.asColumn) =
      fun attr => !attr.hidden := rfl
  simp only [visiblePart, visible, asColumns, List.filter_map, unchanged]

theorem Heading.visible_visiblePart (heading : Heading) :
    heading.visiblePart.visible = heading.visiblePart.attributes := by
  simp [visiblePart, visible]

@[simp] theorem Heading.names_asColumns (heading : Heading) :
    heading.asColumns.visiblePart.names = heading.names := by
  rw [names, visible_visiblePart, visible_asColumns, List.map_map, names]
  rfl

@[simp] theorem Heading.allNames_asColumns (heading : Heading) :
    heading.asColumns.visiblePart.allNames = heading.names := by
  rw [allNames, visible_asColumns, List.map_map, names]
  rfl

theorem Heading.primaryKey_asColumns (heading : Heading) :
    heading.asColumns.visiblePart.primaryKey = heading.primaryKey := by
  have unchanged : ((fun attr : Attribute => attr.inKey) ∘ Attribute.asColumn) =
      fun attr => attr.inKey := rfl
  rw [primaryKey, visible_visiblePart, visible_asColumns, List.filter_map, List.map_map,
    unchanged]
  rfl

theorem Heading.hasDerived_asColumns (heading : Heading) :
    heading.asColumns.visiblePart.hasDerived = false := by
  rw [hasDerived_eq_false, visible_visiblePart, visible_asColumns]
  intro attr inside
  obtain ⟨origin, _, rfl⟩ := List.mem_map.1 inside
  rfl

/-- A projection shows an attribute under its own name, under a new name or not at all. -/
theorem Attribute.mem_images {origin attr : Attribute} {selected : List String}
    {renamings : List (String × Renaming)} :
    attr ∈ origin.images selected renamings ↔ (origin.name ∈ selected ∧ attr = origin) ∨
      ∃ entry ∈ renamings, entry.2.source? = some origin.name ∧ attr = origin.renamed entry.1 := by
  rw [Attribute.images, List.mem_append]
  apply or_congr
  · split <;> simp_all
  · simp only [List.mem_map, List.mem_filter, decide_eq_true_eq, and_assoc, eq_comm (b := attr)]

/-- What a projection shows, before the attributes of the key move to the front. -/
def Heading.produced (heading : Heading) (selected : List String) (renames : Renames) :
    List Attribute :=
  heading.visible.flatMap (·.images selected (heading.renamings renames)) ++
    (heading.renamings renames).filterMap fun entry => entry.2.computed? entry.1

theorem Heading.project_eq_ok {heading result : Heading} {selected : List String}
    {renames : Renames} {key : Option (List String)} :
    heading.project selected renames key = .ok result ↔
      (∀ name ∈ selected, name ∈ heading.names) ∧
        Heading.ofAttributes? (key.elim (heading.produced selected renames)
          (forceKey · (heading.produced selected renames))) = .ok result :=
  known_eq_ok.trans (and_congr_right fun _ => mapError_eq_ok)

/-- What a projection shows comes from one visible attribute or is computed. -/
theorem Heading.mem_project {heading result : Heading} {selected : List String}
    {renames : Renames} (built : heading.project selected renames none = .ok result)
    {attr : Attribute} :
    attr ∈ result.attributes ↔
      (∃ origin ∈ heading.visible, attr ∈ origin.images selected (heading.renamings renames)) ∨
        ∃ entry ∈ heading.renamings renames, entry.2.computed? entry.1 = some attr := by
  rw [attributes_ofAttributes (project_eq_ok.1 built).2, mem_keyOrder, Option.elim, produced]
  simp [List.mem_append, List.mem_flatMap, List.mem_filterMap]

/-- A forced key moves attributes in and out of the key and loses none. -/
theorem mem_forceKey {key : List String} {attrs : List Attribute} {attr : Attribute} :
    attr ∈ forceKey key attrs ↔
      ∃ shown ∈ attrs, attr = { shown with inKey := key.contains shown.name } := by
  unfold forceKey
  simp only [List.mem_append, List.mem_flatMap, List.mem_filter, List.mem_map,
    List.mem_eraseDups, decide_eq_true_eq]
  constructor
  · rintro (⟨_, _, ⟨shown, inside, same⟩, _⟩ | ⟨⟨shown, inside, same⟩, _⟩)
    · exact ⟨shown, inside, same.symm⟩
    · exact ⟨shown, inside, same.symm⟩
  · rintro ⟨shown, inside, rfl⟩
    by_cases member : shown.name ∈ key
    · exact .inl ⟨shown.name, member, ⟨shown, inside, rfl⟩, rfl⟩
    · exact .inr ⟨⟨shown, inside, rfl⟩, by simp [member]⟩

/-- Every selected name is a visible attribute of the projected heading. -/
theorem Heading.selected_of_project {heading result : Heading} {selected : List String}
    {renames : Renames} {key : Option (List String)}
    (built : heading.project selected renames key = .ok result) {name : String}
    (inside : name ∈ selected) : name ∈ heading.names :=
  (project_eq_ok.1 built).1 name inside

theorem Renaming.computed?_eq_some {name : String} {meaning : Renaming} {attr : Attribute} :
    meaning.computed? name = some attr ↔
      ∃ expression, meaning = .compute expression ∧ attr = Attribute.computed name expression := by
  cases meaning <;> simp [Renaming.computed?, eq_comm]

/-- Nothing that a projection shows is hidden. -/
theorem Heading.visible_of_produced {heading : Heading} {selected : List String}
    {renames : Renames} {attr : Attribute} (inside : attr ∈ heading.produced selected renames) :
    attr.hidden = false := by
  rcases List.mem_append.1 inside with image | computed
  · obtain ⟨origin, visible, member⟩ := List.mem_flatMap.1 image
    have shown := (mem_visible.1 visible).2
    rcases Attribute.mem_images.1 member with ⟨_, rfl⟩ | ⟨entry, _, _, rfl⟩
    · exact shown
    · exact shown
  · obtain ⟨entry, _, meaning⟩ := List.mem_filterMap.1 computed
    obtain ⟨expression, _, rfl⟩ := Renaming.computed?_eq_some.1 meaning
    rfl

theorem Heading.visible_of_project {heading result : Heading} {selected : List String}
    {renames : Renames} (built : heading.project selected renames none = .ok result)
    {attr : Attribute} (inside : attr ∈ result.attributes) : attr ∈ result.visible := by
  have produced : attr ∈ heading.produced selected renames := by
    rwa [attributes_ofAttributes (project_eq_ok.1 built).2, mem_keyOrder] at inside
  exact mem_visible.2 ⟨inside, visible_of_produced produced⟩

/-- A heading with another key lists the key first and keeps the order of all others. -/
theorem Heading.rekey_eq_ok {heading result : Heading} {key : List String} :
    heading.rekey key = .ok result ↔
      (∀ name ∈ key, name ∈ heading.names) ∧
        Heading.ofAttributes? ((key.filterMap heading.get?).map (fun attr =>
            { attr with inKey := true }) ++
          (heading.attributes.filter (!key.contains ·.name)).map fun attr =>
            { attr with inKey := false }) = .ok result :=
  known_eq_ok.trans (and_congr_right fun _ => mapError_eq_ok)

/-- A new key moves attributes in and out of the key and changes nothing else. -/
theorem Heading.mem_rekey {heading result : Heading} {key : List String}
    (built : heading.rekey key = .ok result) {attr : Attribute} :
    attr ∈ result.attributes ↔
      ∃ origin ∈ heading.attributes, attr = { origin with inKey := key.contains origin.name } := by
  obtain ⟨present, built⟩ := rekey_eq_ok.1 built
  rw [attributes_ofAttributes built, mem_keyOrder, List.mem_append]
  constructor
  · rintro (keyed | other)
    · obtain ⟨origin, inside, rfl⟩ := List.mem_map.1 keyed
      obtain ⟨name, member, found⟩ := List.mem_filterMap.1 inside
      obtain ⟨visible, same⟩ := get?_eq_some.1 found
      exact ⟨origin, (mem_visible.1 visible).1, by simp [same, member]⟩
    · obtain ⟨origin, inside, rfl⟩ := List.mem_map.1 other
      obtain ⟨member, outside⟩ := List.mem_filter.1 inside
      exact ⟨origin, member, by simp_all⟩
  · rintro ⟨origin, inside, rfl⟩
    by_cases member : origin.name ∈ key
    · left
      obtain ⟨other, visible, same⟩ := mem_names.1 (present origin.name member)
      obtain rfl := eq_of_name (mem_visible.1 visible).1 inside same
      have found : heading.get? other.name = some other := get?_eq_some.2 ⟨visible, rfl⟩
      have taken := List.mem_filterMap.2 ⟨other.name, member, found⟩
      exact List.mem_map.2 ⟨other, taken, by simp [member]⟩
    · right
      have kept : origin ∈ heading.attributes.filter (!key.contains ·.name) :=
        List.mem_filter.2 ⟨inside, by simp [member]⟩
      exact List.mem_map.2 ⟨origin, kept, by simp [member]⟩

/-- A new key shows and hides nothing. -/
theorem Heading.mem_visible_rekey {heading result : Heading} {key : List String}
    (built : heading.rekey key = .ok result) {attr : Attribute} :
    attr ∈ result.visible ↔
      ∃ origin ∈ heading.visible, attr = { origin with inKey := key.contains origin.name } := by
  simp only [mem_visible, mem_rekey built]
  constructor
  · rintro ⟨⟨origin, inside, rfl⟩, shown⟩
    exact ⟨origin, ⟨inside, shown⟩, rfl⟩
  · rintro ⟨origin, ⟨inside, shown⟩, rfl⟩
    exact ⟨⟨origin, inside, rfl⟩, shown⟩

theorem Heading.mem_names_rekey {heading result : Heading} {key : List String}
    (built : heading.rekey key = .ok result) (name : String) :
    name ∈ result.names ↔ name ∈ heading.names := by
  simp only [mem_names, mem_visible_rekey built]
  constructor
  · rintro ⟨_, ⟨origin, inside, rfl⟩, rfl⟩
    exact ⟨origin, inside, rfl⟩
  · rintro ⟨origin, inside, rfl⟩
    exact ⟨_, ⟨origin, inside, rfl⟩, rfl⟩

/-- What every step of a list of steps preserves holds in the end. -/
theorem invariant_of_foldlM {ε α β : Type} {step : β → α → Except ε β} (holds : β → Prop)
    {entries : List α} {start result : β} (built : entries.foldlM step start = .ok result)
    (initial : holds start)
    (preserved : ∀ before after, ∀ entry ∈ entries, step before entry = .ok after →
      holds before → holds after) : holds result := by
  induction entries generalizing start with
  | nil =>
      injection built with same
      exact same ▸ initial
  | cons entry rest ih =>
      rw [List.foldlM_cons] at built
      obtain ⟨between, first, others⟩ := bind_eq_ok.1 built
      refine ih others (preserved start between entry List.mem_cons_self first initial) ?_
      exact fun before after other inside =>
        preserved before after other (List.mem_cons_of_mem entry inside)

/-- The results of a translated list are those of its entries. -/
theorem mem_of_mapM {ε α β : Type} {f : α → Except ε β} {entries : List α} {results : List β}
    (built : entries.mapM f = .ok results) {result : β} :
    result ∈ results ↔ ∃ entry ∈ entries, f entry = .ok result := by
  induction entries generalizing results with
  | nil =>
      injection built with built
      simp [← built]
  | cons entry rest ih =>
      rw [List.mapM_cons] at built
      obtain ⟨first, translated, built⟩ := bind_eq_ok.1 built
      obtain ⟨others, tail, built⟩ := bind_eq_ok.1 built
      injection built with built
      rw [← built]
      simp [ih tail, translated, eq_comm]

/-- No entry of a translated list is refused. -/
theorem exists_of_mapM {ε α β : Type} {f : α → Except ε β} {entries : List α} {results : List β}
    (built : entries.mapM f = .ok results) {entry : α} (inside : entry ∈ entries) :
    ∃ result, f entry = .ok result := by
  induction entries generalizing results with
  | nil => contradiction
  | cons first rest ih =>
      rw [List.mapM_cons] at built
      obtain ⟨value, translated, built⟩ := bind_eq_ok.1 built
      obtain ⟨others, tail, _⟩ := bind_eq_ok.1 built
      rcases List.mem_cons.1 inside with rfl | inside
      · exact ⟨value, translated⟩
      · exact ih tail inside

/-- A list is translated when none of its entries is refused. -/
theorem exists_mapM {ε α β : Type} {f : α → Except ε β} {entries : List α}
    (translated : ∀ entry ∈ entries, ∃ result, f entry = .ok result) :
    ∃ results, entries.mapM f = .ok results := by
  induction entries with
  | nil => exact ⟨[], rfl⟩
  | cons entry rest ih =>
      obtain ⟨head, tail⟩ := List.forall_mem_cons.1 translated
      obtain ⟨first, start⟩ := head
      obtain ⟨others, run⟩ := ih tail
      refine ⟨first :: others, ?_⟩
      rw [List.mapM_cons, start, run]
      rfl

section Translated

variable {ε α β : Type} {f : α → Except ε β} {entries : List α}

theorem mapM_eq_ok {results : List β} :
    entries.mapM f = .ok results ↔
      List.Forall₂ (fun entry result => f entry = .ok result) entries results := by
  induction entries generalizing results with
  | nil =>
      rw [List.mapM_nil, List.forall₂_nil_left_iff]
      exact ⟨fun same => (Except.ok.inj same).symm, fun same => congrArg Except.ok same.symm⟩
  | cons entry rest ih =>
      rw [List.mapM_cons, List.forall₂_cons_left_iff]
      constructor
      · intro built
        obtain ⟨first, translated, built⟩ := bind_eq_ok.1 built
        obtain ⟨others, tail, built⟩ := bind_eq_ok.1 built
        exact ⟨first, others, translated, ih.1 tail, (Except.ok.inj built).symm⟩
      · rintro ⟨first, others, translated, tail, rfl⟩
        rw [translated, ih.2 tail]
        rfl

/-- The first entry that is refused decides the fault of a list. -/
theorem mapM_eq_error {fault : ε} :
    entries.mapM f = .error fault ↔
      ∃ before entry after, entries = before ++ entry :: after ∧
        (∀ earlier ∈ before, ∃ result, f earlier = .ok result) ∧ f entry = .error fault := by
  constructor
  · intro refused
    induction entries with
    | nil => contradiction
    | cons first rest ih =>
        rw [List.mapM_cons] at refused
        cases start : f first with
        | error other =>
            rw [start] at refused
            injection refused with same
            exact ⟨[], first, rest, rfl, by simp, same ▸ start⟩
        | ok value =>
            rw [start] at refused
            have tail : rest.mapM f = .error fault := by
              cases run : rest.mapM f with
              | error other =>
                  rw [run] at refused
                  exact refused
              | ok others =>
                  rw [run] at refused
                  contradiction
            obtain ⟨before, entry, after, same, fine, refused⟩ := ih tail
            refine ⟨first :: before, entry, after, by rw [same, List.cons_append], ?_, refused⟩
            exact List.forall_mem_cons.2 ⟨⟨value, start⟩, fine⟩
  · rintro ⟨before, entry, after, rfl, fine, refused⟩
    obtain ⟨results, run⟩ := exists_mapM fine
    rw [List.mapM_append, run, List.mapM_cons, refused]
    rfl

end Translated

/-- A key attribute of a join is taken from one of the joined headings. -/
theorem Heading.keySource?_eq_some {first second : Heading} {name : String} {attr : Attribute}
    (found : first.keySource? second name = some attr) :
    (attr ∈ first.visible ∨ attr ∈ second.visible) ∧ attr.name = name := by
  unfold Heading.keySource? at found
  simp only [Option.orElse_eq_or, Option.or_eq_some_iff, Option.filter_eq_some_iff,
    get?_eq_some] at found
  tauto

/-- An attribute of a join stems from one side and is in the key if its name is. -/
theorem Heading.origin_of_join {first second result : Heading} {key : List String}
    (built : first.join second key = .ok result) {attr : Attribute}
    (inside : attr ∈ result.attributes) :
    ∃ origin, (origin ∈ first.attributes ∨ origin ∈ second.attributes) ∧
      attr = { origin with inKey := key.contains origin.name } := by
  unfold Heading.join at built
  obtain ⟨keyed, translated, built⟩ := bind_eq_ok.1 built
  rw [attributes_ofAttributes (mapError_eq_ok.1 built), mem_keyOrder, List.mem_append,
    mem_of_mapM translated] at inside
  rcases inside with ⟨name, member, taken⟩ | other
  · cases found : first.keySource? second name with
    | none => simp [found] at taken
    | some origin =>
        obtain ⟨source, same⟩ := keySource?_eq_some found
        refine ⟨origin, source.imp (mem_visible.1 · |>.1) (mem_visible.1 · |>.1), ?_⟩
        simp only [found, Except.ok.injEq] at taken
        simp [← taken, same, member]
  · obtain ⟨origin, source, rfl⟩ := List.mem_map.1 other
    rw [List.mem_append, List.mem_filter, List.mem_filter] at source
    refine ⟨origin, source.imp And.left And.left, ?_⟩
    have outside : key.contains origin.name = false := by
      rcases source with ⟨_, outside⟩ | ⟨_, outside⟩ <;> simp_all
    rw [outside]

/-- The names of a join are those of both sides. -/
theorem Heading.allNames_join {first second result : Heading} {key : List String}
    (built : first.join second key = .ok result) {name : String} :
    name ∈ result.allNames ↔ name ∈ first.allNames ∨ name ∈ second.allNames := by
  constructor
  · intro inside
    obtain ⟨attr, member, rfl⟩ := mem_allNames.1 inside
    obtain ⟨origin, source, rfl⟩ := origin_of_join built member
    exact source.imp (fun left => mem_allNames.2 ⟨origin, left, rfl⟩)
      (fun right => mem_allNames.2 ⟨origin, right, rfl⟩)
  · intro either
    unfold Heading.join at built
    obtain ⟨keyed, translated, built⟩ := bind_eq_ok.1 built
    rw [mem_allNames, attributes_ofAttributes (mapError_eq_ok.1 built)]
    simp only [mem_keyOrder, List.mem_append, List.mem_map, List.mem_filter]
    by_cases inKey : name ∈ key
    · obtain ⟨attr, taken⟩ := exists_of_mapM translated inKey
      refine ⟨attr, .inl ((mem_of_mapM translated).2 ⟨name, inKey, taken⟩), ?_⟩
      cases found : first.keySource? second name with
      | none => simp [found] at taken
      | some origin =>
          simp only [found, Except.ok.injEq] at taken
          rw [← taken]
          exact (keySource?_eq_some found).2
    · by_cases shown : name ∈ first.allNames
      · obtain ⟨attr, member, rfl⟩ := mem_allNames.1 shown
        exact ⟨_, .inr ⟨attr, .inl ⟨member, by simp [inKey]⟩, rfl⟩, rfl⟩
      · obtain ⟨attr, member, rfl⟩ := mem_allNames.1 (either.resolve_left shown)
        exact ⟨_, .inr ⟨attr, .inr ⟨member, by simp [inKey, shown]⟩, rfl⟩, rfl⟩

/-- Two headings have in common what both of them show. -/
theorem Heading.mem_common {first second : Heading} {name : String} :
    name ∈ first.common second ↔ name ∈ first.names ∧ name ∈ second.names := by
  rw [Heading.common, List.mem_filter, first.contains_iff, and_comm]

/-- Namesakes may be equated if a key has one of them and both stem from one origin. -/
def Attribute.Homologous (first second : Attribute) : Prop :=
  (first.inKey = true ∨ second.inKey = true) ∧ first.lineage.isSome = true ∧
    first.lineage = second.lineage

theorem Attribute.homologous_eq_ok {first second : Attribute} :
    first.homologous second = .ok () ↔ first.Homologous second := by
  unfold Attribute.homologous Attribute.Homologous
  cases first.inKey <;> cases second.inKey <;> simp

theorem forM_eq_ok {ε α : Type} {check : α → Except ε Unit} {entries : List α} :
    entries.forM check = .ok () ↔ ∀ entry ∈ entries, check entry = .ok () := by
  induction entries with
  | nil => simp [pure, Except.pure]
  | cons entry rest ih =>
      have step : (entry :: rest).forM check = (check entry >>= fun _ => rest.forM check) := rfl
      rw [step, List.forall_mem_cons, ← ih]
      cases check entry <;> simp [bind, Except.bind]

/-- The names shared by two headings belong to homologous attributes. -/
theorem Heading.homologous_eq_ok {first second : Heading} :
    first.homologous second = .ok () ↔ ∀ attr ∈ first.visible, ∀ other,
      second.get? attr.name = some other → attr.Homologous other := by
  unfold Heading.homologous
  rw [forM_eq_ok]
  apply forall₂_congr
  intro attr _
  cases second.get? attr.name with
  | none => simp
  | some other => simp [Attribute.homologous_eq_ok]

end QueryAlgebra
