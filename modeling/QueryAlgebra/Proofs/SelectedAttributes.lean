/-
This file says which projection lists are accepted and which attributes they select. The reading
of a list collects names, and it refuses repetitions and whatever has two uses.
-/
import QueryAlgebra.Proofs.HeadingOrder

namespace QueryAlgebra

/-- A run that collects a part of each entry succeeds exactly if every entry is fine and no part
is repeated. -/
theorem foldlM_collect_eq_ok {ε α β : Type} {step : List β → α → Except ε (List β)}
    (part : α → Option β) (fine : α → Prop)
    (each : ∀ before entry after, step before entry = .ok after ↔
      fine entry ∧ (∀ value, part entry = some value → value ∉ before) ∧
        after = before ++ (part entry).toList)
    {entries : List α} {start result : List β} :
    entries.foldlM step start = .ok result ↔
      (∀ entry ∈ entries, fine entry) ∧ (entries.filterMap part).Nodup ∧
        (∀ value ∈ entries.filterMap part, value ∉ start) ∧
          result = start ++ entries.filterMap part := by
  induction entries generalizing start with
  | nil => simp [pure, Except.pure, eq_comm]
  | cons entry rest ih =>
      rw [List.foldlM_cons, bind_eq_ok]
      simp only [each, ih, List.forall_mem_cons]
      cases collected : part entry with
      | none =>
          rw [List.filterMap_cons_none collected]
          simp only [Option.toList_none, List.append_nil, reduceCtorEq, false_implies,
            implies_true, true_and]
          constructor
          · rintro ⟨_, ⟨fits, rfl⟩, others, rest⟩
            exact ⟨⟨fits, others⟩, rest⟩
          · rintro ⟨⟨fits, others⟩, rest⟩
            exact ⟨start, ⟨fits, rfl⟩, others, rest⟩
      | some value =>
          rw [List.filterMap_cons_some collected, List.nodup_cons, List.forall_mem_cons]
          simp only [Option.toList_some, Option.some.injEq, forall_eq']
          constructor
          · rintro ⟨_, ⟨fits, fresh, rfl⟩, others, distinct, apart, rfl⟩
            simp only [List.mem_append, List.mem_singleton, not_or] at apart
            refine ⟨⟨fits, others⟩, ⟨fun again => (apart value again).2 rfl, distinct⟩,
              ⟨fresh, fun other inside => (apart other inside).1⟩, ?_⟩
            rw [List.append_assoc, List.singleton_append]
          · rintro ⟨⟨fits, others⟩, ⟨unrepeated, distinct⟩, ⟨fresh, apart⟩, rfl⟩
            refine ⟨start ++ [value], ⟨fits, fresh, rfl⟩, others, distinct, ?_, ?_⟩
            · intro other inside member
              rcases List.mem_append.1 member with before | same
              · exact apart other inside before
              · exact unrepeated (List.mem_singleton.1 same ▸ inside)
            · rw [List.append_assoc, List.singleton_append]

/-- The attribute that a new name takes over. -/
def Renaming.moved? : Renaming → Option String
  | .move source => some source
  | .copy _ | .compute _ => none

/-- The attributes that take other names, in the order of the new names. -/
def Heading.movedSources (heading : Heading) (renames : Renames) : List String :=
  (heading.renamings renames).filterMap (·.2.moved?)

/-- The attribute that an entry lists by its name. -/
def ProjectionItem.named? : ProjectionItem → Option String
  | .named name => some name
  | .others | .without _ => none

def namedAttributes (items : List ProjectionItem) : List String :=
  items.filterMap ProjectionItem.named?

theorem ProjectionItem.named?_eq_some {item : ProjectionItem} {name : String} :
    item.named? = some name ↔ item = .named name := by
  cases item <;> simp [named?]

theorem mem_namedAttributes {items : List ProjectionItem} {name : String} :
    name ∈ namedAttributes items ↔ .named name ∈ items := by
  simp [namedAttributes, ProjectionItem.named?_eq_some]

section Reading

variable {heading : Heading} {items : List ProjectionItem} {renames : Renames}
  {kept moved listed : List String} {selection : Selection}

theorem Heading.names_renamings (heading : Heading) (renames : Renames) :
    (heading.renamings renames).map Prod.fst = renames.names := by
  rw [renamings, List.map_map]
  rfl

/-- New names are accepted if none of them is listed too and no attribute moves twice. -/
theorem Heading.movedAttributes_eq_ok : heading.movedAttributes items renames = .ok moved ↔
    (∀ name ∈ renames.names, .named name ∉ items) ∧ (heading.movedSources renames).Nodup ∧
      moved = heading.movedSources renames := by
  unfold movedAttributes
  rw [foldlM_collect_eq_ok (fun entry => entry.2.moved?) (fun entry => .named entry.1 ∉ items),
    ← heading.names_renamings renames, List.forall_mem_map]
  · simp [movedSources]
  · intro before entry after
    cases entry.2 with
    | move source =>
        by_cases again : source ∈ before <;> by_cases twice : .named entry.1 ∈ items <;>
          simp [again, twice, Renaming.moved?, bind, Except.bind, eq_comm]
    | copy source | compute expression =>
        by_cases twice : .named entry.1 ∈ items <;>
          simp [twice, Renaming.moved?, bind, Except.bind, eq_comm]

/-- Listed names are accepted if they are shown, do not move and differ. -/
theorem Heading.listedAttributes_eq_ok : heading.listedAttributes items moved = .ok listed ↔
    (∀ name, .named name ∈ items → name ∈ heading.names ∧ name ∉ moved) ∧
      (namedAttributes items).Nodup ∧ listed = namedAttributes items := by
  unfold listedAttributes
  rw [foldlM_collect_eq_ok ProjectionItem.named? fun item =>
    ∀ name, item = .named name → name ∈ heading.names ∧ name ∉ moved]
  · constructor
    · rintro ⟨fits, distinct, _, rfl⟩
      exact ⟨fun name inside => fits _ inside name rfl, distinct, rfl⟩
    · rintro ⟨fits, distinct, rfl⟩
      refine ⟨?_, distinct, fun _ _ => List.not_mem_nil, rfl⟩
      rintro _ inside name rfl
      exact fits name inside
  · intro before item after
    cases item with
    | named name =>
        have known : heading.contains name = decide (name ∈ heading.names) := by
          rw [Bool.eq_iff_iff, heading.contains_iff, decide_eq_true_eq]
        by_cases shown : name ∈ heading.names <;> by_cases again : name ∈ before <;>
          by_cases moves : name ∈ moved <;>
            simp [known, shown, again, moves, ProjectionItem.named?, eq_comm]
    | others => simp [ProjectionItem.named?, eq_comm]
    | without name => simp [ProjectionItem.named?, eq_comm]

/-- Every use that a projection list makes of an attribute is the only one. -/
structure Heading.Selectable (heading : Heading) (items : List ProjectionItem)
    (renames : Renames) (kept : List String) : Prop where
  known : ∀ name, .named name ∈ items → name ∈ heading.names
  once : (namedAttributes items).Nodup
  unmoved : ∀ name, .named name ∈ items → name ∉ heading.movedSources renames
  unnamed : ∀ name, .named name ∈ items → name ∉ renames.names
  movedOnce : (heading.movedSources renames).Nodup
  unexcluded : ∀ name ∈ kept, .without name ∉ items

/-- A name stays if it is kept and does not move, is listed, or is one of the others. -/
def Heading.Stays (heading : Heading) (items : List ProjectionItem) (renames : Renames)
    (kept : List String) (name : String) : Prop :=
  (name ∈ kept ∧ name ∉ heading.movedSources renames) ∨
    (.named name ∈ items ∧ .without name ∉ items) ∨
      (.others ∈ items ∧ name ∈ heading.secondary ∧ name ∉ heading.movedSources renames ∧
        name ∉ renames.names ∧ .without name ∉ items)

theorem mem_excluded {items : List ProjectionItem} {name : String} :
    name ∈ items.filterMap ProjectionItem.excluded? ↔ .without name ∈ items := by
  have excluded : ∀ item : ProjectionItem, item.excluded? = some name ↔ item = .without name := by
    intro item
    cases item <;> simp [ProjectionItem.excluded?]
  simp [excluded]

theorem Heading.mem_otherAttributes {name : String} :
    name ∈ heading.otherAttributes items renames moved ↔
      .others ∈ items ∧ name ∈ heading.secondary ∧ name ∉ moved ∧ name ∉ renames.names := by
  unfold otherAttributes
  by_cases dots : .others ∈ items <;> simp [dots]

/-- Exactly the lists that use every attribute once are accepted. -/
theorem Heading.exists_selection :
    (∃ selection, heading.selection items renames kept = .ok selection) ↔
      heading.Selectable items renames kept := by
  constructor
  · rintro ⟨selection, chosen⟩
    unfold Heading.selection at chosen
    obtain ⟨moved, moving, chosen⟩ := bind_eq_ok.1 chosen
    obtain ⟨listed, listing, chosen⟩ := bind_eq_ok.1 chosen
    obtain ⟨unlisted, movedOnce, rfl⟩ := movedAttributes_eq_ok.1 moving
    obtain ⟨fits, once, rfl⟩ := listedAttributes_eq_ok.1 listing
    dsimp only at chosen
    split at chosen
    · contradiction
    · rename_i unexcluded
      exact {
        known := fun name inside => (fits name inside).1
        once := once
        unmoved := fun name inside => (fits name inside).2
        unnamed := fun name inside new => unlisted name new inside
        movedOnce := movedOnce
        unexcluded := fun name inside excluded => by
          have apart := List.find?_eq_none.1 unexcluded name (mem_excluded.2 excluded)
          simp [inside] at apart }
  · intro selectable
    have moving := movedAttributes_eq_ok.2 ⟨fun name new inside =>
      selectable.unnamed name inside new, selectable.movedOnce, rfl⟩
    have listing := @listedAttributes_eq_ok heading items (heading.movedSources renames) _ |>.2
      ⟨fun name inside => ⟨selectable.known name inside, selectable.unmoved name inside⟩,
        selectable.once, rfl⟩
    have unexcluded : (items.filterMap ProjectionItem.excluded?).find? kept.contains = none := by
      refine List.find?_eq_none.2 fun name excluded inside => ?_
      exact selectable.unexcluded name (by simpa using inside) (mem_excluded.1 excluded)
    unfold Heading.selection
    simp only [moving, listing, unexcluded, bind, Except.bind]
    exact ⟨_, rfl⟩

/-- A projection list selects the names that stay. -/
theorem Heading.mem_selected (chosen : heading.selection items renames kept = .ok selection)
    {name : String} : name ∈ selection.selected ↔ heading.Stays items renames kept name := by
  unfold Heading.selection at chosen
  obtain ⟨moved, moving, chosen⟩ := bind_eq_ok.1 chosen
  obtain ⟨listed, listing, chosen⟩ := bind_eq_ok.1 chosen
  obtain ⟨_, _, rfl⟩ := movedAttributes_eq_ok.1 moving
  obtain ⟨_, _, rfl⟩ := listedAttributes_eq_ok.1 listing
  dsimp only at chosen
  split at chosen
  · contradiction
  · injection chosen with same
    rw [← same, mem_foldl_selected, mem_excluded, List.mem_append, mem_namedAttributes,
      mem_otherAttributes, List.mem_filter]
    simp only [Bool.not_eq_true', List.contains_eq_mem, decide_eq_false_iff_not, Stays]
    tauto

/-- What stays is shown and takes no new name, unless a kept attribute has a new namesake. -/
theorem Heading.Selectable.shown_of_stays (selectable : heading.Selectable items renames kept)
    (shown : ∀ name ∈ kept, name ∈ heading.names)
    (fresh : ∀ name ∈ kept, name ∈ renames.names → name ∈ heading.movedSources renames)
    {name : String} (stays : heading.Stays items renames kept name) :
    name ∈ heading.names ∧ name ∉ renames.names := by
  rcases stays with ⟨inside, unmoved⟩ | ⟨listed, _⟩ | ⟨_, secondary, _, unnamed, _⟩
  · exact ⟨shown name inside, fun new => unmoved (fresh name inside new)⟩
  · exact ⟨selectable.known name listed, selectable.unnamed name listed⟩
  · obtain ⟨attr, inside, rfl⟩ := List.mem_map.1 secondary
    exact ⟨mem_names.2 ⟨attr, (List.mem_filter.1 inside).1, rfl⟩, unnamed⟩

theorem Heading.Selectable.unmoved_of_stays (selectable : heading.Selectable items renames kept)
    {name : String} (stays : heading.Stays items renames kept name) :
    name ∉ heading.movedSources renames := by
  rcases stays with ⟨_, unmoved⟩ | ⟨listed, _⟩ | ⟨_, _, unmoved, _⟩
  · exact unmoved
  · exact selectable.unmoved name listed
  · exact unmoved

end Reading

end QueryAlgebra
