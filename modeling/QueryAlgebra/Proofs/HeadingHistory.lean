/-
This file describes the headings that any sequence of calls forms. They show their key before all
other names, each name once, and find what they show. A heading takes any list of shown names
without repetition for its key, and then nothing changes but which attributes are in the key.
-/
import QueryAlgebra.Proofs.StoredHeading

namespace QueryAlgebra

/-- The calls that form a heading. -/
inductive HeadingHistory where
  | start (attrs : List Attribute)
  | project (before : HeadingHistory) (selected : List String) (renames : Renames)
      (key : Option (List String))
  | rekey (before : HeadingHistory) (key : List String)
  | join (before other : HeadingHistory) (key : List String)
  | asColumns (before : HeadingHistory)
  | visiblePart (before : HeadingHistory)

namespace HeadingHistory

def heading? : HeadingHistory → Except Fault Heading
  | .start attrs => (Heading.ofAttributes? attrs).mapError .heading
  | .project before selected renames key => do
      (← before.heading?).project selected renames key
  | .rekey before key => do (← before.heading?).rekey key
  | .join before other key => do (← before.heading?).join (← other.heading?) key
  | .asColumns before => return (← before.heading?).asColumns
  | .visiblePart before => return (← before.heading?).visiblePart

/-- The same calls on the attributes in store. -/
def stored? : HeadingHistory → Except Fault StoredHeading
  | .start attrs => (StoredHeading.ofAttributes? attrs).mapError .heading
  | .project before selected renames key => do
      (← before.stored?).project selected renames key
  | .rekey before key => do (← before.stored?).rekey key
  | .join before other key => do (← before.stored?).join (← other.stored?) key
  | .asColumns before => return (← before.stored?).asColumns
  | .visiblePart before => return (← before.stored?).visiblePart

/-- The calls store what they form and are refused for the same reason. -/
theorem stored?_eq (history : HeadingHistory) :
    history.stored? = history.heading?.map Heading.stored := by
  induction history with
  | start attrs =>
      rw [stored?, heading?, StoredHeading.ofAttributes?_eq, map_mapError]
  | project before selected renames key ih =>
      rw [stored?, heading?, ih]
      cases before.heading? with
      | error fault => rfl
      | ok heading => exact heading.project_stored selected renames key
  | rekey before key ih =>
      rw [stored?, heading?, ih]
      cases before.heading? with
      | error fault => rfl
      | ok heading => exact heading.rekey_stored key
  | join before other key ih ih' =>
      rw [stored?, heading?, ih, ih']
      cases before.heading? with
      | error fault => rfl
      | ok first =>
          cases other.heading? with
          | error fault => rfl
          | ok second => exact first.join_stored second key
  | asColumns before ih =>
      rw [stored?, heading?, ih]
      cases before.heading? with
      | error fault => rfl
      | ok heading => exact congrArg Except.ok heading.asColumns_stored
  | visiblePart before ih =>
      rw [stored?, heading?, ih]
      cases before.heading? with
      | error fault => rfl
      | ok heading => exact congrArg Except.ok heading.visiblePart_stored

end HeadingHistory

/-- Attributes are stored under their own names, which differ. No hidden attribute is in the key,
and key attributes come first. What is shown is found under its name and nothing else is. -/
structure StoredHeading.Represents (stored : StoredHeading) : Prop where
  distinct : stored.keys.Nodup
  named : ∀ entry ∈ stored.entries, entry.1 = entry.2.name
  visibleKey : ∀ attr ∈ stored.values, attr.inKey = true → attr.hidden = false
  keyFirst : stored.values.Pairwise fun earlier later => later.inKey = true → earlier.inKey = true
  listed : stored.names = stored.primaryKey ++ stored.secondary
  found : ∀ name attr, stored.get? name = some attr ↔ attr ∈ stored.visible ∧ attr.name = name
  contained : ∀ name, stored.contains name = true ↔ name ∈ stored.names

/-- The key has the given order. The other attributes keep theirs and leave the key, hidden
attributes stay, and nothing but membership of the key changes. -/
structure StoredHeading.Rekeys (stored : StoredHeading) (key : List String)
    (result : StoredHeading) : Prop where
  primaryKey : result.primaryKey = key
  secondary : result.secondary = stored.names.filter (!key.contains ·)
  others : (result.values.filter (!·.inKey)).map Attribute.name =
    stored.keys.filter (!key.contains ·)
  hidden : result.values.filter (·.hidden) = stored.values.filter (·.hidden)
  changed : ∀ attr, attr ∈ result.values ↔ ∃ origin ∈ stored.values,
    attr = { origin with inKey := key.contains origin.name }

namespace Heading

variable (heading : Heading)

/-- The names that are shown are those of the key and then the others. -/
theorem names_eq_append : heading.names = heading.primaryKey ++ heading.secondary := by
  have ordered : heading.visible.Pairwise fun earlier later => later.inKey → earlier.inKey :=
    heading.keyFirst.sublist List.filter_sublist
  rw [names, primaryKey, secondary, ← List.map_append]
  exact congrArg (List.map Attribute.name) (keyOrder_eq_self ordered).symm

theorem primaryKey_stored : heading.stored.primaryKey = heading.primaryKey := by
  rw [StoredHeading.primaryKey, visible_stored]
  rfl

theorem secondary_stored : heading.stored.secondary = heading.secondary := by
  rw [StoredHeading.secondary, visible_stored]
  rfl

theorem names_stored : heading.stored.names = heading.names := by
  rw [StoredHeading.names, visible_stored]
  rfl

theorem represents_stored : heading.stored.Represents where
  distinct := by
    rw [keys_stored]
    exact heading.nodup
  named := by
    intro entry inside
    obtain ⟨attr, _, rfl⟩ := List.mem_map.1 inside
    rfl
  visibleKey := by
    rw [values_stored]
    exact heading.visibleKey
  keyFirst := by
    rw [values_stored]
    exact heading.keyFirst
  listed := by
    rw [names_stored, primaryKey_stored, secondary_stored]
    exact heading.names_eq_append
  found := by
    intro name attr
    rw [get?_stored, visible_stored]
    exact get?_eq_some
  contained := by
    intro name
    rw [contains_stored, names_stored]
    exact heading.contains_iff name

end Heading

section Rekeying

variable {heading result : Heading} {key : List String}

theorem Heading.others_rekey (built : heading.rekey key = .ok result) :
    result.attributes.filter (!·.inKey) =
      (heading.attributes.filter (!key.contains ·.name)).map fun attr =>
        { attr with inKey := false } := by
  rw [attributes_rekey built, List.filter_append, List.filter_map, List.filter_map]
  have chosen : (fun attr : Attribute => !attr.inKey) ∘
      (fun attr : Attribute => { attr with inKey := true }) = fun _ => false := rfl
  have others : (fun attr : Attribute => !attr.inKey) ∘
      (fun attr : Attribute => { attr with inKey := false }) = fun _ => true := rfl
  rw [chosen, others, List.filter_false, List.filter_true, List.map_nil, List.nil_append]

/-- No name of a possible key belongs to a hidden attribute. -/
theorem Heading.not_mem_key_of_hidden (shown : ∀ name ∈ key, name ∈ heading.names)
    {attr : Attribute} (inside : attr ∈ heading.attributes) (hidden : attr.hidden = true) :
    attr.name ∉ key := by
  intro inKey
  obtain ⟨other, visible, same⟩ := mem_names.1 (shown attr.name inKey)
  obtain ⟨member, exposed⟩ := mem_visible.1 visible
  rw [eq_of_name member inside same, hidden] at exposed
  contradiction

theorem Heading.hidden_rekey (built : heading.rekey key = .ok result) :
    result.attributes.filter (·.hidden) = heading.attributes.filter (·.hidden) := by
  have shown := (rekey_eq_ok.1 built).1
  have unkeyed : ∀ {other : Heading}, ∀ attr ∈ other.attributes, attr.hidden = true →
      attr.inKey = false := by
    intro other attr inside hidden
    cases inKey : attr.inKey with
    | false => rfl
    | true => rw [other.visibleKey attr inside inKey] at hidden; contradiction
  have apart : result.attributes.filter (·.hidden) =
      (result.attributes.filter (!·.inKey)).filter (·.hidden) := by
    rw [List.filter_filter]
    refine List.filter_congr fun attr inside => ?_
    cases hidden : attr.hidden with
    | false => rfl
    | true => rw [unkeyed attr inside hidden]; rfl
  have free : (heading.attributes.filter (!key.contains ·.name)).filter (·.hidden) =
      heading.attributes.filter (·.hidden) := by
    rw [List.filter_filter]
    refine List.filter_congr fun attr inside => ?_
    cases hidden : attr.hidden with
    | false => rfl
    | true => simpa using not_mem_key_of_hidden shown inside hidden
  rw [apart, others_rekey built, filter_hidden_moved, free]
  refine (List.map_congr_left fun attr inside => ?_).trans (List.map_id' _)
  obtain ⟨member, hidden⟩ := List.mem_filter.1 inside
  rw [← unkeyed attr member hidden]

theorem Heading.rekeys_stored (built : heading.rekey key = .ok result) :
    heading.stored.Rekeys key result.stored where
  primaryKey := by
    rw [primaryKey_stored]
    exact primaryKey_rekey built
  secondary := by
    rw [secondary_stored, names_stored, secondary, visible, List.filter_comm, others_rekey built,
      filter_shown_moved, map_name_moved, List.filter_comm, names, List.filter_map]
    rfl
  others := by
    rw [values_stored, keys_stored, others_rekey built, map_name_moved, allNames, List.filter_map]
    rfl
  hidden := by
    rw [values_stored, values_stored]
    exact hidden_rekey built
  changed := by
    intro attr
    rw [values_stored, values_stored]
    exact mem_rekey built

end Rekeying

/-- Whatever calls form a heading, what is stored represents it: names are different and each is
that of its attribute, no hidden attribute is in the key, the key comes first, and exactly the
names that are shown are found. It takes exactly the lists of shown names without repetition for
its key, and then only membership of the key changes. -/
theorem HeadingHistory.represented (history : HeadingHistory) {stored : StoredHeading}
    (built : history.stored? = .ok stored) :
    (∃ heading, history.heading? = .ok heading ∧ stored = heading.stored) ∧
    stored.Represents ∧
    (∀ key, (∃ result, stored.rekey key = .ok result) ↔
      key.Nodup ∧ ∀ name ∈ key, name ∈ stored.names) ∧
    ∀ key result, stored.rekey key = .ok result → stored.Rekeys key result := by
  rw [stored?_eq, map_eq_ok] at built
  obtain ⟨heading, formed, rfl⟩ := built
  refine ⟨⟨heading, formed, rfl⟩, heading.represents_stored, fun key => ?_, ?_⟩
  · rw [heading.names_stored, heading.rekey_stored, ← Heading.exists_rekey]
    simp only [map_eq_ok]
    constructor
    · rintro ⟨_, result, rekeyed, rfl⟩
      exact ⟨result, rekeyed⟩
    · rintro ⟨result, rekeyed⟩
      exact ⟨result.stored, result, rekeyed, rfl⟩
  · intro key result rekeyed
    rw [heading.rekey_stored, map_eq_ok] at rekeyed
    obtain ⟨other, rekeyed, rfl⟩ := rekeyed
    exact Heading.rekeys_stored rekeyed

/-- Subjects with a tag that is not shown, joined with a count for each subject. -/
def countedSubjects : HeadingHistory :=
  .join
    (.start [.plain "species" .string, { Attribute.plain "subject_id" .int with inKey := true },
      { Attribute.plain "tag" .string with hidden := true }])
    (.asColumns (.project
      (.start [.plain "entry" .int, { Attribute.plain "subject_id" .int with inKey := true }])
      ["subject_id"] (Renames.ofList [("entries", "count(*)")]) (some ["subject_id"])))
    ["subject_id"]

/-- The tag stays in the heading and out of sight when the count becomes part of the key. -/
theorem HeadingHistory.represented_of_counted :
    ∃ stored result, countedSubjects.stored? = .ok stored ∧ stored.Represents ∧
      stored.names = ["subject_id", "species", "entries"] ∧
      stored.rekey ["entries", "subject_id"] = .ok result ∧
      result.primaryKey = ["entries", "subject_id"] ∧ result.secondary = ["species"] ∧
      result.values.filter (·.hidden) = stored.values.filter (·.hidden) := by
  obtain ⟨stored, built⟩ : ∃ stored, countedSubjects.stored? = .ok stored :=
    isOk_iff.1 (by decide +kernel)
  have names : countedSubjects.stored?.toOption.map StoredHeading.names =
      some ["subject_id", "species", "entries"] := by decide +kernel
  rw [built] at names
  have listed : stored.names = ["subject_id", "species", "entries"] := Option.some.inj names
  obtain ⟨_, represents, accepted, rekeyed⟩ := countedSubjects.represented built
  obtain ⟨result, taken⟩ := (accepted ["entries", "subject_id"]).2
    ⟨by decide, by rw [listed]; decide⟩
  have rekeys := rekeyed _ result taken
  refine ⟨stored, result, built, represents, listed, taken, rekeys.primaryKey, ?_, rekeys.hidden⟩
  rw [rekeys.secondary, listed]
  decide

end QueryAlgebra
