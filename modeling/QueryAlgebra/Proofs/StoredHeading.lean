/-
This file stores headings in ordered maps, in which every attribute stands under a name of its own.
A map is filled attribute by attribute or copied from another one. Each operation on headings does
to the stored attributes what it does to the heading, and it is refused in the same cases.
-/
import QueryAlgebra.Proofs.RekeyedHeading

namespace QueryAlgebra

/-- The attributes in the order in which their names came in. -/
structure StoredHeading where
  entries : List (String × Attribute)

namespace StoredHeading

def empty : StoredHeading := ⟨[]⟩

def keys (stored : StoredHeading) : List String := stored.entries.map Prod.fst

def values (stored : StoredHeading) : List Attribute := stored.entries.map Prod.snd

def lookup (stored : StoredHeading) (name : String) : Option Attribute :=
  (stored.entries.find? (·.1 = name)).map Prod.snd

/-- A name that is there keeps its place and gets the new attribute. -/
def insert (stored : StoredHeading) (name : String) (attr : Attribute) : StoredHeading :=
  if (stored.lookup name).isSome then
    ⟨stored.entries.map fun entry => if entry.1 = name then (name, attr) else entry⟩
  else ⟨stored.entries ++ [(name, attr)]⟩

def collect (entries : List (String × Attribute)) : StoredHeading :=
  entries.foldl (fun stored entry => stored.insert entry.1 entry.2) empty

/-- Attributes come in one after another unless one of them breaks a rule. -/
def fill (stored : StoredHeading) : List Attribute → Except HeadingFault StoredHeading
  | [] => .ok stored
  | attr :: rest =>
      if attr.inKey && attr.hidden then .error (.hiddenKey attr.name)
      else if (stored.lookup attr.name).isSome then .error (.duplicate attr.name)
      else (stored.insert attr.name attr).fill rest

def ofAttributes? (attrs : List Attribute) : Except HeadingFault StoredHeading :=
  empty.fill (keyOrder attrs)

def visible (stored : StoredHeading) : List Attribute := stored.values.filter (!·.hidden)

def names (stored : StoredHeading) : List String := stored.visible.map Attribute.name

def primaryKey (stored : StoredHeading) : List String :=
  (stored.visible.filter (·.inKey)).map Attribute.name

def secondary (stored : StoredHeading) : List String :=
  (stored.visible.filter (!·.inKey)).map Attribute.name

def get? (stored : StoredHeading) (name : String) : Option Attribute :=
  (stored.lookup name).filter (!·.hidden)

def contains (stored : StoredHeading) (name : String) : Bool := (stored.get? name).isSome

end StoredHeading

/-- How a value is read, given which names are shown. -/
def classifyBy (shown : String → Bool) (value : String) : Renaming :=
  let refersTo (name : List Char) : Bool :=
    isIdentifier name && !constantNames.contains (String.ofList name).toLower &&
      shown (String.ofList name)
  let text := trimBlanks value.toList
  match parenthesised? text with
  | some inner =>
      if refersTo inner then .copy (String.ofList inner) else .compute (String.ofList text)
  | none => if refersTo text then .move (String.ofList text) else .compute (String.ofList text)

theorem Heading.classify_eq (heading : Heading) (value : String) :
    heading.classify value = classifyBy heading.contains value := rfl

namespace StoredHeading

def renamings (stored : StoredHeading) (renames : Renames) : List (String × Renaming) :=
  renames.entries.map fun entry => (entry.1, classifyBy stored.contains entry.2)

def project (stored : StoredHeading) (selected : List String) (renames : Renames)
    (key : Option (List String)) : Except Fault StoredHeading :=
  match selected.find? (!stored.contains ·) with
  | some missing => .error (.unknownAttribute missing)
  | none =>
      let renamings := stored.renamings renames
      let attrs := stored.visible.flatMap (·.images selected renamings) ++
        renamings.filterMap fun entry => entry.2.computed? entry.1
      (ofAttributes? (key.elim attrs (forceKey · attrs))).mapError .heading

/-- The names of the key are looked up among all that is stored. -/
def rekey (stored : StoredHeading) (key : List String) : Except Fault StoredHeading :=
  match key.find? (!stored.contains ·) with
  | some missing => .error (.unknownAttribute missing)
  | none =>
      let keyed := (key.filterMap stored.lookup).map fun attr => { attr with inKey := true }
      let others := (stored.values.filter (!key.contains ·.name)).map fun attr =>
        { attr with inKey := false }
      (ofAttributes? (keyed ++ others)).mapError .heading

/-- What a name of the key stands for, first among the key attributes of both sides. -/
def keySource? (first second : StoredHeading) (name : String) : Option Attribute :=
  (([first, second].filterMap (·.get? name)).find? (·.inKey)).or
    ((first.get? name).or (second.get? name))

/-- An attribute stays outside the key unless its name was taken before. -/
def addOther (key : List String) (attrs : List Attribute) (attr : Attribute) : List Attribute :=
  if key.contains attr.name || attrs.any (·.name = attr.name) then attrs
  else attrs ++ [{ attr with inKey := false }]

def join (first second : StoredHeading) (key : List String) : Except Fault StoredHeading := do
  let keyed ← key.mapM fun name =>
    match first.keySource? second name with
    | some attr => .ok { attr with inKey := true }
    | none => .error (.unknownAttribute name)
  (ofAttributes? ((first.values ++ second.values).foldl (addOther key) keyed)).mapError .heading

def asColumns (stored : StoredHeading) : StoredHeading :=
  collect (stored.entries.map fun entry => (entry.1, entry.2.asColumn))

def visiblePart (stored : StoredHeading) : StoredHeading :=
  collect (stored.entries.filter (!·.2.hidden))

end StoredHeading

/-- A heading stores each attribute under its name. -/
def Heading.stored (heading : Heading) : StoredHeading :=
  ⟨heading.attributes.map fun attr => (attr.name, attr)⟩

namespace StoredHeading

section Filling

variable {stored : StoredHeading}

theorem lookup_isSome {name : String} : (stored.lookup name).isSome = true ↔ name ∈ stored.keys := by
  unfold lookup keys
  rw [Option.isSome_map, List.find?_isSome, List.mem_map]
  simp only [decide_eq_true_eq]

theorem keys_snoc (stored : StoredHeading) (entry : String × Attribute) :
    (StoredHeading.mk (stored.entries ++ [entry])).keys = stored.keys ++ [entry.1] :=
  List.map_append

theorem insert_of_not_mem {name : String} (absent : name ∉ stored.keys) (attr : Attribute) :
    stored.insert name attr = ⟨stored.entries ++ [(name, attr)]⟩ :=
  if_neg fun present => absent (lookup_isSome.1 present)

/-- Entries with different names are all stored, in their order. -/
theorem collect_of_nodup {entries : List (String × Attribute)}
    (distinct : (entries.map Prod.fst).Nodup) : collect entries = ⟨entries⟩ := by
  have appended : ∀ (entries : List (String × Attribute)) (stored : StoredHeading),
      (stored.keys ++ entries.map Prod.fst).Nodup →
        entries.foldl (fun stored entry => stored.insert entry.1 entry.2) stored =
          ⟨stored.entries ++ entries⟩ := by
    intro entries
    induction entries with
    | nil =>
        intro stored _
        rw [List.foldl_nil, List.append_nil]
    | cons entry rest ih =>
        intro stored apart
        have absent : entry.1 ∉ stored.keys := fun present =>
          (List.nodup_append.1 apart).2.2 entry.1 present entry.1 List.mem_cons_self rfl
        rw [List.foldl_cons, insert_of_not_mem absent, ih _ (by
          rw [keys_snoc, List.append_assoc]
          exact apart), List.append_assoc, List.singleton_append]
  exact appended entries empty distinct

/-- A map is filled up to the first attribute that breaks a rule. -/
theorem fill_eq (stored : StoredHeading) (seen : List String) (attrs : List Attribute)
    (same : ∀ name, name ∈ seen ↔ name ∈ stored.keys) :
    stored.fill attrs = match firstFault seen attrs with
      | some fault => .error fault
      | none => .ok ⟨stored.entries ++ attrs.map fun attr => (attr.name, attr)⟩ := by
  induction attrs generalizing stored seen with
  | nil => rw [fill, firstFault, List.map_nil, List.append_nil]
  | cons attr rest ih =>
      rw [fill, firstFault]
      by_cases hiddenKey : (attr.inKey && attr.hidden) = true
      · rw [if_pos hiddenKey, if_pos hiddenKey]
      · rw [if_neg hiddenKey, if_neg hiddenKey]
        by_cases taken : attr.name ∈ stored.keys
        · rw [if_pos (lookup_isSome.2 taken), if_pos ((same attr.name).2 taken)]
        · rw [if_neg fun present => taken (lookup_isSome.1 present),
            if_neg fun present => taken ((same attr.name).1 present), insert_of_not_mem taken,
            ih _ (attr.name :: seen) fun name => ?_, List.map_cons, List.append_assoc,
            List.singleton_append]
          rw [List.mem_cons, same, keys_snoc, List.mem_append, List.mem_singleton, or_comm]

end Filling

/-- Filling a map gives what forming a heading gives. -/
theorem ofAttributes?_eq (attrs : List Attribute) :
    ofAttributes? attrs = (Heading.ofAttributes? attrs).map Heading.stored := by
  unfold ofAttributes? Heading.ofAttributes?
  rw [fill_eq empty [] (keyOrder attrs) fun _ => Iff.rfl]
  split
  · rename_i fault found
    split
    · rename_i other found'
      rw [found] at found'
      injection found' with found'
      rw [found']
      rfl
    · rename_i sound
      rw [found] at sound
      contradiction
  · rename_i sound
    split
    · rename_i fault found
      rw [sound] at found
      contradiction
    · rfl

end StoredHeading

namespace Heading

variable (heading : Heading)

@[simp] theorem values_stored : heading.stored.values = heading.attributes := by
  rw [StoredHeading.values, stored, List.map_map]
  exact List.map_id _

@[simp] theorem keys_stored : heading.stored.keys = heading.allNames := by
  rw [StoredHeading.keys, stored, List.map_map]
  rfl

@[simp] theorem visible_stored : heading.stored.visible = heading.visible := by
  rw [StoredHeading.visible, values_stored]
  rfl

theorem lookup_stored (name : String) :
    heading.stored.lookup name = heading.attributes.find? (·.name = name) := by
  rw [StoredHeading.lookup, stored, List.find?_map, Option.map_map]
  exact Option.map_id'

@[simp] theorem get?_stored (name : String) : heading.stored.get? name = heading.get? name := by
  ext attr
  rw [StoredHeading.get?, lookup_stored, Option.filter_eq_some_iff,
    find?_name_eq_some heading.nodup, get?_eq_some, mem_visible, Bool.not_eq_true']
  tauto

@[simp] theorem contains_stored : heading.stored.contains = heading.contains := by
  funext name
  rw [StoredHeading.contains, get?_stored]
  rfl

@[simp] theorem renamings_stored (renames : Renames) :
    heading.stored.renamings renames = heading.renamings renames := by
  rw [StoredHeading.renamings, contains_stored]
  exact List.map_congr_left fun entry _ =>
    congrArg (Prod.mk entry.1) (heading.classify_eq entry.2).symm

theorem project_stored (selected : List String) (renames : Renames) (key : Option (List String)) :
    heading.stored.project selected renames key =
      (heading.project selected renames key).map Heading.stored := by
  unfold StoredHeading.project Heading.project
  rw [contains_stored, visible_stored, renamings_stored]
  cases selected.find? (!heading.contains ·) with
  | some missing => rfl
  | none =>
      dsimp only
      rw [StoredHeading.ofAttributes?_eq, map_mapError]

/-- Names that are shown are looked up in the same way with and without hidden attributes. -/
theorem rekey_stored (key : List String) :
    heading.stored.rekey key = (heading.rekey key).map Heading.stored := by
  unfold StoredHeading.rekey Heading.rekey
  rw [contains_stored, values_stored]
  cases unknown : key.find? (!heading.contains ·) with
  | some missing => rfl
  | none =>
      have shown := find?_unknown.1 unknown
      have found : key.filterMap heading.stored.lookup = key.filterMap heading.get? := by
        refine List.filterMap_congr fun name inside => ?_
        obtain ⟨attr, visible, named⟩ := mem_names.1 (shown name inside)
        rw [get?_eq_some.2 ⟨visible, named⟩, lookup_stored, find?_name_eq_some heading.nodup]
        exact ⟨(mem_visible.1 visible).1, named⟩
      dsimp only
      rw [found, StoredHeading.ofAttributes?_eq, map_mapError]

theorem asColumns_stored : heading.stored.asColumns = heading.asColumns.stored := by
  unfold StoredHeading.asColumns
  rw [stored, List.map_map, StoredHeading.collect_of_nodup]
  · rw [stored, asColumns, List.map_map]
    rfl
  · rw [List.map_map]
    exact heading.nodup

theorem visiblePart_stored : heading.stored.visiblePart = heading.visiblePart.stored := by
  unfold StoredHeading.visiblePart
  rw [stored, List.filter_map, StoredHeading.collect_of_nodup]
  · rfl
  · rw [List.map_map]
    exact heading.visiblePart.nodup

end Heading

section Joining

variable {key : List String}

/-- Attributes with different names stay outside the key unless their names were taken before. -/
theorem StoredHeading.foldl_addOther (before : List Attribute) {attrs : List Attribute}
    (distinct : (attrs.map Attribute.name).Nodup) :
    attrs.foldl (addOther key) before = before ++ (attrs.filter fun attr =>
        !key.contains attr.name && !(before.map Attribute.name).contains attr.name).map
          fun attr => { attr with inKey := false } := by
  induction attrs generalizing before with
  | nil => rw [List.foldl_nil, List.filter_nil, List.map_nil, List.append_nil]
  | cons attr rest ih =>
      obtain ⟨apart, others⟩ := List.nodup_cons.1 distinct
      have taken : before.any (·.name = attr.name) =
          (before.map Attribute.name).contains attr.name := by
        rw [Bool.eq_iff_iff, List.any_eq_true, List.contains_iff_mem, List.mem_map]
        simp only [decide_eq_true_eq]
      rw [List.foldl_cons, ih _ others, addOther, taken]
      cases refused : key.contains attr.name || (before.map Attribute.name).contains attr.name with
      | true =>
          rw [if_pos rfl, List.filter_cons_of_neg]
          rw [← Bool.not_or, refused]
          exact Bool.false_ne_true
      | false =>
          rw [if_neg Bool.false_ne_true, List.filter_cons_of_pos, List.map_cons,
            List.append_assoc, List.singleton_append]
          · congr 3
            refine List.filter_congr fun other inside => ?_
            have differs : attr.name ≠ other.name := fun same =>
              apart (same ▸ List.mem_map_of_mem inside)
            simp [differs.symm]
          · rw [← Bool.not_or, refused]
            rfl

theorem Heading.keySource?_stored (first second : Heading) (name : String) :
    first.stored.keySource? second.stored name = first.keySource? second name := by
  have found : [first.stored, second.stored].filterMap (·.get? name) =
      (first.get? name).toList ++ (second.get? name).toList := by
    simp only [List.filterMap_cons, List.filterMap_nil, get?_stored]
    cases first.get? name <;> cases second.get? name <;> rfl
  unfold StoredHeading.keySource? Heading.keySource?
  rw [found, get?_stored, get?_stored]
  cases first.get? name with
  | none =>
      cases second.get? name with
      | none => rfl
      | some attr => cases key : attr.inKey <;> simp [Option.filter_some, key]
  | some attr =>
      cases second.get? name with
      | none => cases key : attr.inKey <;> simp [Option.filter_some, key]
      | some other =>
          cases key : attr.inKey <;> cases key' : other.inKey <;>
            simp [Option.filter_some, key, key']

/-- The second heading adds the names that are neither in the key nor in the first heading. -/
theorem Heading.foldl_addOther_stored (first second : Heading) {keyed : List Attribute}
    (taken : key.mapM (first.keyed? second) = .ok keyed) :
    (first.attributes ++ second.attributes).foldl (StoredHeading.addOther key) keyed =
      keyed ++ first.unkeyed second key := by
  have named := (keyed_eq_ok taken).1
  rw [List.foldl_append, StoredHeading.foldl_addOther _ first.nodup,
    StoredHeading.foldl_addOther _ second.nodup, named, unkeyed, List.append_assoc]
  simp only [Bool.and_self]
  congr 1
  rw [List.map_append, List.map_append, map_name_moved, named]
  congr 2
  refine List.filter_congr fun attr _ => ?_
  rw [Bool.eq_iff_iff]
  simp only [Bool.and_eq_true, Bool.not_eq_true', List.contains_eq_mem, decide_eq_false_iff_not,
    List.mem_append, List.mem_map, List.mem_filter, allNames]
  refine and_congr_right fun outside => not_congr ⟨?_, ?_⟩
  · rintro (inKey | ⟨other, ⟨inside, _⟩, same⟩)
    · exact absurd inKey outside
    · exact ⟨other, inside, same⟩
  · rintro ⟨other, inside, same⟩
    exact .inr ⟨other, ⟨inside, same ▸ outside⟩, same⟩

theorem Heading.join_stored (first second : Heading) (key : List String) :
    first.stored.join second.stored key = (first.join second key).map Heading.stored := by
  have looked : (fun name => match first.stored.keySource? second.stored name with
      | some attr => Except.ok { attr with inKey := true }
      | none => .error (.unknownAttribute name)) = first.keyed? second := by
    funext name
    rw [keySource?_stored]
    rfl
  unfold StoredHeading.join
  rw [looked, join_eq, values_stored, values_stored]
  cases taken : key.mapM (first.keyed? second) with
  | error fault => rfl
  | ok keyed =>
      have added := foldl_addOther_stored first second taken
      show (StoredHeading.ofAttributes? _).mapError Fault.heading =
        ((Heading.ofAttributes? (keyed ++ first.unkeyed second key)).mapError Fault.heading).map
          Heading.stored
      rw [added, StoredHeading.ofAttributes?_eq, map_mapError]

end Joining

end QueryAlgebra
