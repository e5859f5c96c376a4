/-
This file defines headings, the ordered attributes of a relation.
-/
import QueryAlgebra.Attribute
import QueryAlgebra.Fault

namespace QueryAlgebra

/-- Every name occurs once, key attributes are visible and precede all others. -/
structure Heading where
  attributes : List Attribute
  nodup : (attributes.map Attribute.name).Nodup
  visibleKey : ∀ attr ∈ attributes, attr.inKey → attr.hidden = false
  keyFirst : attributes.Pairwise fun earlier later => later.inKey → earlier.inKey

def Heading.empty : Heading := ⟨[], by simp, by simp, by simp⟩

/-- Two headings with the same attributes in different orders are equal. -/
instance : BEq Heading :=
  ⟨fun first second => first.attributes.length == second.attributes.length &&
    first.attributes.all second.attributes.contains⟩

/-- The first attribute in order that breaks a rule is reported. -/
def firstFault (seen : List String) : List Attribute → Option HeadingFault
  | [] => none
  | attr :: rest =>
      if attr.inKey && attr.hidden then some (.hiddenKey attr.name)
      else if attr.name ∈ seen then some (.duplicate attr.name)
      else firstFault (attr.name :: seen) rest

theorem firstFault_none {attrs : List Attribute} {seen : List String}
    (sound : firstFault seen attrs = none) :
    (attrs.map Attribute.name).Nodup ∧
      (∀ attr ∈ attrs, attr.inKey → attr.hidden = false) ∧
      ∀ attr ∈ attrs, attr.name ∉ seen := by
  induction attrs generalizing seen with
  | nil => simp
  | cons attr rest ih =>
      unfold firstFault at sound
      split at sound
      · contradiction
      · split at sound
        · contradiction
        · rename_i open' fresh
          obtain ⟨nodup, visible, apart⟩ := ih sound
          refine ⟨?_, ?_, ?_⟩
          · rw [List.map_cons, List.nodup_cons]
            refine ⟨fun inside => ?_, nodup⟩
            obtain ⟨other, member, same⟩ := List.mem_map.1 inside
            exact apart other member (same ▸ List.mem_cons_self)
          · intro other member key
            rcases List.mem_cons.1 member with rfl | member
            · simpa [key] using open'
            · exact visible other member key
          · intro other member
            rcases List.mem_cons.1 member with rfl | member
            · exact fresh
            · exact fun inside => apart other member (List.mem_cons_of_mem _ inside)

/-- Key attributes move to the front, and both groups keep their order. -/
def keyOrder (attrs : List Attribute) : List Attribute :=
  attrs.filter (·.inKey) ++ attrs.filter (!·.inKey)

theorem pairwise_keyOrder (attrs : List Attribute) :
    (keyOrder attrs).Pairwise fun earlier later => later.inKey → earlier.inKey := by
  refine List.pairwise_append.2 ⟨?_, ?_, ?_⟩
  · exact List.pairwise_filter.2 (List.pairwise_of_forall fun _ _ key _ _ => key)
  · refine List.pairwise_filter.2 (List.pairwise_of_forall fun _ _ _ other key => ?_)
    simp [key] at other
  · intro earlier inside later _ _
    exact (List.mem_filter.1 inside).2

def Heading.ofAttributes? (attrs : List Attribute) : Except HeadingFault Heading :=
  match sound : firstFault [] (keyOrder attrs) with
  | some fault => .error fault
  | none =>
      .ok ⟨keyOrder attrs, (firstFault_none sound).1, (firstFault_none sound).2.1,
        pairwise_keyOrder attrs⟩

/-- Hidden attributes are carried but never listed. -/
def Heading.visible (heading : Heading) : List Attribute :=
  heading.attributes.filter (!·.hidden)

def Heading.names (heading : Heading) : List String := heading.visible.map Attribute.name

def Heading.allNames (heading : Heading) : List String := heading.attributes.map Attribute.name

def Heading.primaryKey (heading : Heading) : List String :=
  (heading.visible.filter (·.inKey)).map Attribute.name

def Heading.secondary (heading : Heading) : List String :=
  (heading.visible.filter (!·.inKey)).map Attribute.name

def Heading.derived (heading : Heading) : List String :=
  (heading.visible.filter Attribute.derived).map Attribute.name

def Heading.hasDerived (heading : Heading) : Bool := heading.visible.any Attribute.derived

def Heading.get? (heading : Heading) (name : String) : Option Attribute :=
  heading.visible.find? (·.name = name)

def Heading.contains (heading : Heading) (name : String) : Bool := (heading.get? name).isSome

theorem Heading.contains_iff (heading : Heading) (name : String) :
    heading.contains name ↔ name ∈ heading.names := by
  simp [contains, get?, names, List.find?_isSome]

/-- A subquery presents its derived attributes as columns. -/
def Heading.asColumns (heading : Heading) : Heading where
  attributes := heading.attributes.map Attribute.asColumn
  nodup := by
    have same : Attribute.name ∘ Attribute.asColumn = Attribute.name := rfl
    rw [List.map_map, same]
    exact heading.nodup
  visibleKey := by
    intro attr inside key
    obtain ⟨origin, member, rfl⟩ := List.mem_map.1 inside
    exact heading.visibleKey origin member key
  keyFirst := List.pairwise_map.2 heading.keyFirst

def Heading.visiblePart (heading : Heading) : Heading where
  attributes := heading.visible
  nodup := heading.nodup.sublist (List.filter_sublist.map _)
  visibleKey := fun attr inside => heading.visibleKey attr (List.mem_filter.1 inside).1
  keyFirst := heading.keyFirst.sublist List.filter_sublist

/-- Without a choice of fields all visible attributes are selected.
The first field that is no visible attribute is reported. -/
def Heading.select? (heading : Heading) :
    Option (List String) → Except Fault (List SelectItem)
  | none => .ok (heading.visible.map Attribute.item)
  | some fields => fields.mapM fun field =>
      match heading.get? field with
      | some attr => .ok attr.item
      | none => .error (.unknownAttribute field)

end QueryAlgebra
