/-
This file describes the key and the attributes of a joined heading. Any key of shown names can be
given to it, and it is the key of the result.
-/
import QueryAlgebra.Proofs.HeadingOrder

namespace QueryAlgebra

theorem Heading.primaryKey_eq (heading : Heading) :
    heading.primaryKey = (heading.attributes.filter (·.inKey)).map Attribute.name := by
  rw [primaryKey, visible, List.filter_filter]
  congr 1
  apply List.filter_congr
  intro attr inside
  cases key : attr.inKey with
  | false => rfl
  | true => rw [heading.visibleKey attr inside key, Bool.true_and, Bool.not_false]

theorem Heading.nodup_primaryKey (heading : Heading) : heading.primaryKey.Nodup := by
  rw [primaryKey_eq]
  exact heading.nodup.sublist (List.filter_sublist.map _)

theorem filter_keyOrder (attrs : List Attribute) :
    (keyOrder attrs).filter (·.inKey) = attrs.filter (·.inKey) := by
  simp [keyOrder, List.filter_filter]

section Moved

variable (inKey : Bool) (attrs : List Attribute)

/-- Attributes that enter or leave the key keep their names. -/
theorem map_name_moved :
    (attrs.map fun attr => { attr with inKey := inKey }).map Attribute.name =
      attrs.map Attribute.name := by
  rw [List.map_map]
  rfl

theorem filter_shown_moved :
    (attrs.map fun attr => { attr with inKey := inKey }).filter (!·.hidden) =
      (attrs.filter (!·.hidden)).map fun attr => { attr with inKey := inKey } := by
  rw [List.filter_map]
  rfl

theorem filter_hidden_moved :
    (attrs.map fun attr => { attr with inKey := inKey }).filter (·.hidden) =
      (attrs.filter (·.hidden)).map fun attr => { attr with inKey := inKey } := by
  rw [List.filter_map]
  rfl

end Moved

section Headings

variable {first second : Heading} {key : List String}

/-- A name of either heading stands for some attribute of a join. -/
theorem Heading.keySource?_eq_none {name : String} :
    first.keySource? second name = none ↔ name ∉ first.names ∧ name ∉ second.names := by
  unfold keySource?
  simp only [Option.orElse_eq_or, Option.or_eq_none_iff, Option.filter_eq_none_iff, get?_eq_none]
  constructor
  · rintro ⟨_, _, outside, apart⟩
    exact ⟨outside, apart⟩
  · rintro ⟨outside, apart⟩
    simp [get?_eq_none.2 outside, get?_eq_none.2 apart, outside, apart]

/-- The attribute of a join that a name of its key stands for. -/
def Heading.keyed? (first second : Heading) (name : String) : Except Fault Attribute :=
  match first.keySource? second name with
  | some attr => .ok { attr with inKey := true }
  | none => .error (.unknownAttribute name)

theorem Heading.keyed?_eq_ok {name : String} {attr : Attribute}
    (taken : first.keyed? second name = .ok attr) :
    attr.name = name ∧ attr.inKey = true ∧ attr.hidden = false := by
  unfold keyed? at taken
  cases found : first.keySource? second name with
  | none =>
      rw [found] at taken
      contradiction
  | some origin =>
      rw [found] at taken
      obtain ⟨source, named⟩ := keySource?_eq_some found
      rw [← Except.ok.inj taken]
      exact ⟨named, rfl, source.elim (mem_visible.1 · |>.2) (mem_visible.1 · |>.2)⟩

theorem Heading.exists_keyed {name : String} (shown : name ∈ first.names ∨ name ∈ second.names) :
    ∃ attr, first.keyed? second name = .ok attr := by
  unfold keyed?
  cases found : first.keySource? second name with
  | none =>
      obtain ⟨outside, apart⟩ := keySource?_eq_none.1 found
      exact absurd shown (not_or.2 ⟨outside, apart⟩)
  | some origin => exact ⟨_, rfl⟩

/-- The attributes of a join that stay outside its key. -/
def Heading.unkeyed (first second : Heading) (key : List String) : List Attribute :=
  (first.attributes.filter (!key.contains ·.name) ++
    second.attributes.filter fun attr =>
      !key.contains attr.name && !first.allNames.contains attr.name).map
        fun attr => { attr with inKey := false }

theorem Heading.join_eq (first second : Heading) (key : List String) :
    first.join second key = (key.mapM (first.keyed? second) >>= fun keyed =>
      (Heading.ofAttributes? (keyed ++ first.unkeyed second key)).mapError .heading) := rfl

theorem Heading.not_mem_key_of_unkeyed {attr : Attribute}
    (inside : attr ∈ first.unkeyed second key) : attr.name ∉ key ∧ attr.inKey = false := by
  obtain ⟨origin, member, rfl⟩ := List.mem_map.1 inside
  refine ⟨?_, rfl⟩
  rcases List.mem_append.1 member with left | right
  · simpa using (List.mem_filter.1 left).2
  · have outside := (List.mem_filter.1 right).2
    simp only [Bool.and_eq_true, Bool.not_eq_true', List.contains_eq_mem,
      decide_eq_false_iff_not] at outside
    exact outside.1

theorem Heading.nodup_unkeyed (first second : Heading) (key : List String) :
    ((first.unkeyed second key).map Attribute.name).Nodup := by
  rw [unkeyed, map_name_moved, List.map_append, List.nodup_append]
  refine ⟨first.nodup.sublist (List.filter_sublist.map _),
    second.nodup.sublist (List.filter_sublist.map _), ?_⟩
  intro name left other right same
  obtain ⟨attr, member, rfl⟩ := List.mem_map.1 left
  obtain ⟨stranger, member', rfl⟩ := List.mem_map.1 right
  have known : attr.name ∈ first.allNames := List.mem_map_of_mem (List.mem_filter.1 member).1
  have unknown := (List.mem_filter.1 member').2
  simp only [Bool.and_eq_true, Bool.not_eq_true', List.contains_eq_mem,
    decide_eq_false_iff_not] at unknown
  exact unknown.2 (same ▸ known)

/-- The key of a join consists of shown attributes in the order of the given names. -/
theorem Heading.keyed_eq_ok {keyed : List Attribute}
    (taken : key.mapM (first.keyed? second) = .ok keyed) :
    keyed.map Attribute.name = key ∧ ∀ attr ∈ keyed, attr.inKey = true ∧ attr.hidden = false := by
  have each := mapM_eq_ok.1 taken
  clear taken
  induction each with
  | nil => exact ⟨rfl, List.forall_mem_nil _⟩
  | cons head _ ih =>
      obtain ⟨named, inKey, visible⟩ := keyed?_eq_ok head
      obtain ⟨names, others⟩ := ih
      exact ⟨by rw [List.map_cons, named, names],
        List.forall_mem_cons.2 ⟨⟨inKey, visible⟩, others⟩⟩

/-- Headings are joined on any key whose names differ and are shown by either of them. -/
theorem Heading.exists_join (distinct : key.Nodup)
    (shown : ∀ name ∈ key, name ∈ first.names ∨ name ∈ second.names) :
    ∃ result, first.join second key = .ok result := by
  obtain ⟨keyed, taken⟩ := exists_mapM fun name inside => exists_keyed (shown name inside)
  obtain ⟨names, visible⟩ := keyed_eq_ok taken
  have sound : ∃ result,
      Heading.ofAttributes? (keyed ++ first.unkeyed second key) = .ok result := by
    apply exists_ofAttributes.2
    constructor
    · rw [List.map_append, names, List.nodup_append]
      refine ⟨distinct, first.nodup_unkeyed second key, ?_⟩
      intro name inside other member same
      obtain ⟨attr, outside, rfl⟩ := List.mem_map.1 member
      exact (not_mem_key_of_unkeyed outside).1 (same ▸ inside)
    · intro attr inside inKey
      rcases List.mem_append.1 inside with known | outside
      · exact (visible attr known).2
      · rw [(not_mem_key_of_unkeyed outside).2] at inKey
        contradiction
  obtain ⟨result, built⟩ := sound
  refine ⟨result, ?_⟩
  rw [join_eq, taken]
  exact mapError_eq_ok.2 built

/-- The key of a join is the given one. -/
theorem Heading.primaryKey_join {result : Heading}
    (built : first.join second key = .ok result) : result.primaryKey = key := by
  rw [join_eq] at built
  obtain ⟨keyed, taken, built⟩ := bind_eq_ok.1 built
  obtain ⟨names, visible⟩ := keyed_eq_ok taken
  have chosen : keyed.filter (·.inKey) = keyed :=
    List.filter_eq_self.2 fun attr inside => (visible attr inside).1
  have others : (first.unkeyed second key).filter (·.inKey) = [] := by
    rw [List.filter_eq_nil_iff]
    intro attr outside inKey
    rw [(not_mem_key_of_unkeyed outside).2] at inKey
    contradiction
  rw [primaryKey_eq, attributes_ofAttributes (mapError_eq_ok.1 built), filter_keyOrder,
    List.filter_append, chosen, others, List.append_nil, names]

theorem Heading.nodup_joinKey (left right : Heading) : (left.joinKey right).Nodup := by
  unfold joinKey
  split
  · exact left.nodup_primaryKey
  · split
    · exact right.nodup_primaryKey
    · rw [List.nodup_append]
      refine ⟨left.nodup_primaryKey, right.nodup_primaryKey.filter _, ?_⟩
      intro name inside other member same
      have outside := (List.mem_filter.1 member).2
      rw [Bool.not_eq_true', List.contains_eq_mem, decide_eq_false_iff_not] at outside
      exact outside (same ▸ inside)

theorem Heading.names_of_joinKey {left right : Heading} {name : String}
    (inside : name ∈ left.joinKey right) : name ∈ left.names ∨ name ∈ right.names := by
  unfold joinKey at inside
  split at inside
  · exact .inl (names_of_primaryKey inside)
  · split at inside
    · exact .inr (names_of_primaryKey inside)
    · rcases List.mem_append.1 inside with first | second
      · exact .inl (names_of_primaryKey first)
      · exact .inr (names_of_primaryKey (List.mem_filter.1 second).1)

end Headings

/-- A join has the key that its operands give it. -/
theorem Expression.Joins.primaryKey_eq {left right result : Expression} {mode : JoinMode}
    (joins : left.Joins right mode result) :
    result.heading.primaryKey = left.heading.joinKey right.heading :=
  Heading.primaryKey_join joins.heading

end QueryAlgebra
