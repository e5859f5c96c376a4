/-
This file lists the attributes that a join shows. They are those of both operands, unless a hidden
attribute of the left operand stands in the way of one that the right operand renames or computes.
-/
import QueryAlgebra.Proofs.JoinColumns
import QueryAlgebra.Proofs.JoinedHeading

namespace QueryAlgebra

section Headings

variable {first second result : Heading} {key : List String}

/-- The key of a join precedes the attributes that stay outside of it. -/
theorem Heading.attributes_join (built : first.join second key = .ok result) :
    ∃ keyed, key.mapM (first.keyed? second) = .ok keyed ∧
      result.attributes = keyed ++ first.unkeyed second key := by
  rw [join_eq] at built
  obtain ⟨keyed, taken, built⟩ := bind_eq_ok.1 built
  refine ⟨keyed, taken, ?_⟩
  rw [attributes_ofAttributes (mapError_eq_ok.1 built)]
  refine keyOrder_eq_self (List.pairwise_append.2 ⟨?_, ?_, ?_⟩)
  · exact List.pairwise_of_forall_mem_list fun earlier inside _ _ _ =>
      ((keyed_eq_ok taken).2 earlier inside).1
  · refine List.pairwise_of_forall_mem_list fun _ _ later outside inKey => ?_
    rw [(not_mem_key_of_unkeyed outside).2] at inKey
    contradiction
  · exact fun earlier inside _ _ _ => ((keyed_eq_ok taken).2 earlier inside).1

/-- What is shown outside the key of a join, first what the first heading shows. -/
theorem Heading.names_unkeyed (first second : Heading) (key : List String) :
    ((first.unkeyed second key).filter (!·.hidden)).map Attribute.name =
      first.names.filter (!key.contains ·) ++
        second.names.filter fun name => !key.contains name && !first.allNames.contains name := by
  rw [unkeyed, filter_shown_moved, map_name_moved, List.filter_append, List.map_append, names, names, List.filter_map, List.filter_map, visible, visible, List.filter_filter,
    List.filter_filter, List.filter_filter, List.filter_filter]
  simp only [Function.comp_def, Bool.and_comm]

/-- A join shows its key, then what remains of the first heading and of the second, but no
attribute of the second heading that has a namesake in the first, hidden or not. -/
theorem Heading.names_eq_of_join (built : first.join second key = .ok result) :
    result.names = key ++ first.names.filter (!key.contains ·) ++
      second.names.filter fun name => !key.contains name && !first.allNames.contains name := by
  obtain ⟨keyed, taken, attributes⟩ := attributes_join built
  obtain ⟨named, shown⟩ := keyed_eq_ok taken
  have all : keyed.filter (!·.hidden) = keyed :=
    List.filter_eq_self.2 fun attr inside => by rw [(shown attr inside).2]; rfl
  rw [names, visible, attributes, List.filter_append, List.map_append, all, named, names_unkeyed,
    List.append_assoc]

end Headings

/-- The hidden attributes are columns of the FROM clause. -/
def Expression.ReadsHidden (e : Expression) : Prop :=
  ∀ attr ∈ e.heading.attributes, attr.hidden = true → attr.name ∈ e.columns.allNames

theorem Expression.readsHidden_of_eq {e : Expression} (same : e.columns = e.heading) :
    e.ReadsHidden := by
  intro attr inside _
  rw [same]
  exact Heading.mem_allNames.2 ⟨attr, inside, rfl⟩

theorem Expression.ReadsHidden.joinOperand {e : Expression} (reads : e.ReadsHidden)
    (overlapping : Bool) : (e.joinOperand overlapping).ReadsHidden := by
  rcases e.joinOperand_cases overlapping with wrapped | ⟨direct, _⟩
  · rw [wrapped]
    exact readsHidden_of_eq rfl
  · rwa [direct]

/-- What a join hides was hidden by one of its operands. -/
theorem Expression.Joins.readsHidden {left right result : Expression} {mode : JoinMode}
    (joins : left.Joins right mode result) (first : left.ReadsHidden)
    (second : right.ReadsHidden) : result.ReadsHidden := by
  intro attr inside hidden
  obtain ⟨origin, source, rfl⟩ := Heading.origin_of_join joins.heading inside
  rw [Heading.allNames_join joins.columns]
  exact source.imp (first.joinOperand _ origin · hidden) (second.joinOperand _ origin · hidden)

/-- Every hidden attribute of a reachable expression is a column. -/
theorem Reachable.readsHidden {sessions : Session → Prop} {e : Expression}
    (reached : Reachable sessions e) : e.ReadsHidden := by
  induction reached with
  | table _ built =>
      obtain ⟨heading, _, rfl⟩ := Expression.ofTable_ok built
      exact Expression.readsHidden_of_eq rfl
  | restrict _ _ built ih =>
      exact Expression.restrict_preserves built ih (Expression.readsHidden_of_eq rfl) fun _ _ => id
  | restrictDirectly _ _ built ih =>
      exact Expression.restrictDirectly_preserves built ih fun _ => id
  | join _ _ built first second => exact (Expression.joinAs_ok built).readsHidden first second
  | project _ built _ =>
      obtain ⟨selection, projects⟩ := Expression.projectItems_ok built
      intro attr inside hidden
      -- a projection hides nothing
      have shown := Heading.visible_of_projectKeyed projects.heading inside
      rw [(Heading.mem_visible.1 shown).2] at hidden
      contradiction
  | aggregate _ _ built _ _ =>
      obtain ⟨joined, _, _, _, _, _, _, _, rfl⟩ := Expression.aggregateItems_ok built
      exact Expression.readsHidden_of_eq rfl
  | groupOver _ built _ =>
      obtain ⟨heading, _, rfl⟩ := Expression.groupOver_ok built
      exact Expression.readsHidden_of_eq rfl
  | union _ _ built _ _ =>
      obtain ⟨_, _, _, _, rfl⟩ := Expression.union_ok built
      exact Expression.readsHidden_of_eq rfl
  | subquery _ _ => exact Expression.readsHidden_of_eq rfl

/-- A hidden attribute of `e`, which a join reads directly, has the name of an attribute that
`other` derives and that is not in the key of the join. -/
def Expression.Eclipses (e other : Expression) (name : String) : Prop :=
  e.ReadDirectly (e.overlaps other) ∧ name ∈ e.heading.allNames ∧ name ∉ e.heading.names ∧
    name ∈ other.heading.derived ∧ name ∉ e.heading.joinKey other.heading

section Joining

variable {sessions : Session → Prop} {left right result : Expression} {mode : JoinMode}

/-- Only an operand that is read directly keeps its hidden attributes. -/
theorem Expression.mem_allNames_joinedLeft {name : String} :
    name ∈ (left.joinedLeft right).heading.allNames ↔ name ∈ left.heading.names ∨
      left.ReadDirectly (left.overlaps right) ∧ name ∈ left.heading.allNames := by
  unfold joinedLeft
  by_cases direct : left.ReadDirectly (left.overlaps right)
  · rw [joinOperand_of_direct direct]
    exact ⟨fun inside => .inr ⟨direct, inside⟩,
      fun either => either.elim Heading.allNames_of_names And.right⟩
  · rw [joinOperand_of_wrapped direct]
    have bare : left.asSubquery.heading.allNames = left.heading.names :=
      left.heading.allNames_asColumns
    rw [bare]
    exact ⟨.inl, fun either => either.elim id fun wrapped => absurd wrapped.1 direct⟩

/-- A namesake that is no shown attribute of the left operand eclipses the right one. A column of
the right operand would overlap, so the eclipsed attribute is derived. -/
theorem Reachable.eclipses_iff (first : Reachable sessions left)
    (second : Reachable sessions right) {name : String} (shown : name ∈ right.heading.names)
    (outside : name ∉ left.heading.joinKey right.heading) :
    name ∈ (left.joinedLeft right).heading.allNames ↔
      name ∈ left.heading.names ∨ left.Eclipses right name := by
  rw [Expression.mem_allNames_joinedLeft]
  constructor
  · rintro (common | ⟨direct, stored⟩)
    · exact .inl common
    · by_cases common : name ∈ left.heading.names
      · exact .inl common
      · refine .inr ⟨direct, stored, common, ?_, outside⟩
        refine second.readsColumns.derived shown fun column => common ?_
        obtain ⟨attr, inside, rfl⟩ := Heading.mem_allNames.1 stored
        have hidden : attr.hidden = true := by
          by_contra visible
          exact common (Heading.mem_names.2
            ⟨attr, Heading.mem_visible.2 ⟨inside, by simpa using visible⟩, rfl⟩)
        exact (Expression.overlaps_eq_false.1 direct.1 attr.name
          (first.readsHidden attr inside hidden) column).1
  · rintro (common | ⟨direct, stored, _⟩)
    · exact .inl common
    · exact .inr ⟨direct, stored⟩

theorem Expression.Joins.names_eq (joins : left.Joins right mode result) :
    result.heading.names = result.heading.primaryKey ++
      left.heading.names.filter (!result.heading.primaryKey.contains ·) ++
        right.heading.names.filter fun name => !result.heading.primaryKey.contains name &&
          !(left.joinedLeft right).heading.allNames.contains name := by
  have lefts : (left.joinedLeft right).heading.names = left.heading.names :=
    left.names_joinOperand _
  have rights : (left.joinedRight right).heading.names = right.heading.names :=
    right.names_joinOperand _
  rw [joins.primaryKey_eq, Heading.names_eq_of_join joins.heading, lefts, rights]

/-- A join shows what its operands show, except for what is eclipsed. -/
theorem Expression.Joins.mem_names_iff (joins : left.Joins right mode result)
    (first : Reachable sessions left) (second : Reachable sessions right) {name : String} :
    name ∈ result.heading.names ↔
      name ∈ left.heading.names ∨ name ∈ right.heading.names ∧ ¬ left.Eclipses right name := by
  rw [joins.names_eq, joins.primaryKey_eq]
  simp only [List.mem_append, List.mem_filter, Bool.and_eq_true, Bool.not_eq_true',
    List.contains_eq_mem, decide_eq_false_iff_not]
  by_cases inKey : name ∈ left.heading.joinKey right.heading
  · have uneclipsed : ¬ left.Eclipses right name := fun eclipses => eclipses.2.2.2.2 inKey
    have shown := Heading.names_of_joinKey inKey
    tauto
  · by_cases shown : name ∈ right.heading.names
    · have stored := first.eclipses_iff second shown inKey
      tauto
    · tauto

/-- A join shows each attribute once, and all that its operands show except for what a hidden
attribute of the left operand eclipses. If and only if nothing is eclipsed, the key comes first,
then what remains of the left operand and then what remains of the right one. -/
theorem Expression.joinAs_shows_all_iff (first : Reachable sessions left)
    (second : Reachable sessions right) (built : left.joinAs right mode = .ok result) :
    result.heading.names.Nodup ∧
      (∀ name, name ∈ result.heading.names ↔
        name ∈ left.heading.names ∨ name ∈ right.heading.names ∧ ¬ left.Eclipses right name) ∧
      (result.heading.names = result.heading.primaryKey ++
          left.heading.names.filter (!result.heading.primaryKey.contains ·) ++
            right.heading.names.filter (fun name => !result.heading.primaryKey.contains name &&
              !left.heading.names.contains name) ↔
        ∀ name, ¬ left.Eclipses right name) := by
  have joins := joinAs_ok built
  have members : ∀ name, name ∈ result.heading.names ↔
      name ∈ left.heading.names ∨ name ∈ right.heading.names ∧ ¬ left.Eclipses right name :=
    fun _ => joins.mem_names_iff first second
  refine ⟨result.heading.nodup_names, members, ?_, ?_⟩
  · intro listed name eclipses
    have shown := Heading.names_of_derived eclipses.2.2.2.1
    have there : name ∈ result.heading.names := by
      rw [listed]
      refine List.mem_append_right _ (List.mem_filter.2 ⟨shown, ?_⟩)
      rw [joins.primaryKey_eq]
      simpa using ⟨eclipses.2.2.2.2, eclipses.2.2.1⟩
    exact ((members name).1 there).elim eclipses.2.2.1 fun right => right.2 eclipses
  · intro free
    rw [joins.names_eq]
    congr 1
    refine List.filter_congr fun name shown => ?_
    rw [joins.primaryKey_eq]
    by_cases inKey : name ∈ left.heading.joinKey right.heading
    · simp [inKey]
    · have stored := first.eclipses_iff second shown inKey
      rw [or_iff_left (free name)] at stored
      simp [stored]

end Joining

/-- A computed label is eclipsed by nothing, so the join of the entries with it shows it. -/
theorem Expression.joinAs_shows_all_of_label :
    ∃ left right result, Reachable (· = laboratory) left ∧ Reachable (· = laboratory) right ∧
      left.joinAs right ⟨false, true, true⟩ = .ok result ∧
      result.heading.names = ["subject_id", "entry", "label"] := by
  have subjects := @Reachable.table (· = laboratory) laboratory subjectDeclaration _ rfl rfl
  have labelled := @Reachable.project (· = laboratory) _ _ []
    (Renames.ofList [("label", "upper(species)")]) true subjects rfl
  have entries := @Reachable.table (· = laboratory) laboratory logDeclaration _ rfl rfl
  obtain ⟨_, _, listed⟩ :=
    @joinAs_shows_all_iff (· = laboratory) _ _ _ ⟨false, true, true⟩ entries labelled rfl
  refine ⟨_, _, _, entries, labelled, rfl, (listed.2 ?_).trans (by decide +kernel)⟩
  rintro name ⟨_, stored, unshown, derived, _⟩
  have label : name = "label" := List.mem_singleton.1 derived
  rw [label] at stored
  revert stored
  decide +kernel

/-- The hidden tag of the entries eclipses a computed tag, and the join shows none. -/
theorem Expression.joinAs_loses_tag :
    ∃ left right result, Reachable (· = laboratory) left ∧ Reachable (· = laboratory) right ∧
      left.joinAs right ⟨false, true, true⟩ = .ok result ∧
      "tag" ∈ right.heading.names ∧ "tag" ∉ result.heading.names := by
  have subjects := @Reachable.table (· = laboratory) laboratory subjectDeclaration _ rfl rfl
  have tagged := @Reachable.project (· = laboratory) _ _ []
    (Renames.ofList [("tag", "upper(species)")]) true subjects rfl
  have entries := @Reachable.table (· = laboratory) laboratory logDeclaration _ rfl rfl
  exact ⟨_, _, _, entries, tagged, rfl, by decide +kernel, by decide +kernel⟩

end QueryAlgebra
