/-
This file shows that a subquery is transparent. Every operator decides by itself whether it puts
its operand into a subquery, and it gives the same answer, up to expressions and to what is not
shown, for an operand that was put into one before.
-/
import QueryAlgebra.Proofs.AggregatedKey
import QueryAlgebra.Proofs.Relabelling

namespace QueryAlgebra

/-- The attributes that a heading shows, without their expressions. -/
def Heading.shown (heading : Heading) : List Attribute := heading.visible.map Attribute.asColumn

theorem Heading.showsAlike_iff {first second : Heading} :
    first.ShowsAlike second ↔ first.shown = second.shown := by
  refine ⟨fun alike => alike.columns, fun same => ⟨?_, ?_, same⟩⟩
  · have named := congrArg (List.map Attribute.name) same
    unfold shown at named
    rwa [List.map_map, List.map_map] at named
  · have keyed := congrArg (fun attrs => (attrs.filter (·.inKey)).map Attribute.name) same
    unfold shown at keyed
    simp only [List.filter_map, List.map_map] at keyed
    exact keyed

/-- Whether attributes form a heading does not depend on their expressions. -/
theorem firstFault_asColumn (attrs : List Attribute) (seen : List String) :
    firstFault seen (attrs.map Attribute.asColumn) = firstFault seen attrs := by
  induction attrs generalizing seen with
  | nil => rfl
  | cons attr rest ih =>
      rw [List.map_cons, firstFault, firstFault, ih]
      rfl

/-- What a heading shows depends on the columns that it is formed from. -/
theorem Heading.shown_ofAttributes (attrs : List Attribute) :
    (Heading.ofAttributes? attrs).map shown =
      match firstFault [] (keyOrder (attrs.map Attribute.asColumn)) with
      | some fault => .error fault
      | none => .ok ((keyOrder (attrs.map Attribute.asColumn)).filter (!·.hidden)) := by
  rw [← map_keyOrder Attribute.asColumn fun _ => rfl, firstFault_asColumn, List.filter_map]
  unfold ofAttributes?
  split <;> rename_i sound <;> simp only [sound] <;> rfl

/-- After the same check the same is seen. -/
theorem map_guard {ε α β : Type} {refused : Prop} [Decidable refused] {fault : ε}
    {next next' : Unit → Except ε α} {view : α → β}
    (rest : (next ()).map view = (next' ()).map view) :
    (if refused then (.error fault : Except ε Unit) >>= next else next ()).map view =
      (if refused then (.error fault : Except ε Unit) >>= next' else next' ()).map view := by
  split
  · rfl
  · exact rest

section Headings

variable {first second : Heading}

theorem Heading.ShowsAlike.secondary (alike : first.ShowsAlike second) :
    first.secondary = second.secondary := by
  have others :=
    congrArg (fun attrs => (attrs.filter (!·.inKey)).map Attribute.name) alike.columns
  simp only [List.filter_map, List.map_map] at others
  exact others

theorem Heading.ShowsAlike.contains (alike : first.ShowsAlike second) :
    first.contains = second.contains := by
  funext name
  rw [Bool.eq_iff_iff, contains_iff, contains_iff, alike.names]

theorem Heading.ShowsAlike.renamings (alike : first.ShowsAlike second) :
    first.renamings = second.renamings :=
  funext (renamings_congr fun _ => by rw [alike.names])

/-- Entries are selected from what a heading shows. -/
theorem Heading.ShowsAlike.selection (alike : first.ShowsAlike second) :
    first.selection = second.selection := by
  funext items renames kept
  unfold Heading.selection movedAttributes listedAttributes otherAttributes
  rw [alike.renamings, alike.contains, alike.secondary]

/-- The images of an attribute are the same columns, whatever its expression. -/
theorem Attribute.images_asColumn (attr : Attribute) (selected : List String)
    (renamings : List (String × Renaming)) :
    (attr.asColumn.images selected renamings).map Attribute.asColumn =
      (attr.images selected renamings).map Attribute.asColumn := by
  unfold images
  rw [List.map_append, List.map_append, List.map_map, List.map_map]
  congr 1
  show List.map _ (if attr.name ∈ selected then _ else _) = _
  split <;> rfl

theorem Heading.columns_produced (heading : Heading) (selected : List String) (renames : Renames) :
    (heading.produced selected renames).map Attribute.asColumn =
      heading.shown.flatMap (fun attr =>
          (attr.images selected (heading.renamings renames)).map Attribute.asColumn) ++
        ((heading.renamings renames).filterMap fun entry =>
          entry.2.computed? entry.1).map Attribute.asColumn := by
  have columns : ∀ attr ∈ heading.visible,
      (attr.images selected (heading.renamings renames)).map Attribute.asColumn = _ :=
    fun attr _ => (attr.images_asColumn selected (heading.renamings renames)).symm
  rw [produced, List.map_append, List.map_flatMap, List.flatMap_congr columns, shown,
    List.flatMap_map]

theorem Heading.ShowsAlike.produced (alike : first.ShowsAlike second) (selected : List String)
    (renames : Renames) : (first.produced selected renames).map Attribute.asColumn =
      (second.produced selected renames).map Attribute.asColumn := by
  rw [columns_produced, columns_produced, showsAlike_iff.1 alike, alike.renamings]

/-- A key is forced on columns as it is on attributes. -/
theorem columns_forceKey (key : List String) (attrs : List Attribute) :
    (forceKey key attrs).map Attribute.asColumn = forceKey key (attrs.map Attribute.asColumn) := by
  unfold forceKey
  simp only [List.map_append, List.map_flatMap, List.filter_map, List.map_map]
  rfl

theorem Heading.ShowsAlike.project (alike : first.ShowsAlike second) (selected : List String)
    (renames : Renames) (key : Option (List String)) :
    (first.project selected renames key).map shown =
      (second.project selected renames key).map shown := by
  have produced := alike.produced selected renames
  have forced : (key.elim (first.produced selected renames)
        (forceKey · (first.produced selected renames))).map Attribute.asColumn =
      (key.elim (second.produced selected renames)
        (forceKey · (second.produced selected renames))).map Attribute.asColumn := by
    cases key with
    | none => exact produced
    | some key => rw [Option.elim, Option.elim, columns_forceKey, columns_forceKey, produced]
  have headings : ((Heading.ofAttributes? (key.elim (first.produced selected renames)
        (forceKey · (first.produced selected renames)))).mapError Fault.heading).map shown =
      ((Heading.ofAttributes? (key.elim (second.produced selected renames)
        (forceKey · (second.produced selected renames)))).mapError Fault.heading).map shown := by
    rw [map_mapError, map_mapError, shown_ofAttributes, shown_ofAttributes, forced]
  unfold Heading.project
  rw [alike.contains]
  cases selected.find? (!second.contains ·) with
  | some missing => rfl
  | none => exact headings

theorem Heading.filterMap_get?_names (heading : Heading) :
    heading.names.filterMap heading.get? = heading.visible := by
  have found : ∀ attr ∈ heading.visible, (heading.get? ∘ Attribute.name) attr = some attr :=
    fun attr inside => get?_eq_some.2 ⟨inside, rfl⟩
  rw [names, List.filterMap_map, List.filterMap_congr found, List.filterMap_some]

/-- When all names become the key, nothing else changes in what is shown. -/
theorem Heading.visible_rekey_names {heading result : Heading}
    (built : heading.rekey heading.names = .ok result) :
    result.visible = heading.visible.map fun attr => { attr with inKey := true } := by
  have shown : ∀ attr ∈ heading.visible.map (fun attr => { attr with inKey := true }),
      (!attr.hidden) = true := by
    rw [List.forall_mem_map]
    exact fun attr inside => (List.mem_filter.1 inside).2
  have unshown : ∀ attr ∈ (heading.attributes.filter (!heading.names.contains ·.name)).map
      (fun attr => { attr with inKey := false }), ¬(!attr.hidden) = true := by
    rw [List.forall_mem_map]
    intro attr inside visible
    obtain ⟨member, unnamed⟩ := List.mem_filter.1 inside
    have named : attr.name ∈ heading.names :=
      List.mem_map_of_mem (List.mem_filter.2 ⟨member, visible⟩)
    simp [named] at unnamed
  rw [visible, attributes_rekey built, filterMap_get?_names, List.filter_append,
    List.filter_eq_self.2 shown, List.filter_eq_nil_iff.2 unshown, List.append_nil]

theorem Heading.shown_projectKeyed (heading : Heading) (selected : List String)
    (renames : Renames) (keepKey : Bool) :
    (heading.projectKeyed selected renames keepKey).map shown =
      ((heading.project selected renames none).map shown).map fun attrs =>
        if keepKey then attrs else attrs.map fun attr => { attr with inKey := true } := by
  unfold projectKeyed
  cases heading.project selected renames none with
  | error fault => rfl
  | ok projected =>
      cases keepKey with
      | true => rfl
      | false =>
          obtain ⟨result, built⟩ := exists_rekey.2 ⟨projected.nodup_names, fun _ => id⟩
          show (projected.rekey projected.names).map shown = .ok _
          rw [built]
          show Except.ok result.shown = _
          rw [shown, visible_rekey_names built]
          simp [shown, Attribute.asColumn]

theorem Heading.ShowsAlike.projectKeyed (alike : first.ShowsAlike second) (selected : List String)
    (renames : Renames) (keepKey : Bool) :
    (first.projectKeyed selected renames keepKey).map shown =
      (second.projectKeyed selected renames keepKey).map shown := by
  rw [shown_projectKeyed, shown_projectKeyed, alike.project]

end Headings

section Operators

/-- The attributes that an expression shows, without their expressions. -/
def Expression.shown (e : Expression) : List Attribute := e.heading.shown

theorem Expression.shown_asSubquery (e : Expression) : e.asSubquery.shown = e.shown :=
  Heading.showsAlike_iff.1 e.heading.showsAlike_asColumns

theorem Expression.shown_restrict (e : Expression) (restriction : Restriction) :
    (e.restrict restriction).map shown = (e.validate restriction).map fun _ => e.shown := by
  rw [restrict_eq]
  cases e.validate restriction with
  | error fault => rfl
  | ok compiled =>
      refine congrArg Except.ok ?_
      show (e.restrictedBy restriction compiled).shown = e.shown
      unfold restrictedBy
      split
      · rfl
      · exact Heading.showsAlike_iff.1 e.showsAlike_restrictedSource

theorem Expression.restrict_asSubquery (e : Expression) (restriction : Restriction) :
    (e.asSubquery.restrict restriction).map shown = (e.restrict restriction).map shown := by
  rw [shown_restrict, shown_restrict, validate_asSubquery, shown_asSubquery]

theorem Expression.showsAlike_projectedSource (e : Expression) (selected : List String)
    (renames : Renames) (keepKey : Bool) :
    (e.projectedSource selected renames keepKey).heading.ShowsAlike e.heading :=
  Heading.showsAlike_iff.2 (e.columns_projectedSource selected renames keepKey)

/-- What a projection shows is computed from what its source shows. -/
theorem Expression.shown_projectItems (e : Expression) (items : List ProjectionItem)
    (renames : Renames) (keepKey : Bool) :
    (e.projectItems items renames keepKey).map (fun result => (result.shown, result.distinct)) =
      (e.heading.selection items renames (if keepKey then e.heading.primaryKey else []) >>=
        fun selection => ((e.heading.projectKeyed selection.selected renames keepKey).map
          Heading.shown).map fun attrs =>
            (attrs, e.losesKey selection.selected renames keepKey)) := by
  rw [projectItems_eq]
  cases e.heading.selection items renames (if keepKey then e.heading.primaryKey else []) with
  | error fault => rfl
  | ok selection =>
      have alike := e.showsAlike_projectedSource selection.selected renames keepKey
      have same := alike.projectKeyed selection.selected renames keepKey
      dsimp only [bind, Except.bind]
      rw [← same]
      cases (e.projectedSource selection.selected renames keepKey).heading.projectKeyed
        selection.selected renames keepKey <;> rfl

theorem Expression.projectItems_asSubquery (e : Expression) (items : List ProjectionItem)
    (renames : Renames) (keepKey : Bool) :
    (e.asSubquery.projectItems items renames keepKey).map
        (fun result => (result.shown, result.distinct)) =
      (e.projectItems items renames keepKey).map
        (fun result => (result.shown, result.distinct)) := by
  have alike := e.heading.showsAlike_asColumns
  have key : e.asSubquery.heading.primaryKey = e.heading.primaryKey := alike.primaryKey
  have lost : e.asSubquery.losesKey = e.losesKey := by
    funext selected renames keepKey
    unfold losesKey Heading.retained
    rw [key]
    show (_ && !(_ : List String).all
      (_ ++ (e.heading.asColumns.visiblePart.renamings renames).filterMap _).contains) = _
    rw [alike.renamings]
  rw [shown_projectItems, shown_projectItems, key, lost]
  show (e.heading.asColumns.visiblePart.selection _ _ _ >>= fun selection =>
    ((e.heading.asColumns.visiblePart.projectKeyed _ _ _).map _).map _) = _
  rw [alike.selection]
  simp only [alike.projectKeyed]

theorem Expression.showsAlike_groupedSource (e : Expression) :
    e.groupedSource.heading.ShowsAlike e.heading := by
  unfold groupedSource
  split
  · exact e.heading.showsAlike_asColumns
  · exact ⟨rfl, rfl, rfl⟩

theorem Expression.shown_groupOver (e : Expression) (key : List String) (renames : Renames) :
    (e.groupOver key renames).map shown =
      (e.heading.project key renames (some key)).map Heading.shown := by
  rw [← e.showsAlike_groupedSource.project key renames (some key)]
  unfold groupOver
  show (e.groupedSource.heading.project key renames (some key) >>= _).map shown = _
  cases e.groupedSource.heading.project key renames (some key) <;> rfl

/-- A union asks for the sessions of its operands and for what they show. -/
theorem Expression.union_congr {left right left' right' : Expression}
    (session : left.session = left'.session) (session' : right.session = right'.session)
    (alike : left.heading.ShowsAlike left'.heading)
    (alike' : right.heading.ShowsAlike right'.heading) :
    (left.union right).map shown = (left'.union right').map shown := by
  have united : left.heading.asColumns.visiblePart.shown =
      left'.heading.asColumns.visiblePart.shown := by
    rw [Heading.showsAlike_iff.1 left.heading.showsAlike_asColumns,
      Heading.showsAlike_iff.1 left'.heading.showsAlike_asColumns, Heading.showsAlike_iff.1 alike]
  unfold union
  rw [session, session', alike.names, alike'.names, alike.secondary, alike'.secondary]
  refine map_guard (map_guard (map_guard (map_guard ?_)))
  exact congrArg Except.ok united

/-- Restriction, projection, union and grouping do not see whether an operand was put into a
subquery: they refuse alike, and what the results show is alike. -/
theorem Expression.subquery_transparent (e : Expression) :
    (∀ restriction, (e.asSubquery.restrict restriction).map shown =
      (e.restrict restriction).map shown) ∧
    (∀ items renames keepKey,
      (e.asSubquery.projectItems items renames keepKey).map (fun r => (r.shown, r.distinct)) =
        (e.projectItems items renames keepKey).map (fun r => (r.shown, r.distinct))) ∧
    (∀ other, (e.asSubquery.union other).map shown = (e.union other).map shown ∧
      (other.union e.asSubquery).map shown = (other.union e).map shown) ∧
    ∀ key renames, (e.asSubquery.groupOver key renames).map shown =
      (e.groupOver key renames).map shown := by
  have alike : e.asSubquery.heading.ShowsAlike e.heading := e.heading.showsAlike_asColumns
  refine ⟨e.restrict_asSubquery, e.projectItems_asSubquery, fun other => ⟨?_, ?_⟩, ?_⟩
  · exact union_congr rfl rfl alike ⟨rfl, rfl, rfl⟩
  · exact union_congr rfl rfl ⟨rfl, rfl, rfl⟩ alike
  · intro key renames
    rw [shown_groupOver, shown_groupOver, alike.project]

end Operators

end QueryAlgebra
