/-
This file shows what the names of a GROUP BY clause mean. A column of the FROM clause takes a
name before an attribute that is shown under it, and so an attribute of the key that got the name
of a column is not what the rows are grouped by.
-/
import QueryAlgebra.Proofs.AggregatedKey
import QueryAlgebra.Proofs.ClauseFlattening

namespace QueryAlgebra

/-- Over a FROM clause with the given columns a name stands for an attribute of the key that is
itself a column, or for one under a new name that no column has. -/
def Heading.DenotesKey (heading columns : Heading) (name : String) : Prop :=
  ∃ attr ∈ heading.visible, attr.name = name ∧ attr.inKey = true ∧
    (attr.derived = true → name ∉ columns.allNames)

/-- The names of the key stand for the key in what a grouping reads from. -/
def Expression.GroupsByKey (e : Expression) : Prop :=
  ∀ source, e.operator = .grouping source →
    ∀ name ∈ e.heading.primaryKey, e.heading.DenotesKey source.columns name

/-- No attribute of the given key goes on under the name of a column. -/
def Heading.SparesColumns (heading columns : Heading) (renames : Renames) (key : List String) :
    Prop :=
  ∀ entry ∈ heading.renamings renames, ∀ source ∈ key, entry.2.source? = some source →
    entry.1 ∉ columns.allNames

/-- The GROUP BY clause of a grouping lists its key. -/
theorem Expression.groups_of_grouping {e source : Expression}
    (grouping : e.operator = .grouping source) {checked : Bool} {fields : Option (List String)}
    {count later : AliasCount} {statement : Statement}
    (yields : (e.statement checked fields).Yields count statement later) :
    statement.groups = e.heading.primaryKey := by
  refine (yields_assemble yields).2.2 ?_
  obtain ⟨session, operator, heading, columns, restrictions, restricting, distinct⟩ := e
  have same : operator = .grouping source := grouping
  rw [Expression.sourceCondition, same, Operator.sourceCondition]
  rfl

section Headings

variable {heading result : Heading} {selected : List String} {renames : Renames}

/-- A projection of columns names its key well if no key attribute takes the name of a column. -/
theorem Heading.denotesKey_project_iff (columns : Heading)
    (built : heading.project selected renames none = .ok result)
    (flat : ∀ attr ∈ heading.visible, attr.derived = false) :
    (∀ name ∈ result.primaryKey, result.DenotesKey columns name) ↔
      heading.SparesColumns columns renames heading.primaryKey := by
  constructor
  · intro denote entry inside source keyed taken
    have key : entry.1 ∈ result.primaryKey := by
      rw [primaryKey_project built]
      exact List.mem_flatMap.2 ⟨source, keyed, mem_imageNames.2 (.inr ⟨entry, inside, rfl, taken⟩)⟩
    obtain ⟨attr, visible, named, _, free⟩ := denote entry.1 key
    obtain ⟨origin, listed, inKey, rfl⟩ := mem_primaryKey.1 keyed
    have shown := mem_visible.2 ⟨listed, heading.visibleKey origin listed inKey⟩
    have image : origin.renamed entry.1 ∈ result.attributes :=
      (mem_project built).2 (.inl ⟨origin, shown, Attribute.mem_images.2
        (.inr ⟨entry, inside, taken, rfl⟩)⟩)
    obtain rfl := eq_of_name (mem_visible.1 visible).1 image named
    exact free rfl
  · intro spares name key
    obtain ⟨attr, inside, inKey, rfl⟩ := mem_primaryKey.1 key
    refine ⟨attr, visible_of_project built inside, rfl, inKey, fun derived => ?_⟩
    rcases (mem_project built).1 inside with ⟨origin, shown, image⟩ | ⟨entry, _, meaning⟩
    · rcases Attribute.mem_images.1 image with ⟨_, rfl⟩ | ⟨entry, listed, taken, rfl⟩
      · rw [flat attr shown] at derived
        contradiction
      · have keyed : origin.name ∈ heading.primaryKey :=
          mem_primaryKey.2 ⟨origin, (mem_visible.1 shown).1, inKey, rfl⟩
        exact spares entry listed origin.name keyed taken
    · obtain ⟨expression, _, rfl⟩ := Renaming.computed?_eq_some.1 meaning
      contradiction

/-- Attributes that are selected as a key keep their names. -/
theorem Heading.denotesKey_project_of_key (columns : Heading) {key : List String}
    (built : heading.project key renames (some key) = .ok result)
    (flat : ∀ attr ∈ heading.visible, attr.derived = false) {name : String}
    (inside : name ∈ result.primaryKey) : result.DenotesKey columns name := by
  obtain ⟨shown, forced⟩ := project_eq_ok.1 built
  obtain ⟨attr, listed, inKey, rfl⟩ := mem_primaryKey.1 inside
  rw [primaryKey_project_of_key built, List.mem_eraseDups] at inside
  obtain ⟨origin, visible, named⟩ := mem_names.1 (shown attr.name inside)
  have produced : origin ∈ heading.produced key renames :=
    List.mem_append_left _ (List.mem_flatMap.2 ⟨origin, visible,
      Attribute.mem_images.2 (.inl ⟨named ▸ inside, rfl⟩)⟩)
  have kept : { origin with inKey := key.contains origin.name } ∈ result.attributes := by
    rw [attributes_ofAttributes forced, mem_keyOrder]
    exact mem_forceKey.2 ⟨origin, produced, rfl⟩
  obtain rfl := eq_of_name kept listed named
  have underived : origin.derived = false := flat origin visible
  exact ⟨_, mem_visible.2 ⟨listed, result.visibleKey _ listed inKey⟩, rfl, inKey,
    fun derived => absurd (underived.symm.trans derived) Bool.false_ne_true⟩

end Headings

section Groupings

variable {renames : Renames}

/-- An aggregation groups by the key exactly if no attribute of the base key takes the name of a
column of the joined operands. -/
theorem Expression.groupsByKey_aggregate_iff {base group result : Expression}
    {items : List ProjectionItem} {keepAll : Bool}
    (built : base.aggregateItems group items renames keepAll = .ok result) :
    ∃ joined : Expression,
      base.joinAs group ⟨keepAll, base.session.config.semanticCheck, false⟩ = .ok joined ∧
      result.operator = .grouping joined ∧
      (result.GroupsByKey ↔
        joined.heading.SparesColumns joined.columns renames base.heading.primaryKey) := by
  obtain ⟨joined, keyed, selection, heading, join, rekeyed, _, projected, rfl⟩ :=
    aggregateItems_ok built
  refine ⟨joined, join, rfl, ?_⟩
  have flat : ∀ attr ∈ keyed.visible, attr.derived = false := by
    intro attr inside
    obtain ⟨origin, shown, rfl⟩ := (Heading.mem_visible_rekey rekeyed).1 inside
    exact (joinAs_ok join).flat.underived origin shown
  have renamed : keyed.renamings renames = joined.heading.renamings renames :=
    Heading.renamings_congr (Heading.mem_names_rekey rekeyed) renames
  have names := Heading.denotesKey_project_iff joined.columns projected flat
  rw [Heading.SparesColumns, renamed, Heading.primaryKey_rekey rekeyed] at names
  rw [Heading.SparesColumns, ← names]
  constructor
  · exact fun groups => groups joined rfl
  · rintro denote _ ⟨⟩
    exact denote

/-- Without a partner the rows are grouped by the key. -/
theorem Expression.groupsByKey_of_groupOver {e result : Expression} {key : List String}
    (built : e.groupOver key renames = .ok result) :
    result.operator = .grouping e.groupedSource ∧ result.GroupsByKey := by
  obtain ⟨heading, projected, rfl⟩ := groupOver_ok built
  refine ⟨rfl, ?_⟩
  rintro _ ⟨⟩ name inside
  exact Heading.denotesKey_project_of_key e.groupedSource.columns projected
    (flat_iff.2 e.needsSubquery_groupedSource).underived inside

end Groupings

/-- The GROUP BY clause of an aggregation lists the key. Every name in it stands for the key exactly
if no attribute of the base key takes the name of a column of the joined operands. Without a
partner every name does. -/
theorem Expression.groups_by_key_iff {base group result : Expression}
    {items : List ProjectionItem} {renames : Renames} {keepAll : Bool}
    (built : base.aggregateItems group items renames keepAll = .ok result) :
    (∃ joined : Expression,
      base.joinAs group ⟨keepAll, base.session.config.semanticCheck, false⟩ = .ok joined ∧
      result.operator = .grouping joined ∧
      (∀ checked fields count statement later,
        (result.statement checked fields).Yields count statement later →
          statement.groups = result.heading.primaryKey) ∧
      (result.GroupsByKey ↔
        joined.heading.SparesColumns joined.columns renames base.heading.primaryKey)) ∧
    ∀ (e alone : Expression) (key : List String) (others : Renames),
      e.groupOver key others = .ok alone →
        alone.operator = .grouping e.groupedSource ∧ alone.GroupsByKey := by
  obtain ⟨joined, join, operator, exact⟩ := groupsByKey_aggregate_iff built
  exact ⟨⟨joined, join, operator, fun _ _ _ _ _ => groups_of_grouping operator, exact⟩,
    fun _ _ _ _ => groupsByKey_of_groupOver⟩

/-- The subjects with the number of their entries are grouped by their key, which has a new name
that no column has. -/
theorem Expression.groups_by_key_iff_of_log :
    ∃ subjects entries counted joined, Reachable (· = laboratory) subjects ∧
      Reachable (· = laboratory) entries ∧
      subjects.aggregateItems entries [.others] countedEntries false = .ok counted ∧
      counted.operator = .grouping joined ∧ counted.GroupsByKey ∧
      (∀ checked fields count statement later,
        (counted.statement checked fields).Yields count statement later →
          statement.groups = counted.heading.primaryKey) ∧
      ∃ grouped, entries.groupOver ["subject_id"] Renames.empty = .ok grouped ∧
        grouped.GroupsByKey := by
  obtain ⟨subjects, entries, first, second, ⟨counted, built⟩, ⟨grouped, grouping⟩, spared⟩ :
      ∃ subjects entries : Expression, Reachable (· = laboratory) subjects ∧
        Reachable (· = laboratory) entries ∧
        (∃ counted, subjects.aggregateItems entries [.others] countedEntries false =
          .ok counted) ∧
        (∃ grouped, entries.groupOver ["subject_id"] Renames.empty = .ok grouped) ∧
        (subjects.joinAs entries
          ⟨false, subjects.session.config.semanticCheck, false⟩).toOption.map
            (fun joined => (joined.heading.renamings countedEntries, joined.columns.allNames)) =
          some ([("id", .move "subject_id"), ("entries", .compute "count(*)")],
            ["subject_id", "species", "sex", "entry", "tag"]) := by
    have first := @Reachable.table (· = laboratory) laboratory subjectDeclaration _ rfl rfl
    have second := @Reachable.table (· = laboratory) laboratory logDeclaration _ rfl rfl
    exact ⟨_, _, first, second, isOk_iff.1 (by decide +kernel), isOk_iff.1 (by decide +kernel),
      by decide +kernel⟩
  obtain ⟨⟨joined, join, operator, listed, exact⟩, alone⟩ := groups_by_key_iff built
  rw [join] at spared
  obtain ⟨renamings, columns⟩ := Prod.mk.inj (Option.some.inj spared)
  refine ⟨subjects, entries, counted, joined, first, second, built, operator, exact.2 ?_, listed,
    grouped, grouping, (alone entries grouped _ _ grouping).2⟩
  unfold Heading.SparesColumns
  rw [renamings, columns]
  intro entry inside source keyed taken
  rw [List.mem_pair] at inside
  rcases inside with rfl | rfl
  · decide
  · contradiction

/-- The key of the subjects under the name of another column of theirs. -/
def misnamedKey : Renames := Renames.ofList [("species", "subject_id"), ("entries", "count(*)")]

/-- Where the key takes the name of a column that is not shown, the rows are grouped by that
column. -/
theorem Expression.groups_by_other_column :
    ∃ subjects entries counted joined, Reachable (· = laboratory) subjects ∧
      Reachable (· = laboratory) entries ∧
      subjects.aggregateItems entries [] misnamedKey false = .ok counted ∧
      counted.operator = .grouping joined ∧ counted.heading.primaryKey = ["species"] ∧
      "species" ∈ joined.columns.allNames ∧ ¬ counted.GroupsByKey := by
  obtain ⟨subjects, entries, first, second, ⟨counted, built⟩, key, subjectKey, captured⟩ :
      ∃ subjects entries : Expression, Reachable (· = laboratory) subjects ∧
        Reachable (· = laboratory) entries ∧
        (∃ counted, subjects.aggregateItems entries [] misnamedKey false = .ok counted) ∧
        (subjects.aggregateItems entries [] misnamedKey false).toOption.map
          (·.heading.primaryKey) = some ["species"] ∧
        subjects.heading.primaryKey = ["subject_id"] ∧
        (subjects.joinAs entries
          ⟨false, subjects.session.config.semanticCheck, false⟩).toOption.map
            (fun joined => (joined.heading.renamings misnamedKey, joined.columns.allNames)) =
          some ([("species", .move "subject_id"), ("entries", .compute "count(*)")],
            ["subject_id", "species", "sex", "entry", "tag"]) := by
    have first := @Reachable.table (· = laboratory) laboratory subjectDeclaration _ rfl rfl
    have second := @Reachable.table (· = laboratory) laboratory logDeclaration _ rfl rfl
    exact ⟨_, _, first, second, isOk_iff.1 (by decide +kernel), by decide +kernel,
      by decide +kernel, by decide +kernel⟩
  obtain ⟨joined, join, operator, exact⟩ := groupsByKey_aggregate_iff built
  rw [built] at key
  rw [join] at captured
  obtain ⟨renamings, columns⟩ := Prod.mk.inj (Option.some.inj captured)
  have column : "species" ∈ joined.columns.allNames := by
    rw [columns]
    decide
  have moved : ("species", Renaming.move "subject_id") ∈ joined.heading.renamings misnamedKey := by
    rw [renamings]
    exact List.mem_cons_self
  refine ⟨subjects, entries, counted, joined, first, second, built, operator, Option.some.inj key,
    column, fun groups => ?_⟩
  exact exact.1 groups _ moved "subject_id" (subjectKey ▸ List.mem_cons_self) rfl column

end QueryAlgebra
