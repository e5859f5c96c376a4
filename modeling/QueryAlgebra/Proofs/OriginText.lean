/-
This file determines which origins have the same text. The text separates the names of an origin
with dots, and names may have dots of their own.
-/
import QueryAlgebra.Proofs.CarriedLineage
import QueryAlgebra.Proofs.DeclaredLineage

namespace QueryAlgebra

/-- The pieces of a text between its dots. -/
def dotParts (text : String) : List (List Char) :=
  text.toList.splitOn '.'

/-- The dots of a text. -/
def dots (text : String) : Nat :=
  text.toList.count '.'

theorem dotParts_injective : Function.Injective dotParts := by
  intro first second same
  have joined := congrArg (List.intercalate ['.']) same
  unfold dotParts at joined
  rw [List.intercalate_splitOn, List.intercalate_splitOn] at joined
  exact String.toList_inj.1 joined

/-- There is one piece more than there are dots. -/
theorem length_dotParts (text : String) : (dotParts text).length = dots text + 1 := by
  unfold dotParts dots
  induction text.toList with
  | nil => rfl
  | cons letter rest ih =>
      rw [List.splitOn_cons_eq_if_modifyHead, List.count_cons]
      split
      · rw [List.length_cons, ih]
      · rw [List.length_modifyHead, ih]

/-- The pieces of an origin, those of its schema and of its table first. -/
def KeyOrigin.parts (origin : KeyOrigin) : List (List Char) :=
  dotParts origin.schema ++ dotParts origin.table ++ dotParts origin.name

/-- Two origins have the same pieces, and some of them belong to different names. -/
def KeyOrigin.Confused (first second : KeyOrigin) : Prop :=
  first.parts = second.parts ∧
    (dots first.schema ≠ dots second.schema ∨ dots first.table ≠ dots second.table)

section Texts

variable {first second : KeyOrigin}

/-- The dots between the names separate pieces like those inside them. -/
theorem KeyOrigin.dotParts_text (origin : KeyOrigin) : dotParts origin.text = origin.parts := by
  have letters : origin.text.toList =
      origin.schema.toList ++ '.' :: (origin.table.toList ++ '.' :: origin.name.toList) := by
    simp [text, originOf]
  unfold dotParts parts
  rw [letters, List.splitOn_append_cons_self, List.splitOn_append_cons_self, List.append_assoc]
  rfl

/-- Pieces that belong to the same names make up the same origin. -/
theorem KeyOrigin.eq_of_parts (same : first.parts = second.parts)
    (schemas : dots first.schema = dots second.schema)
    (tables : dots first.table = dots second.table) : first = second := by
  have schemaLengths : (dotParts first.schema).length = (dotParts second.schema).length := by
    rw [length_dotParts, length_dotParts, schemas]
  have tableLengths : (dotParts first.table).length = (dotParts second.table).length := by
    rw [length_dotParts, length_dotParts, tables]
  -- the numbers of pieces say where the schema and the table end
  obtain ⟨places, names⟩ := List.append_inj same (by
    rw [List.length_append, List.length_append, schemaLengths, tableLengths])
  obtain ⟨schema, table⟩ := List.append_inj places schemaLengths
  cases first
  cases second
  rw [mk.injEq]
  exact ⟨dotParts_injective schema, dotParts_injective table, dotParts_injective names⟩

/-- Different origins have one text only if they are confused. -/
theorem KeyOrigin.text_eq_iff :
    first.text = second.text ↔ first = second ∨ first.Confused second := by
  rw [← dotParts_injective.eq_iff, dotParts_text, dotParts_text]
  constructor
  · intro same
    by_cases schemas : dots first.schema = dots second.schema
    · by_cases tables : dots first.table = dots second.table
      · exact .inl (eq_of_parts same schemas tables)
      · exact .inr ⟨same, .inr tables⟩
    · exact .inr ⟨same, .inl schemas⟩
  · rintro (rfl | confused)
    · rfl
    · exact confused.1

end Texts

section Headings

variable {first second : TableHistory} {heading other : Heading} {left right : Attribute}
  {origin source : KeyOrigin}

/-- An attribute has the lineage that the calls bring under its name. -/
theorem TableHistory.lineage_eq_iff (declared : first.declaration.heading? = .ok heading)
    (inside : left ∈ heading.attributes) (lineage : Option String) :
    left.lineage = lineage ↔ first.Brings left.name lineage := by
  rw [← (Accounts.of_heading first.accounts declared).lists]
  exact ⟨fun same => ⟨left, inside, rfl, same⟩, Heading.lineage_of_lists inside⟩

theorem TableHistory.lineage_of_inherits (declared : first.declaration.heading? = .ok heading)
    (inside : left ∈ heading.attributes) (inherits : first.Inherits left.name origin) :
    left.lineage = some origin.text :=
  (lineage_eq_iff declared inside _).2 ⟨origin, inherits, rfl⟩

/-- Attributes with origins are homologous when a key has one of them and the origins are the same
or have the same text. -/
theorem TableHistory.homologous_iff (declared : first.declaration.heading? = .ok heading)
    (again : second.declaration.heading? = .ok other) (inside : left ∈ heading.attributes)
    (member : right ∈ other.attributes) : left.Homologous right ↔
      (left.inKey = true ∨ right.inKey = true) ∧ ∃ origin source,
        first.Inherits left.name origin ∧ second.Inherits right.name source ∧
          (origin = source ∨ origin.Confused source) := by
  unfold Attribute.Homologous
  apply and_congr_right
  intro _
  constructor
  · rintro ⟨known, same⟩
    obtain ⟨text, lineage⟩ := Option.isSome_iff_exists.1 known
    obtain ⟨origin, inherits, rfl⟩ := (lineage_eq_iff declared inside (some text)).1 lineage
    obtain ⟨source, inherited, texts⟩ :=
      (lineage_eq_iff again member (some origin.text)).1 (same.symm.trans lineage)
    exact ⟨origin, source, inherits, inherited, KeyOrigin.text_eq_iff.1 texts.symm⟩
  · rintro ⟨origin, source, inherits, inherited, alike⟩
    have lineage := lineage_of_inherits declared inside inherits
    rw [lineage, lineage_of_inherits again member inherited, KeyOrigin.text_eq_iff.2 alike]
    exact ⟨rfl, rfl⟩

/-- The origins of two attributes have the same text if their lineages are the same, and the
headings of two tables are homologous exactly if a key has each shared name and the text of its
origin is the same on both sides. Origins with the same text are the same, or their names have dots
at different places. -/
theorem TableHistory.homologous_exactly (declared : first.declaration.heading? = .ok heading)
    (again : second.declaration.heading? = .ok other) :
    (∀ left ∈ heading.attributes, ∀ right ∈ other.attributes, ∀ origin source,
      first.Inherits left.name origin → second.Inherits right.name source →
        (left.lineage = right.lineage ↔ origin = source ∨ origin.Confused source)) ∧
    (heading.homologous other = .ok () ↔ ∀ name ∈ heading.names, name ∈ other.names →
      (name ∈ heading.primaryKey ∨ name ∈ other.primaryKey) ∧ ∃ origin source,
        first.Inherits name origin ∧ second.Inherits name source ∧
          (origin = source ∨ origin.Confused source)) := by
  constructor
  · intro left inside right member origin source inherits inherited
    rw [lineage_of_inherits declared inside inherits, lineage_of_inherits again member inherited,
      Option.some_inj]
    exact KeyOrigin.text_eq_iff
  · rw [Heading.homologous_eq_ok]
    constructor
    · intro homologous name shown also
      obtain ⟨left, visible, rfl⟩ := Heading.mem_names.1 shown
      obtain ⟨right, apparent, named⟩ := Heading.mem_names.1 also
      have inside := (Heading.mem_visible.1 visible).1
      have member := (Heading.mem_visible.1 apparent).1
      have shared := homologous left visible right (Heading.get?_eq_some.2 ⟨apparent, named⟩)
      rw [homologous_iff declared again inside member, named] at shared
      rwa [Heading.primaryKey_of_visible visible, ← named,
        Heading.primaryKey_of_visible apparent, named]
    · intro all left visible right found
      obtain ⟨apparent, named⟩ := Heading.get?_eq_some.1 found
      have inside := (Heading.mem_visible.1 visible).1
      have member := (Heading.mem_visible.1 apparent).1
      have shared := all left.name (Heading.mem_names.2 ⟨left, visible, rfl⟩)
        (Heading.mem_names.2 ⟨right, apparent, named⟩)
      rw [Heading.primaryKey_of_visible visible, ← named,
        Heading.primaryKey_of_visible apparent, named] at shared
      rwa [homologous_iff declared again inside member, named]

end Headings

/-- A table of animals with a key of its own. -/
def animalHistory : TableHistory :=
  .native (.start "lab" "animal") .primary "animal" .int

/-- The animals of sessions are subjects, and not the animals that have a table of their own. -/
theorem TableHistory.homologous_exactly_of_animal :
    ∃ heading other animal namesake, sessionHistory.declaration.heading? = .ok heading ∧
      animalHistory.declaration.heading? = .ok other ∧ animal ∈ heading.attributes ∧
      namesake ∈ other.attributes ∧ animal.name = namesake.name ∧
      animal.lineage ≠ namesake.lineage := by
  have subject : Inherits sessionHistory "animal" ⟨"lab", "subject", "subject_id"⟩ :=
    .referred rfl (show "subject_id" ∈ _ by decide) .own
  have own : Inherits animalHistory "animal" ⟨"lab", "animal", "animal"⟩ := .own
  have declared : sessionHistory.declaration.heading? = .ok _ := rfl
  have again : animalHistory.declaration.heading? = .ok _ := rfl
  have exact := (homologous_exactly declared again).1 _ List.mem_cons_self _ List.mem_cons_self
    _ _ subject own
  refine ⟨_, _, _, _, declared, again, List.mem_cons_self, List.mem_cons_self, rfl, fun same => ?_⟩
  rcases exact.1 same with equal | confused
  · exact absurd equal (by decide)
  · exact absurd confused.1 (by decide +kernel)

/-- The old subjects of a laboratory in a schema of their own. -/
def dottedSchema : TableHistory :=
  .native (.start "lab.old" "subject") .primary "subject_id" .int

/-- The old subjects of a laboratory in a table of their own. -/
def dottedTable : TableHistory :=
  .native (.start "lab" "old.subject") .primary "subject_id" .int

/-- Keys of two tables are taken for one when the dot stands in another name. -/
theorem TableHistory.homologous_across_dots :
    ∃ heading other origin source, dottedSchema.declaration.heading? = .ok heading ∧
      dottedTable.declaration.heading? = .ok other ∧
      heading.primaryKey = ["subject_id"] ∧ other.primaryKey = ["subject_id"] ∧
      dottedSchema.Inherits "subject_id" origin ∧ dottedTable.Inherits "subject_id" source ∧
      origin ≠ source ∧ origin.text = source.text ∧ heading.homologous other = .ok () :=
  ⟨_, _, ⟨"lab.old", "subject", "subject_id"⟩, ⟨"lab", "old.subject", "subject_id"⟩, rfl, rfl,
    rfl, rfl, .own, .own, by decide, by decide +kernel, by decide +kernel⟩

end QueryAlgebra
