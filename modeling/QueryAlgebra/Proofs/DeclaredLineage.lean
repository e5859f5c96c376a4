/-
This file follows the lineage of declared columns back through references between tables.
A key attribute keeps the lineage of the table that declares it under every name.
-/
import QueryAlgebra.Proofs.HeadingMembers

namespace QueryAlgebra

/-- The ways to declare a column that no reference brings. -/
inductive ColumnKind where
  | primary
  | secondary
  | nullable
  | hidden
deriving DecidableEq, Repr

def ColumnKind.column : ColumnKind → String → Domain → ColumnDeclaration
  | .primary => .primary
  | .secondary => .secondary
  | .nullable => .nullable
  | .hidden => .hidden

/-- The calls that declare a table, in which references go to tables declared before. -/
inductive TableHistory where
  | start (schema table : String)
  | native (before : TableHistory) (kind : ColumnKind) (name : String) (domain : Domain)
  | reference (before parent : TableHistory) (inKey : Bool) (renames : List (String × String))

def TableDeclaration.add (declaration : TableDeclaration) (column : ColumnDeclaration) :
    TableDeclaration :=
  { declaration with columns := declaration.columns ++ [column] }

def TableHistory.declaration : TableHistory → TableDeclaration
  | .start schema table => ⟨schema, table, []⟩
  | .native before kind name domain => before.declaration.add (kind.column name domain)
  | .reference before parent inKey renames =>
      before.declaration.add (parent.declaration.referenceTo inKey renames)

/-- Where a key attribute is declared that references hand on. -/
structure KeyOrigin where
  schema : String
  table : String
  name : String
deriving DecidableEq, Repr

def KeyOrigin.text (origin : KeyOrigin) : String :=
  originOf origin.schema origin.table origin.name

/-- The first rename of a key attribute gives the name that a reference brings it under. -/
def referredName (renames : List (String × String)) (old : String) : String :=
  ((renames.find? (·.2 = old)).map Prod.fst).getD old

/-- A column of this name is declared here and not for the key. -/
def TableHistory.DeclaresPlain : TableHistory → String → Prop
  | .start _ _, _ => False
  | .native before kind name _, other =>
      before.DeclaresPlain other ∨ kind ≠ .primary ∧ name = other
  | .reference before _ _ _, other => before.DeclaresPlain other

/-- A column of this name is a key attribute declared here, or it comes from such a key
attribute through a chain of references. -/
inductive TableHistory.Inherits : TableHistory → String → KeyOrigin → Prop where
  | own {before : TableHistory} {name : String} {domain : Domain} :
      Inherits (.native before .primary name domain) name
        ⟨before.declaration.schema, before.declaration.table, name⟩
  | referred {before parent : TableHistory} {inKey : Bool} {renames : List (String × String)}
      {heading : Heading} {old : String} {origin : KeyOrigin}
      (declared : parent.declaration.heading? = .ok heading) (key : old ∈ heading.primaryKey)
      (inherited : Inherits parent old origin) :
      Inherits (.reference before parent inKey renames) (referredName renames old) origin
  | beforeNative {before : TableHistory} {kind : ColumnKind} {name other : String}
      {domain : Domain} {origin : KeyOrigin} (earlier : Inherits before other origin) :
      Inherits (.native before kind name domain) other origin
  | beforeReference {before parent : TableHistory} {inKey : Bool}
      {renames : List (String × String)} {name : String} {origin : KeyOrigin}
      (earlier : Inherits before name origin) :
      Inherits (.reference before parent inKey renames) name origin

/-- The calls bring a column of this name and lineage. -/
def TableHistory.Brings (history : TableHistory) (name : String) : Option String → Prop
  | none => history.DeclaresPlain name
  | some text => ∃ origin, history.Inherits name origin ∧ origin.text = text

/-- Some of the attributes have this name and lineage. -/
def ListsLineage (attrs : List Attribute) (name : String) (lineage : Option String) : Prop :=
  ∃ attr ∈ attrs, attr.name = name ∧ attr.lineage = lineage

/-- A namesake is in the key if one of the two attributes is. -/
def Attribute.mergedInto (attr other : Attribute) : Attribute :=
  if other.name = attr.name then { other with inKey := other.inKey || attr.inKey } else other

@[simp] theorem Attribute.name_mergedInto (attr other : Attribute) :
    (attr.mergedInto other).name = other.name := by
  unfold mergedInto
  split <;> rfl

@[simp] theorem Attribute.lineage_mergedInto (attr other : Attribute) :
    (attr.mergedInto other).lineage = other.lineage := by
  unfold mergedInto
  split <;> rfl

theorem Attribute.inKey_mergedInto {attr other : Attribute}
    (key : (attr.mergedInto other).inKey = true) :
    other.inKey = true ∨ other.name = attr.name ∧ attr.inKey = true := by
  unfold mergedInto at key
  split at key
  · rename_i namesake
    exact (Bool.or_eq_true_iff.1 key).imp_right fun inKey => ⟨namesake, inKey⟩
  · exact .inl key

section Declaring

variable {table : String} {before after : List Attribute} {attr : Attribute}

/-- An attribute with a new name is declared last. Otherwise the first namesake decides, and it
takes the attribute in if both have the same lineage. -/
theorem declareAttribute_eq_ok : declareAttribute table before attr = .ok after ↔
    attr.name ∉ before.map Attribute.name ∧ after = before ++ [attr] ∨
      ∃ existing, before.find? (·.name = attr.name) = some existing ∧
        existing.lineage.isSome = true ∧ existing.lineage = attr.lineage ∧
        after = before.map attr.mergedInto := by
  have absent : before.find? (·.name = attr.name) = none ↔
      attr.name ∉ before.map Attribute.name := by
    simp [List.find?_eq_none]
  unfold declareAttribute
  constructor
  · intro declared
    split at declared
    · rename_i unfound
      injection declared with same
      exact .inl ⟨absent.1 unfound, same.symm⟩
    · rename_i existing found
      split at declared
      · rename_i homologous
        rw [Bool.and_eq_true_iff, beq_iff_eq] at homologous
        injection declared with same
        exact .inr ⟨existing, found, homologous.1, homologous.2, same.symm⟩
      · contradiction
  · rintro (⟨fresh, rfl⟩ | ⟨existing, found, known, same, rfl⟩)
    · rw [absent.2 fresh]
    · rw [found]
      dsimp only
      rw [if_pos (by rw [known, same, beq_self_eq_true, Bool.and_self])]
      rfl

/-- An attribute is declared last, or it is merged into a namesake of the same lineage. -/
theorem declareAttribute_ok (declared : declareAttribute table before attr = .ok after) :
    after = before ++ [attr] ∨
      ∃ existing ∈ before, existing.name = attr.name ∧ existing.lineage.isSome = true ∧
        existing.lineage = attr.lineage ∧ after = before.map attr.mergedInto := by
  rcases declareAttribute_eq_ok.1 declared with ⟨_, same⟩ | ⟨existing, found, merged⟩
  · exact .inl same
  · have named := List.find?_some found
    exact .inr ⟨existing, List.mem_of_find?_eq_some found, by simpa using named, merged⟩

/-- A declared attribute adds its name with its lineage and no other. -/
theorem lists_of_declareAttribute (declared : declareAttribute table before attr = .ok after)
    (name : String) (lineage : Option String) :
    ListsLineage after name lineage ↔
      ListsLineage before name lineage ∨ attr.name = name ∧ attr.lineage = lineage := by
  obtain rfl | ⟨existing, inside, named, _, same, rfl⟩ := declareAttribute_ok declared
  · simp [ListsLineage, or_and_right, exists_or]
  · have repeated : attr.name = name ∧ attr.lineage = lineage → ListsLineage before name lineage :=
      fun own => ⟨existing, inside, named.trans own.1, same.trans own.2⟩
    rw [or_iff_left_of_imp repeated]
    simp [ListsLineage]

/-- Key attributes have namesakes with a lineage. -/
def KeyHasLineage (attrs : List Attribute) : Prop :=
  ∀ attr ∈ attrs, attr.inKey = true → ∃ text, ListsLineage attrs attr.name (some text)

theorem keyHasLineage_of_declareAttribute
    (declared : declareAttribute table before attr = .ok after)
    (known : attr.inKey = true → attr.lineage.isSome = true) (keyed : KeyHasLineage before) :
    KeyHasLineage after := by
  have kept : ∀ name text, ListsLineage before name (some text) →
      ListsLineage after name (some text) :=
    fun name text listed => (lists_of_declareAttribute declared name _).2 (.inl listed)
  have own : attr.inKey = true → ∃ text, ListsLineage after attr.name (some text) := by
    intro inKey
    obtain ⟨text, same⟩ := Option.isSome_iff_exists.1 (known inKey)
    exact ⟨text, (lists_of_declareAttribute declared _ _).2 (.inr ⟨rfl, same⟩)⟩
  have former : ∀ other ∈ before, other.inKey = true →
      ∃ text, ListsLineage after other.name (some text) := by
    intro other inside inKey
    obtain ⟨text, listed⟩ := keyed other inside inKey
    exact ⟨text, kept _ _ listed⟩
  obtain appended | ⟨_, _, _, _, _, merged⟩ := declareAttribute_ok declared
  · intro other inside inKey
    rw [appended, List.mem_append, List.mem_singleton] at inside
    rcases inside with inside | rfl
    · exact former other inside inKey
    · exact own inKey
  · intro other inside inKey
    rw [merged] at inside
    obtain ⟨origin, member, rfl⟩ := List.mem_map.1 inside
    rw [Attribute.name_mergedInto]
    rcases Attribute.inKey_mergedInto inKey with old | ⟨namesake, new⟩
    · exact former origin member old
    · rw [namesake]
      exact own new

/-- A column adds what it brings. -/
theorem lists_of_foldlM {brought : List Attribute}
    (declared : brought.foldlM (declareAttribute table) before = .ok after)
    (name : String) (lineage : Option String) :
    ListsLineage after name lineage ↔
      ListsLineage before name lineage ∨ ListsLineage brought name lineage := by
  induction brought generalizing before with
  | nil =>
      injection declared with same
      simp [← same, ListsLineage]
  | cons first rest ih =>
      rw [List.foldlM_cons] at declared
      obtain ⟨between, step, others⟩ := bind_eq_ok.1 declared
      rw [ih others, lists_of_declareAttribute step, or_assoc]
      simp [ListsLineage]

end Declaring

/-- Only a key attribute has a lineage where it is declared. -/
def ColumnKind.lineage? (kind : ColumnKind) (schema table name : String) : Option String :=
  match kind with
  | .primary => some (originOf schema table name)
  | _ => none

/-- A column that no reference brings is one attribute, with a lineage if it is in the key. -/
theorem ColumnKind.attributes_column (kind : ColumnKind) (schema table name : String)
    (domain : Domain) :
    ∃ attr : Attribute, (kind.column name domain).attributes? schema table = .ok [attr] ∧
      attr.name = name ∧ attr.lineage = kind.lineage? schema table name ∧
      (attr.inKey = true → attr.lineage.isSome = true) := by
  cases kind with
  | primary => exact ⟨_, rfl, rfl, rfl, fun _ => rfl⟩
  | secondary | nullable | hidden => exact ⟨_, rfl, rfl, rfl, nofun⟩

theorem TableHistory.brings_start {schema table name : String} {lineage : Option String} :
    ¬ (TableHistory.start schema table).Brings name lineage := by
  cases lineage with
  | none => exact id
  | some text => rintro ⟨origin, ⟨⟩, _⟩

theorem TableHistory.brings_native {before : TableHistory} {kind : ColumnKind}
    {name other : String} {domain : Domain} {lineage : Option String} :
    (native before kind name domain).Brings other lineage ↔ before.Brings other lineage ∨
      name = other ∧
        kind.lineage? before.declaration.schema before.declaration.table name = lineage := by
  cases lineage with
  | none =>
      simp only [Brings, DeclaresPlain]
      cases kind <;> simp [ColumnKind.lineage?]
  | some text =>
      simp only [Brings]
      constructor
      · rintro ⟨origin, inherits, same⟩
        cases inherits with
        | own => exact .inr ⟨rfl, congrArg some same⟩
        | beforeNative earlier => exact .inl ⟨origin, earlier, same⟩
      · rintro (⟨origin, earlier, same⟩ | ⟨rfl, own⟩)
        · exact ⟨origin, .beforeNative earlier, same⟩
        · cases kind with
          | primary => exact ⟨_, .own, Option.some.inj own⟩
          | secondary | nullable | hidden => contradiction

/-- The attributes of a declaration are those that the calls bring, and the key has a lineage. -/
structure TableHistory.Accounts (history : TableHistory) (attrs : List Attribute) : Prop where
  lists : ∀ name lineage, ListsLineage attrs name lineage ↔ history.Brings name lineage
  keyed : KeyHasLineage attrs

/-- The attributes that a reference brings from the heading of its parent. -/
def Heading.referred (heading : Heading) (inKey : Bool) (renames : List (String × String)) :
    List Attribute :=
  (heading.visible.filter (·.inKey)).map (·.inherited inKey renames)

section Accounting

variable {parent : TableHistory} {heading : Heading}

/-- Attributes of one name have one lineage. -/
theorem Heading.lineage_of_lists {attr : Attribute} (inside : attr ∈ heading.attributes)
    {lineage : Option String} (listed : ListsLineage heading.attributes attr.name lineage) :
    attr.lineage = lineage := by
  obtain ⟨other, member, named, same⟩ := listed
  rw [← same, eq_of_name member inside named]

theorem TableHistory.Accounts.lineage_of_key (accounts : parent.Accounts heading.attributes)
    {attr : Attribute} (inside : attr ∈ heading.attributes) (key : attr.inKey = true) :
    ∃ origin, parent.Inherits attr.name origin ∧ attr.lineage = some origin.text := by
  obtain ⟨text, listed⟩ := accounts.keyed attr inside key
  obtain ⟨origin, inherits, rfl⟩ := (accounts.lists _ _).1 listed
  exact ⟨origin, inherits, Heading.lineage_of_lists inside listed⟩

/-- A reference brings the key of its parent under its new names. -/
theorem TableHistory.brings_reference (declared : parent.declaration.heading? = .ok heading)
    (accounts : parent.Accounts heading.attributes) {before : TableHistory} {inKey : Bool}
    {renames : List (String × String)} {name : String} {lineage : Option String} :
    (reference before parent inKey renames).Brings name lineage ↔ before.Brings name lineage ∨
      ListsLineage (heading.referred inKey renames) name lineage := by
  have referred : ∀ attr ∈ heading.visible.filter (·.inKey),
      ∃ origin, parent.Inherits attr.name origin ∧ attr.lineage = some origin.text := by
    intro attr inside
    obtain ⟨visible, key⟩ := List.mem_filter.1 inside
    exact accounts.lineage_of_key (Heading.mem_visible.1 visible).1 key
  cases lineage with
  | none =>
      refine (or_iff_left fun listed => ?_).symm
      obtain ⟨_, inside, _, none⟩ := listed
      obtain ⟨attr, member, rfl⟩ := List.mem_map.1 inside
      obtain ⟨origin, _, some⟩ := referred attr member
      exact Option.some_ne_none _ (some.symm.trans none)
  | some text =>
      constructor
      · rintro ⟨origin, inherits, rfl⟩
        cases inherits with
        | beforeReference earlier => exact .inl ⟨origin, earlier, rfl⟩
        | referred again key inherited =>
            rw [declared, Except.ok.injEq] at again
            subst again
            obtain ⟨attr, inside, keyed, rfl⟩ := Heading.mem_primaryKey.1 key
            have listed := (accounts.lists attr.name (some origin.text)).2 ⟨origin, inherited, rfl⟩
            have visible := Heading.mem_visible.2 ⟨inside, heading.visibleKey attr inside keyed⟩
            have member : attr.inherited inKey renames ∈ heading.referred inKey renames :=
              List.mem_map_of_mem (List.mem_filter.2 ⟨visible, keyed⟩)
            exact .inr ⟨_, member, rfl, Heading.lineage_of_lists inside listed⟩
      · rintro (⟨origin, earlier, same⟩ | ⟨_, inside, rfl, same⟩)
        · exact ⟨origin, .beforeReference earlier, same⟩
        · obtain ⟨attr, member, rfl⟩ := List.mem_map.1 inside
          obtain ⟨origin, inherits, known⟩ := referred attr member
          obtain ⟨visible, key⟩ := List.mem_filter.1 member
          have keyed := Heading.mem_primaryKey.2
            ⟨attr, (Heading.mem_visible.1 visible).1, key, rfl⟩
          exact ⟨origin, .referred declared keyed inherits, Option.some.inj (known.symm.trans same)⟩

/-- A further column adds to the attributes what the further call brings. -/
theorem TableHistory.Accounts.add {history next : TableHistory} {schema table : String}
    {before after brought : List Attribute} {column : ColumnDeclaration}
    (accounts : history.Accounts before)
    (columns : column.attributes? schema table = .ok brought)
    (declared : column.declare schema table before = .ok after)
    (known : ∀ attr ∈ brought, attr.inKey = true → attr.lineage.isSome = true)
    (brings : ∀ name lineage, next.Brings name lineage ↔
      history.Brings name lineage ∨ ListsLineage brought name lineage) :
    next.Accounts after := by
  obtain ⟨again, source, folded⟩ := bind_eq_ok.1 declared
  rw [columns, Except.ok.injEq] at source
  subst source
  refine ⟨fun name lineage => ?_, ?_⟩
  · rw [lists_of_foldlM folded, accounts.lists, brings]
  · refine invariant_of_foldlM KeyHasLineage folded accounts.keyed ?_
    intro _ _ attr inside step keyed
    exact keyHasLineage_of_declareAttribute step (known attr inside) keyed

end Accounting

/-- The attributes of a table in the order in which its columns bring them. -/
def TableDeclaration.attributes? (declaration : TableDeclaration) :
    Except HeadingFault (List Attribute) :=
  declaration.columns.foldlM
    (ColumnDeclaration.declare declaration.schema declaration.table) []

/-- A further column is declared after all others. -/
theorem TableDeclaration.attributes?_add (declaration : TableDeclaration)
    (column : ColumnDeclaration) :
    (declaration.add column).attributes? = declaration.attributes? >>= fun before =>
      column.declare declaration.schema declaration.table before := by
  simp [attributes?, add]

theorem TableDeclaration.heading?_ok {declaration : TableDeclaration} {heading : Heading}
    (declared : declaration.heading? = .ok heading) :
    ∃ attrs, declaration.attributes? = .ok attrs ∧ heading.attributes = keyOrder attrs := by
  obtain ⟨attrs, folded, built⟩ := bind_eq_ok.1 declared
  exact ⟨attrs, folded, Heading.attributes_ofAttributes built⟩

/-- The order of the attributes does not matter. -/
theorem TableHistory.Accounts.reorder {history : TableHistory} {attrs others : List Attribute}
    (accounts : history.Accounts attrs) (same : ∀ attr, attr ∈ others ↔ attr ∈ attrs) :
    history.Accounts others := by
  have lists : ∀ name lineage,
      ListsLineage others name lineage ↔ ListsLineage attrs name lineage := by
    intro name lineage
    simp only [ListsLineage, same]
  refine ⟨fun name lineage => (lists name lineage).trans (accounts.lists name lineage), ?_⟩
  intro attr inside inKey
  obtain ⟨text, listed⟩ := accounts.keyed attr ((same attr).1 inside) inKey
  exact ⟨text, (lists _ _).2 listed⟩

theorem TableHistory.Accounts.of_heading {history : TableHistory} {heading : Heading}
    (accounts : ∀ attrs, history.declaration.attributes? = .ok attrs → history.Accounts attrs)
    (declared : history.declaration.heading? = .ok heading) :
    history.Accounts heading.attributes := by
  obtain ⟨attrs, folded, same⟩ := TableDeclaration.heading?_ok declared
  exact (accounts attrs folded).reorder fun attr => by rw [same, mem_keyOrder]

/-- By induction on the calls, those of referenced tables included. -/
theorem TableHistory.accounts (history : TableHistory) :
    ∀ attrs, history.declaration.attributes? = .ok attrs → history.Accounts attrs := by
  induction history with
  | start schema table =>
      intro attrs folded
      injection folded with none
      subst none
      refine ⟨fun name lineage => iff_of_false ?_ brings_start, List.forall_mem_nil _⟩
      rintro ⟨_, ⟨⟩, _⟩
  | native before kind name domain ih =>
      intro attrs folded
      rw [declaration, TableDeclaration.attributes?_add] at folded
      obtain ⟨between, first, step⟩ := bind_eq_ok.1 folded
      obtain ⟨attr, column, named, lineage, known⟩ := kind.attributes_column
        before.declaration.schema before.declaration.table name domain
      refine (ih between first).add column step (List.forall_mem_singleton.2 known) ?_
      intro other text
      rw [brings_native]
      simp [ListsLineage, named, lineage]
  | reference before parent inKey renames ih parents =>
      intro attrs folded
      rw [declaration, TableDeclaration.attributes?_add] at folded
      obtain ⟨between, first, step⟩ := bind_eq_ok.1 folded
      unfold TableDeclaration.referenceTo at step
      cases declared : parent.declaration.heading? with
      | error fault =>
          rw [declared] at step
          contradiction
      | ok heading =>
          rw [declared] at step
          have accounts := Accounts.of_heading parents declared
          refine (ih between first).add rfl step ?_ fun name lineage =>
            brings_reference declared accounts
          intro attr inside _
          obtain ⟨origin, member, rfl⟩ := List.mem_map.1 inside
          obtain ⟨visible, key⟩ := List.mem_filter.1 member
          obtain ⟨_, _, some⟩ := accounts.lineage_of_key (Heading.mem_visible.1 visible).1 key
          exact Option.isSome_iff_exists.2 ⟨_, some⟩

/-- A declared column has no lineage exactly if it is declared in its table outside the key.
Otherwise its lineage names the key attribute at the end of the chain of references that it comes
from, and all key attributes have one. -/
theorem TableHistory.lineage_of_heading {history : TableHistory} {heading : Heading}
    (declared : history.declaration.heading? = .ok heading) {attr : Attribute}
    (inside : attr ∈ heading.attributes) :
    (attr.lineage = none ↔ history.DeclaresPlain attr.name) ∧
      (attr.lineage = none ∨
        ∃ origin, history.Inherits attr.name origin ∧ attr.lineage = some origin.text) ∧
      (∀ origin, history.Inherits attr.name origin → attr.lineage = some origin.text) ∧
      (attr.inKey = true → attr.lineage.isSome = true) := by
  have accounts := Accounts.of_heading history.accounts declared
  have known : ∀ lineage, attr.lineage = lineage ↔ history.Brings attr.name lineage := by
    intro lineage
    rw [← accounts.lists]
    exact ⟨fun same => ⟨attr, inside, rfl, same⟩, Heading.lineage_of_lists inside⟩
  refine ⟨known none, ?_, fun origin inherits => (known _).2 ⟨origin, inherits, rfl⟩, ?_⟩
  · cases lineage : attr.lineage with
    | none => exact .inl rfl
    | some text =>
        obtain ⟨origin, inherits, rfl⟩ := (known _).1 lineage
        exact .inr ⟨origin, inherits, rfl⟩
  · intro inKey
    obtain ⟨_, _, some⟩ := accounts.lineage_of_key inside inKey
    exact Option.isSome_iff_exists.2 ⟨_, some⟩

/-- Sessions refer to subjects as animals. -/
def sessionHistory : TableHistory :=
  .reference (.start "lab" "session")
    (.native (.start "lab" "subject") .primary "subject_id" .int) true [("animal", "subject_id")]

/-- Scans refer to the animals of sessions as mice. -/
def scanHistory : TableHistory :=
  .native (.reference (.start "imaging" "scan") sessionHistory true [("mouse", "animal")])
    .hidden "tag" .string

/-- A key attribute that is renamed twice still originates from the table of subjects. -/
theorem TableHistory.lineage_of_heading_of_mouse :
    ∃ heading mouse, scanHistory.declaration.heading? = .ok heading ∧
      mouse ∈ heading.attributes ∧ mouse.name = "mouse" ∧
      mouse.lineage = some "lab.subject.subject_id" := by
  have animal : Inherits sessionHistory "animal" ⟨"lab", "subject", "subject_id"⟩ :=
    .referred rfl (show "subject_id" ∈ _ by decide) .own
  have mouse : Inherits scanHistory "mouse" ⟨"lab", "subject", "subject_id"⟩ :=
    .beforeNative (.referred rfl (show "animal" ∈ _ by decide) animal)
  have declared : scanHistory.declaration.heading? = .ok _ := rfl
  have known := (lineage_of_heading declared List.mem_cons_self).2.2.1 _ mouse
  exact ⟨_, _, declared, List.mem_cons_self, rfl, known⟩

end QueryAlgebra
