/-
This file determines which declarations of a table are refused. Columns with one name are told
apart by their lineage alone, so that a repeated key attribute is taken for a second reference.
-/
import QueryAlgebra.Proofs.DeclaredLineage
import QueryAlgebra.Proofs.HeadingOrder

namespace QueryAlgebra

/-- Two attributes have different names, or the lineage that both of them have is the same. -/
def Attribute.Agrees (first second : Attribute) : Prop :=
  first.name = second.name → first.lineage.isSome = true ∧ first.lineage = second.lineage

/-- A hidden attribute is no part of a key and comes from no other table. -/
def Attribute.Plain (attr : Attribute) : Prop :=
  attr.hidden = true → attr.inKey = false ∧ attr.lineage = none

/-- The attributes declared so far have different names and can form a heading. -/
structure Declared (attrs : List Attribute) : Prop where
  apart : (attrs.map Attribute.name).Nodup
  plain : ∀ attr ∈ attrs, attr.Plain

theorem Declared.nil : Declared [] :=
  ⟨List.nodup_nil, List.forall_mem_nil _⟩

section Declaring

variable {table : String} {before after : List Attribute} {attr : Attribute}

/-- An attribute can be declared when it agrees with those declared before. -/
theorem exists_declareAttribute (apart : (before.map Attribute.name).Nodup) :
    (∃ after, declareAttribute table before attr = .ok after) ↔
      ∀ other ∈ before, other.Agrees attr := by
  constructor
  · rintro ⟨after, declared⟩ other inside named
    rcases declareAttribute_eq_ok.1 declared with ⟨fresh, _⟩ | ⟨existing, found, known, same, _⟩
    · exact absurd (named ▸ List.mem_map_of_mem inside) fresh
    · -- the search has found the attribute in question, because names differ
      rw [(find?_name_eq_some apart).2 ⟨inside, named⟩, Option.some.injEq] at found
      rw [found]
      exact ⟨known, same⟩
  · intro agrees
    cases found : before.find? (·.name = attr.name) with
    | none => exact ⟨_, declareAttribute_eq_ok.2 (.inl ⟨by simpa using found, rfl⟩)⟩
    | some existing =>
        obtain ⟨inside, named⟩ := (find?_name_eq_some apart).1 found
        obtain ⟨known, same⟩ := agrees existing inside named
        exact ⟨_, declareAttribute_eq_ok.2 (.inr ⟨existing, found, known, same, rfl⟩)⟩

/-- What agrees with the declared attributes agrees with those before and with the new one. -/
theorem agrees_of_declareAttribute (declared : declareAttribute table before attr = .ok after)
    (next : Attribute) :
    (∀ other ∈ after, other.Agrees next) ↔
      (∀ other ∈ before, other.Agrees next) ∧ attr.Agrees next := by
  have listed : ∀ attrs : List Attribute, (∀ other ∈ attrs, other.Agrees next) ↔
      ∀ lineage, ListsLineage attrs next.name lineage →
        lineage.isSome = true ∧ lineage = next.lineage := by
    intro attrs
    constructor
    · rintro agrees _ ⟨other, inside, named, rfl⟩
      exact agrees other inside named
    · intro all other inside named
      exact all other.lineage ⟨other, inside, named, rfl⟩
  have lists := lists_of_declareAttribute declared next.name
  rw [listed, listed]
  constructor
  · intro all
    exact ⟨fun lineage old => all lineage ((lists lineage).2 (.inl old)),
      fun named => all attr.lineage ((lists _).2 (.inr ⟨named, rfl⟩))⟩
  · rintro ⟨old, new⟩ lineage inside
    rcases (lists lineage).1 inside with earlier | ⟨named, rfl⟩
    · exact old lineage earlier
    · exact new named

/-- Merging leaves hidden attributes as they are, because they have no lineage. -/
theorem Declared.declare (sound : Declared before) (plain : attr.Plain)
    (declared : declareAttribute table before attr = .ok after) : Declared after := by
  rcases declareAttribute_eq_ok.1 declared with ⟨fresh, rfl⟩ | ⟨existing, found, known, _, rfl⟩
  · constructor
    · rw [List.map_append, List.nodup_append_comm]
      exact List.nodup_cons.2 ⟨fresh, sound.apart⟩
    · rw [List.forall_mem_append, List.forall_mem_singleton]
      exact ⟨sound.plain, plain⟩
  · constructor
    · have names : Attribute.name ∘ attr.mergedInto = Attribute.name :=
        funext attr.name_mergedInto
      rw [List.map_map, names]
      exact sound.apart
    · intro merged inside
      obtain ⟨other, member, rfl⟩ := List.mem_map.1 inside
      by_cases named : other.name = attr.name
      · rw [(find?_name_eq_some sound.apart).2 ⟨member, named⟩, Option.some.injEq] at found
        intro hidden
        rw [Attribute.mergedInto, if_pos named] at hidden
        rw [← found, (sound.plain other member hidden).2] at known
        contradiction
      · rw [Attribute.mergedInto, if_neg named]
        exact sound.plain other member

/-- An attribute adds its name to the key if it is declared for the key. -/
theorem keys_of_declareAttribute (declared : declareAttribute table before attr = .ok after)
    (name : String) :
    (∃ other ∈ after, other.name = name ∧ other.inKey = true) ↔
      (∃ other ∈ before, other.name = name ∧ other.inKey = true) ∨
        attr.name = name ∧ attr.inKey = true := by
  obtain rfl | ⟨existing, inside, named, _, _, rfl⟩ := declareAttribute_ok declared
  · simp [or_and_right, exists_or]
  · constructor
    · rintro ⟨_, member, rfl, key⟩
      obtain ⟨other, old, rfl⟩ := List.mem_map.1 member
      rw [Attribute.name_mergedInto]
      rcases Attribute.inKey_mergedInto key with before | ⟨namesake, new⟩
      · exact .inl ⟨other, old, rfl, before⟩
      · exact .inr ⟨namesake.symm, new⟩
    · rintro (⟨other, old, rfl, key⟩ | ⟨rfl, key⟩)
      · refine ⟨attr.mergedInto other, List.mem_map_of_mem old, attr.name_mergedInto other, ?_⟩
        unfold Attribute.mergedInto
        split
        · rw [key, Bool.true_or]
        · exact key
      · refine ⟨attr.mergedInto existing, List.mem_map_of_mem inside, ?_, ?_⟩
        · rw [Attribute.name_mergedInto, named]
        · rw [Attribute.mergedInto, if_pos named, key, Bool.or_true]

variable {brought : List Attribute}

theorem Declared.of_foldlM (sound : Declared before) (plain : ∀ attr ∈ brought, attr.Plain)
    (declared : brought.foldlM (declareAttribute table) before = .ok after) : Declared after :=
  invariant_of_foldlM Declared declared sound fun _ _ attr inside step sound =>
    sound.declare (plain attr inside) step

/-- Attributes can be declared together when any two of them agree. The induction is on those that
are still to be declared. -/
theorem exists_foldlM_declareAttribute (sound : Declared before)
    (plain : ∀ attr ∈ brought, attr.Plain) :
    (∃ after, brought.foldlM (declareAttribute table) before = .ok after) ↔
      (∀ attr ∈ brought, ∀ other ∈ before, other.Agrees attr) ∧
        brought.Pairwise Attribute.Agrees := by
  induction brought generalizing before with
  | nil => simp [pure, Except.pure]
  | cons first rest ih =>
      obtain ⟨start, others⟩ := List.forall_mem_cons.1 plain
      rw [List.foldlM_cons, List.forall_mem_cons, List.pairwise_cons,
        ← exists_declareAttribute sound.apart]
      constructor
      · rintro ⟨after, declared⟩
        obtain ⟨between, step, run⟩ := bind_eq_ok.1 declared
        obtain ⟨agrees, apart⟩ := (ih (sound.declare start step) others).1 ⟨after, run⟩
        have both := fun attr inside =>
          (agrees_of_declareAttribute step attr).1 (agrees attr inside)
        exact ⟨⟨⟨between, step⟩, fun attr inside => (both attr inside).1⟩,
          fun attr inside => (both attr inside).2, apart⟩
      · rintro ⟨⟨⟨between, step⟩, old⟩, new, apart⟩
        have both := fun attr inside =>
          (agrees_of_declareAttribute step attr).2 ⟨old attr inside, new attr inside⟩
        obtain ⟨after, run⟩ := (ih (sound.declare start step) others).2 ⟨both, apart⟩
        exact ⟨after, bind_eq_ok.2 ⟨between, step, run⟩⟩

theorem keys_of_foldlM (declared : brought.foldlM (declareAttribute table) before = .ok after)
    (name : String) :
    (∃ other ∈ after, other.name = name ∧ other.inKey = true) ↔
      (∃ other ∈ before, other.name = name ∧ other.inKey = true) ∨
        ∃ attr ∈ brought, attr.name = name ∧ attr.inKey = true := by
  induction brought generalizing before with
  | nil =>
      injection declared with same
      simp [← same]
  | cons first rest ih =>
      rw [List.foldlM_cons] at declared
      obtain ⟨between, step, others⟩ := bind_eq_ok.1 declared
      rw [ih others, keys_of_declareAttribute step, or_assoc]
      simp

end Declaring

/-- A column is for the key if it brings key attributes. -/
def ColumnDeclaration.forKey : ColumnDeclaration → Bool
  | .primary _ _ => true
  | .reference _ inKey _ => inKey
  | .secondary _ _ | .nullable _ _ | .hidden _ _ => false

def ColumnDeclaration.refers : ColumnDeclaration → Bool
  | .reference _ _ _ => true
  | .primary _ _ | .secondary _ _ | .nullable _ _ | .hidden _ _ => false

/-- The attributes that a column brings, which are none if it refers to a faulty table. -/
def TableDeclaration.brought (declaration : TableDeclaration) (column : ColumnDeclaration) :
    List Attribute :=
  (column.attributes? declaration.schema declaration.table).toOption.getD []

/-- Every table that is referred to has a heading. -/
def TableDeclaration.Founded (declaration : TableDeclaration) : Prop :=
  ∀ fault inKey renames, .reference (.error fault) inKey renames ∉ declaration.columns

/-- A table has a heading. -/
def TableDeclaration.Accepted (declaration : TableDeclaration) : Prop :=
  ∃ heading, declaration.heading? = .ok heading

/-- Only references bring attributes of one name, and each of them brings an attribute once. -/
structure TableDeclaration.KeepsColumns (declaration : TableDeclaration) : Prop where
  within : ∀ column ∈ declaration.columns, ((declaration.brought column).map Attribute.name).Nodup
  across : declaration.columns.Pairwise fun earlier later =>
    ∀ first ∈ declaration.brought earlier, ∀ second ∈ declaration.brought later,
      first.name = second.name → earlier.refers = true ∧ later.refers = true

/-- No two columns clash: what different references bring under one name has one lineage. -/
structure TableDeclaration.ClashFree (declaration : TableDeclaration) : Prop
    extends declaration.KeepsColumns where
  founded : declaration.Founded
  homologous : declaration.columns.Pairwise fun earlier later =>
    ∀ first ∈ declaration.brought earlier, ∀ second ∈ declaration.brought later,
      first.name = second.name → first.lineage = second.lineage

section Columns

variable {declaration : TableDeclaration} {column : ColumnDeclaration}

theorem TableDeclaration.plain_of_brought {attr : Attribute}
    (inside : attr ∈ declaration.brought column) : attr.Plain ∧ attr.inKey = column.forKey := by
  cases column with
  | primary | secondary | nullable =>
      obtain rfl := List.mem_singleton.1 inside
      exact ⟨nofun, rfl⟩
  | hidden =>
      obtain rfl := List.mem_singleton.1 inside
      exact ⟨fun _ => ⟨rfl, rfl⟩, rfl⟩
  | reference parent inKey renames =>
      cases parent with
      | error fault => contradiction
      | ok heading =>
          obtain ⟨origin, _, rfl⟩ := List.mem_map.1 inside
          exact ⟨nofun, rfl⟩

theorem TableDeclaration.attributes_brought
    (sound : ∀ fault inKey renames, column ≠ .reference (.error fault) inKey renames) :
    column.attributes? declaration.schema declaration.table =
      .ok (declaration.brought column) := by
  cases column with
  | primary | secondary | nullable | hidden => rfl
  | reference parent inKey renames =>
      cases parent with
      | error fault => exact absurd rfl (sound fault inKey renames)
      | ok heading => rfl

/-- Columns are declared one after the other if none of them refers to a faulty table. -/
theorem TableDeclaration.foldlM_declare_eq_ok {columns : List ColumnDeclaration}
    {before after : List Attribute} :
    columns.foldlM (ColumnDeclaration.declare declaration.schema declaration.table) before =
        .ok after ↔
      (∀ fault inKey renames, .reference (.error fault) inKey renames ∉ columns) ∧
        (columns.flatMap declaration.brought).foldlM (declareAttribute declaration.table) before =
          .ok after := by
  induction columns generalizing before with
  | nil => simp
  | cons first rest ih =>
      rw [List.foldlM_cons, List.flatMap_cons, List.foldlM_append, bind_eq_ok, bind_eq_ok]
      simp only [ih, ColumnDeclaration.declare]
      constructor
      · rintro ⟨between, step, sound, run⟩
        obtain ⟨attrs, columns, folded⟩ := bind_eq_ok.1 step
        have founded : ∀ fault inKey renames, first ≠ .reference (.error fault) inKey renames := by
          rintro fault inKey renames rfl
          contradiction
        rw [attributes_brought founded, Except.ok.injEq] at columns
        subst columns
        refine ⟨fun fault inKey renames inside => ?_, between, folded, run⟩
        rcases List.mem_cons.1 inside with same | member
        · exact founded fault inKey renames same.symm
        · exact sound fault inKey renames member
      · rintro ⟨sound, between, folded, run⟩
        have founded : ∀ fault inKey renames, first ≠ .reference (.error fault) inKey renames :=
          fun fault inKey renames same =>
            sound fault inKey renames (same ▸ List.mem_cons_self)
        have step := bind_eq_ok.2 ⟨_, attributes_brought founded, folded⟩
        exact ⟨between, step, fun fault inKey renames member =>
          sound fault inKey renames (List.mem_cons_of_mem _ member), run⟩

theorem TableDeclaration.attributes?_eq_ok {attrs : List Attribute} :
    declaration.attributes? = .ok attrs ↔ declaration.Founded ∧
      (declaration.columns.flatMap declaration.brought).foldlM
        (declareAttribute declaration.table) [] = .ok attrs :=
  foldlM_declare_eq_ok

theorem TableDeclaration.plain_of_columns :
    ∀ attr ∈ declaration.columns.flatMap declaration.brought, attr.Plain := by
  intro attr inside
  obtain ⟨column, _, member⟩ := List.mem_flatMap.1 inside
  exact (plain_of_brought member).1

/-- Attributes that are declared one after the other form a heading. -/
theorem TableDeclaration.accepted_iff_attributes :
    declaration.Accepted ↔ ∃ attrs, declaration.attributes? = .ok attrs := by
  constructor
  · rintro ⟨heading, declared⟩
    obtain ⟨attrs, folded, _⟩ := heading?_ok declared
    exact ⟨attrs, folded⟩
  · rintro ⟨attrs, folded⟩
    obtain ⟨_, declared⟩ := attributes?_eq_ok.1 folded
    have sound := Declared.nil.of_foldlM plain_of_columns declared
    obtain ⟨heading, built⟩ := Heading.exists_ofAttributes.2 ⟨sound.apart, by
      intro attr inside key
      by_contra hidden
      have unkeyed := (sound.plain attr inside (Bool.not_eq_false _ ▸ hidden)).1
      rw [key] at unkeyed
      contradiction⟩
    exact ⟨heading, bind_eq_ok.2 ⟨attrs, folded, built⟩⟩

/-- A table is accepted when any two attributes that its columns bring agree. -/
theorem TableDeclaration.accepted_iff : declaration.Accepted ↔ declaration.Founded ∧
    (declaration.columns.flatMap declaration.brought).Pairwise Attribute.Agrees := by
  simp only [accepted_iff_attributes, attributes?_eq_ok, exists_and_left]
  apply and_congr_right
  intro _
  rw [exists_foldlM_declareAttribute .nil plain_of_columns]
  simp

/-- An attribute is in the key if one of the columns that bring its name is for the key. -/
theorem TableDeclaration.inKey_iff {heading : Heading}
    (declared : declaration.heading? = .ok heading) {attr : Attribute}
    (inside : attr ∈ heading.attributes) :
    attr.inKey = true ↔ ∃ column ∈ declaration.columns, column.forKey = true ∧
      attr.name ∈ (declaration.brought column).map Attribute.name := by
  obtain ⟨attrs, folded, same⟩ := heading?_ok declared
  have keys := keys_of_foldlM (attributes?_eq_ok.1 folded).2 attr.name
  have member : attr ∈ attrs := by rwa [same, mem_keyOrder] at inside
  have shown : attr.inKey = true ↔
      ∃ other ∈ attrs, other.name = attr.name ∧ other.inKey = true := by
    constructor
    · exact fun key => ⟨attr, member, rfl, key⟩
    · rintro ⟨other, listed, named, key⟩
      have again : other ∈ heading.attributes := by rwa [same, mem_keyOrder]
      exact Heading.eq_of_name again inside named ▸ key
  rw [shown, keys]
  constructor
  · rintro (⟨_, ⟨⟩, _⟩ | ⟨other, listed, named, key⟩)
    obtain ⟨column, among, brought⟩ := List.mem_flatMap.1 listed
    exact ⟨column, among, (plain_of_brought brought).2 ▸ key,
      named ▸ List.mem_map_of_mem brought⟩
  · rintro ⟨column, among, key, named⟩
    obtain ⟨other, brought, same⟩ := List.mem_map.1 named
    exact .inr ⟨other, List.mem_flatMap.2 ⟨column, among, brought⟩, same,
      (plain_of_brought brought).2.trans key⟩

/-- Columns that do not clash agree if references bring attributes with a lineage. -/
theorem TableDeclaration.ClashFree.accepted (clashFree : declaration.ClashFree)
    (known : ∀ column ∈ declaration.columns, column.refers = true →
      ∀ attr ∈ declaration.brought column, attr.lineage.isSome = true) :
    declaration.Accepted := by
  rw [accepted_iff, List.pairwise_flatMap]
  refine ⟨clashFree.founded, fun column among => ?_, ?_⟩
  · apply (List.pairwise_map.1 (clashFree.within column among)).imp
    exact fun different same => absurd same different
  · apply (clashFree.across.and clashFree.homologous).imp_of_mem
    intro earlier later among _ apart first brought second other named
    obtain ⟨refers, _⟩ := apart.1 first brought second other named
    exact ⟨known earlier among refers first brought, apart.2 first brought second other named⟩

/-- Columns that are accepted without loss do not clash. -/
theorem TableDeclaration.KeepsColumns.clashFree (keeps : declaration.KeepsColumns)
    (accepted : declaration.Accepted) : declaration.ClashFree := by
  rw [accepted_iff, List.pairwise_flatMap] at accepted
  obtain ⟨founded, _, agree⟩ := accepted
  refine ⟨keeps, founded, agree.imp ?_⟩
  exact fun agrees first brought second other named => (agrees first brought second other named).2

end Columns

/-- The attributes of a reference come from the key of a table, and each has a lineage. -/
theorem TableHistory.lineage_of_reference (history : TableHistory) {column : ColumnDeclaration}
    (among : column ∈ history.declaration.columns) (refers : column.refers = true)
    {schema table : String} {attrs : List Attribute}
    (brings : column.attributes? schema table = .ok attrs) :
    ∀ attr ∈ attrs, attr.lineage.isSome = true := by
  induction history with
  | start => contradiction
  | native before kind name domain ih =>
      rcases List.mem_append.1 among with earlier | last
      · exact ih earlier
      · rw [List.mem_singleton.1 last] at refers
        cases kind <;> contradiction
  | reference before parent inKey renames ih _ =>
      rcases List.mem_append.1 among with earlier | last
      · exact ih earlier
      · rw [List.mem_singleton.1 last, TableDeclaration.referenceTo] at brings
        cases declared : parent.declaration.heading? with
        | error fault =>
            rw [declared] at brings
            contradiction
        | ok heading =>
            rw [declared] at brings
            injection brings with same
            subst same
            intro attr inside
            obtain ⟨origin, member, rfl⟩ := List.mem_map.1 inside
            obtain ⟨visible, key⟩ := List.mem_filter.1 member
            have accounts := Accounts.of_heading parent.accounts declared
            obtain ⟨_, _, some⟩ := accounts.lineage_of_key (Heading.mem_visible.1 visible).1 key
            exact Option.isSome_iff_exists.2 ⟨_, some⟩

theorem TableHistory.lineage_of_brought (history : TableHistory) :
    ∀ column ∈ history.declaration.columns, column.refers = true →
      ∀ attr ∈ history.declaration.brought column, attr.lineage.isSome = true := by
  intro column among refers attr inside
  unfold TableDeclaration.brought at inside
  cases brings : column.attributes? history.declaration.schema history.declaration.table with
  | error fault =>
      rw [brings] at inside
      contradiction
  | ok attrs =>
      rw [brings] at inside
      exact history.lineage_of_reference among refers brings attr inside

/-- A table is accepted when the tables that it refers to are and its attributes agree. That is
the same as having no clashes exactly if no key attribute declared here has a namesake in another
column, and no reference brings two key attributes under one name, in a table that is accepted.
The columns for the key decide which attributes are in it. -/
theorem TableHistory.accepted_exactly (history : TableHistory) :
    (history.declaration.Accepted ↔ history.declaration.Founded ∧
      (history.declaration.columns.flatMap history.declaration.brought).Pairwise
        Attribute.Agrees) ∧
    ((history.declaration.Accepted ↔ history.declaration.ClashFree) ↔
      (history.declaration.Accepted → history.declaration.KeepsColumns)) ∧
    ∀ heading, history.declaration.heading? = .ok heading → ∀ attr ∈ heading.attributes,
      (attr.inKey = true ↔ ∃ column ∈ history.declaration.columns, column.forKey = true ∧
        attr.name ∈ (history.declaration.brought column).map Attribute.name) := by
  refine ⟨TableDeclaration.accepted_iff, ?_, fun heading declared attr inside =>
    TableDeclaration.inKey_iff declared inside⟩
  constructor
  · exact fun same accepted => (same.1 accepted).toKeepsColumns
  · intro keeps
    exact ⟨fun accepted => (keeps accepted).clashFree accepted,
      fun clashFree => clashFree.accepted history.lineage_of_brought⟩

/-- A visit refers to a subject twice, and one of the references is for the key. -/
def visitHistory : TableHistory :=
  .reference (.reference (.start "lab" "visit")
    (.native (.start "lab" "subject") .primary "subject_id" .int) false [])
    (.native (.start "lab" "subject") .primary "subject_id" .int) true []

/-- The subject of a visit is in its key, although the first reference is not for the key. -/
theorem TableHistory.accepted_exactly_of_visit :
    visitHistory.declaration.ClashFree ∧ ∃ heading subject,
      visitHistory.declaration.heading? = .ok heading ∧ heading.attributes = [subject] ∧
      subject.inKey = true := by
  obtain ⟨_, exact, keyed⟩ := visitHistory.accepted_exactly
  have declared : visitHistory.declaration.heading? = .ok _ := rfl
  have keeps : visitHistory.declaration.KeepsColumns := by
    constructor
    · decide +kernel
    · decide +kernel
  refine ⟨(exact.2 fun _ => keeps).1 ⟨_, declared⟩, _, _, declared, rfl, ?_⟩
  apply (keyed _ declared _ List.mem_cons_self).2
  exact ⟨.reference _ true [], List.mem_cons_of_mem _ List.mem_cons_self, rfl, List.mem_cons_self⟩

/-- The key of a subject is declared twice, with different types. -/
def repeatedKey : TableHistory :=
  .native (.native (.start "lab" "subject") .primary "subject_id" .int) .primary "subject_id"
    .string

/-- The second declaration clashes with the first one, and it is dropped without a fault. -/
theorem TableHistory.accepts_repeatedKey :
    (∃ heading, repeatedKey.declaration.heading? = .ok heading ∧
      heading.attributes.map (fun attr => (attr.name, attr.domain)) = [("subject_id", .int)]) ∧
    ¬ (repeatedKey.declaration.Accepted ↔ repeatedKey.declaration.ClashFree) := by
  have declared : repeatedKey.declaration.heading? = .ok _ := rfl
  refine ⟨⟨_, declared, rfl⟩, fun same => ?_⟩
  have across := (same.1 ⟨_, declared⟩).across
  have named := List.pairwise_pair.1 across _ List.mem_cons_self _ List.mem_cons_self rfl
  exact absurd named.1 Bool.false_ne_true

end QueryAlgebra
