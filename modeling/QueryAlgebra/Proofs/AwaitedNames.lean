/-
This file describes which names of a heading a restriction depends on.
Headings that agree on these names give the same condition and the same columns.
-/
import QueryAlgebra.Proofs.AliasShift
import QueryAlgebra.Proofs.Reachability

namespace QueryAlgebra

mutual

/-- The restrictions inside lists and negations that are neither. -/
def Restriction.leaves : Restriction → List Restriction
  | .disjunction items => leavesOfAll items
  | .conjunction items => leavesOfAll items
  | .negation restriction => restriction.leaves
  | .constant value => [.constant value]
  | .raw sql => [.raw sql]
  | .mapping pairs => [.mapping pairs]
  | .record members => [.record members]
  | .semijoin partner checked => [.semijoin partner checked]
  | .universal set => [.universal set]

def leavesOfAll : List Restriction → List Restriction
  | [] => []
  | restriction :: rest => restriction.leaves ++ leavesOfAll rest

end

/-- Keys and partners ask for names that count where a heading shows them. -/
@[simp] def Restriction.leafAwaited : Restriction → List String
  | .mapping pairs => pairs.map fun pair => (splitPath pair.1).1
  | .record members => members.map fun member => (splitPath member.1).1
  | .semijoin partner _ => partner.heading.names
  | _ => []

/-- The columns that raw SQL mentions count in any heading. -/
@[simp] def Restriction.leafSpelled : Restriction → List String
  | .raw sql => (mentionedColumns (trim sql)).toList
  | _ => []

/-- The names that a restriction asks for. -/
def Restriction.awaited (restriction : Restriction) : List String :=
  restriction.leaves.flatMap leafAwaited

/-- Leaves mention what they spell out and what they ask for and the heading shows. -/
def Mentioned (heading : Heading) (leaves : List Restriction) (name : String) : Prop :=
  ∃ leaf ∈ leaves, name ∈ leaf.leafSpelled ∨ (name ∈ leaf.leafAwaited ∧ name ∈ heading.names)

theorem mem_leavesOfAll {restrictions : List Restriction} {leaf : Restriction} :
    leaf ∈ leavesOfAll restrictions ↔
      ∃ restriction ∈ restrictions, leaf ∈ restriction.leaves := by
  induction restrictions with
  | nil => simp [leavesOfAll]
  | cons first rest ih => simp [leavesOfAll, ih]

/-- The members of a restriction have no further leaves. -/
theorem Restriction.leaves_of_members {leaf restriction member : Restriction}
    (inside : member ∈ restriction.members) (below : leaf ∈ member.leaves) :
    leaf ∈ restriction.leaves := by
  have inherited : ∀ items : List Restriction,
      (leaf ∈ (Restriction.conjunction items).leaves → leaf ∈ restriction.leaves) →
        ∀ item ∈ items, leaf ∈ item.leaves → leaf ∈ restriction.leaves := by
    intro items whole item listed found
    apply whole
    rw [Restriction.leaves, mem_leavesOfAll]
    exact ⟨item, listed, found⟩
  exact @forall_members (fun other => leaf ∈ other.leaves → leaf ∈ restriction.leaves)
    inherited restriction id member inside below

theorem NameSet.not_mem_empty (name : String) : name ∉ NameSet.empty := List.not_mem_nil

theorem mem_allColumns {parts : List Compiled} {name : String} :
    name ∈ allColumns parts ↔ ∃ part ∈ parts, name ∈ part.columns := by
  have collected : ∀ columns : NameSet,
      name ∈ parts.foldl (fun columns part => columns.union part.columns) columns ↔
        name ∈ columns ∨ ∃ part ∈ parts, name ∈ part.columns := by
    induction parts with
    | nil => simp
    | cons first rest ih =>
        intro columns
        rw [List.foldl_cons, ih, NameSet.mem_union, or_assoc, List.exists_mem_cons_iff]
  rw [allColumns, collected]
  exact or_iff_right (NameSet.not_mem_empty name)

theorem NameSet.mem_ofList {names : List String} {name : String} :
    name ∈ NameSet.ofList names ↔ name ∈ names := by
  rw [ofList, mem_insertAll]
  exact or_iff_right (not_mem_empty name)

theorem Compiled.columns_compared (negated : Bool) (columns : NameSet)
    (comparisons : List Comparison) :
    (Compiled.compared negated columns comparisons).columns = columns := by
  cases comparisons <;> rfl

/-- A mapping mentions those of its keys that name visible attributes. -/
theorem Scope.mem_columns_of_compare {scope : Scope} {negated : Bool}
    {pairs : List (String × Literal)} {compiled : Compiled}
    (compared : scope.compare negated pairs = .ok compiled) {name : String} :
    name ∈ compiled.columns ↔
      name ∈ (pairs.map fun pair => (splitPath pair.1).1) ∧ name ∈ scope.heading.names := by
  obtain ⟨comparisons, _, rfl⟩ := Scope.compare_eq_ok.1 compared
  rw [Compiled.columns_compared, NameSet.mem_ofList]
  simp only [Scope.matching, List.mem_map, List.mem_filter, scope.heading.contains_iff]
  constructor
  · rintro ⟨pair, ⟨inside, shown⟩, rfl⟩
    exact ⟨⟨pair, inside, rfl⟩, shown⟩
  · rintro ⟨⟨pair, inside, rfl⟩, shown⟩
    exact ⟨pair, ⟨inside, shown⟩, rfl⟩

/-- A semijoin mentions the names that both sides show. -/
theorem Expression.mem_columns_of_semijoined {partner : Expression} {checked negated : Bool}
    {common : List String} {count later : AliasCount} {compiled : Compiled}
    (yields : (partner.semijoined checked negated common).Yields count compiled later)
    {name : String} : name ∈ compiled.columns ↔ name ∈ common := by
  unfold Expression.semijoined at yields
  split at yields
  · obtain ⟨condition, after, _, yields⟩ := Rendering.yields_bind.1 yields
    split at yields
    · obtain ⟨rfl, _⟩ := Rendering.yields_pure.1 yields
      exact iff_of_false (NameSet.not_mem_empty name) List.not_mem_nil
    · obtain ⟨inner, _, rfl⟩ := Rendering.yields_map.1 yields
      exact iff_of_false (NameSet.not_mem_empty name) List.not_mem_nil
  · obtain ⟨inner, _, rfl⟩ := Rendering.yields_map.1 yields
    exact NameSet.mem_ofList

section Leaves

variable {heading : Heading} {name : String}

@[simp] theorem mentioned_singleton {leaf : Restriction} :
    Mentioned heading [leaf] name ↔
      name ∈ leaf.leafSpelled ∨ (name ∈ leaf.leafAwaited ∧ name ∈ heading.names) := by
  simp [Mentioned]

theorem mentioned_append {first second : List Restriction} :
    Mentioned heading (first ++ second) name ↔
      Mentioned heading first name ∨ Mentioned heading second name := by
  simp [Mentioned, or_and_right, exists_or]

end Leaves

mutual

/-- The columns of a compiled restriction depend on the names of the heading alone. -/
theorem Restriction.mem_columns_of_compile (scope : Scope) (name : String) :
    ∀ (restriction : Restriction) {negated : Bool} {count later : AliasCount}
      {compiled : Compiled}, (restriction.compile scope negated).Yields count compiled later →
      (name ∈ compiled.columns ↔ Mentioned scope.heading restriction.leaves name)
  | .constant value => by
      intro yields
      rw [Restriction.compile, Rendering.yields_pure] at yields
      rw [← yields.1, Restriction.leaves, mentioned_singleton]
      simp [NameSet.not_mem_empty]
  | .universal set => by
      intro yields
      rw [Restriction.compile, Rendering.yields_pure] at yields
      rw [← yields.1, Restriction.leaves, mentioned_singleton]
      simp [NameSet.not_mem_empty]
  | .raw sql => by
      intro yields
      rw [Restriction.compile, Rendering.yields_ofExcept] at yields
      obtain ⟨_, rfl⟩ := compileRaw_eq_ok.1 yields.1
      rw [Restriction.leaves, mentioned_singleton]
      simp only [Restriction.leafSpelled, Restriction.leafAwaited, List.not_mem_nil, false_and,
        or_false]
      rfl
  | .mapping pairs => by
      intro yields
      rw [Restriction.compile, Rendering.yields_ofExcept] at yields
      rw [Restriction.leaves, mentioned_singleton,
        Scope.mem_columns_of_compare yields.1]
      simp
  | .record members => by
      intro yields
      rw [Restriction.compile, Rendering.yields_ofExcept] at yields
      rw [Restriction.leaves, mentioned_singleton,
        Scope.mem_columns_of_compare yields.1]
      simp
  | .disjunction items => by
      intro yields
      obtain ⟨parts, inside, rfl⟩ := Restriction.yields_disjunction.1 yields
      rw [Restriction.leaves]
      exact mem_columns_of_compileAll scope name items inside
  | .conjunction items => by
      intro yields
      obtain ⟨parts, inside, rfl⟩ := Restriction.yields_conjunction.1 yields
      rw [Restriction.leaves]
      exact mem_columns_of_compileAll scope name items inside
  | .negation restriction => by
      intro yields
      rw [Restriction.compile] at yields
      rw [Restriction.leaves]
      exact Restriction.mem_columns_of_compile scope name restriction yields
  | .semijoin partner checked => by
      intro yields
      obtain ⟨_, joined⟩ := Restriction.yields_semijoin.1 yields
      rw [Restriction.leaves, mentioned_singleton, Expression.mem_columns_of_semijoined joined,
        Heading.mem_common, and_comm]
      simp

theorem mem_columns_of_compileAll (scope : Scope) (name : String) :
    ∀ (items : List Restriction) {count later : AliasCount} {parts : List Compiled},
      (compileAll scope items).Yields count parts later →
      (name ∈ allColumns parts ↔ Mentioned scope.heading (leavesOfAll items) name)
  | [] => by
      intro yields
      rw [compileAll, Rendering.yields_pure] at yields
      rw [← yields.1, mem_allColumns, leavesOfAll]
      simp [Mentioned]
  | restriction :: rest => by
      intro yields
      obtain ⟨first, between, others, head, tail, rfl⟩ := yields_compileAll_cons.1 yields
      rw [mem_allColumns, List.exists_mem_cons_iff, ← mem_allColumns,
        Restriction.mem_columns_of_compile scope name restriction head,
        mem_columns_of_compileAll scope name rest tail, leavesOfAll,
        mentioned_append]

end

/-- Two headings show the same attribute under a name, or both show none.
The second heading may have it in the key and may give it another expression. -/
def Heading.AgreesAt (first second : Heading) (name : String) : Prop :=
  (name ∉ first.names ∧ name ∉ second.names) ∨
    ∃ attr other, first.get? name = some attr ∧ second.get? name = some other ∧
      other.domain = attr.domain ∧ other.lineage = attr.lineage ∧
      (attr.inKey = true → other.inKey = true)

section Agreement

variable {first second : Heading}

theorem Heading.AgreesAt.mem_names_iff {name : String} (agrees : first.AgreesAt second name) :
    name ∈ first.names ↔ name ∈ second.names := by
  rcases agrees with ⟨absent, missing⟩ | ⟨attr, other, found, shown, _⟩
  · exact iff_of_false absent missing
  · obtain ⟨inside, same⟩ := get?_eq_some.1 found
    obtain ⟨member, alike⟩ := get?_eq_some.1 shown
    exact iff_of_true (mem_names.2 ⟨attr, inside, same⟩) (mem_names.2 ⟨other, member, alike⟩)

/-- A comparison looks at the name and the domain of the attribute. -/
theorem Heading.AgreesAt.compare? {key : String} (value : Literal)
    (agrees : first.AgreesAt second (splitPath key).1) :
    first.compare? key value = second.compare? key value := by
  rcases agrees with ⟨absent, missing⟩ | ⟨attr, other, found, shown, domain, _⟩
  · simp only [Heading.compare?, get?_eq_none.2 absent, get?_eq_none.2 missing]
  · have named : other.name = attr.name :=
      (get?_eq_some.1 shown).2.trans (get?_eq_some.1 found).2.symm
    have operand : other.operand? = attr.operand? := by
      funext path
      cases path <;> simp only [Attribute.operand?, named, domain]
    have comparand (path : Option String) :
        other.comparand? path value = attr.comparand? path value := by
      simp only [Attribute.comparand?, Attribute.uuidComparand?, named, domain]
    simp only [Heading.compare?, found, shown, operand, comparand]

theorem mapM_congr {ε α β : Type} {f g : α → Except ε β} {entries : List α}
    (same : ∀ entry ∈ entries, f entry = g entry) : entries.mapM f = entries.mapM g := by
  induction entries with
  | nil => rfl
  | cons entry rest ih =>
      rw [List.mapM_cons, List.mapM_cons, same entry List.mem_cons_self,
        ih fun other inside => same other (List.mem_cons_of_mem entry inside)]

theorem Scope.compare_agrees {session : Session} {checked : Bool} (negated : Bool)
    {pairs : List (String × Literal)}
    (agrees : ∀ pair ∈ pairs, first.AgreesAt second (splitPath pair.1).1) :
    Scope.compare ⟨first, session, checked⟩ negated pairs =
      Scope.compare ⟨second, session, checked⟩ negated pairs := by
  have matching : Scope.matching ⟨first, session, checked⟩ pairs =
      Scope.matching ⟨second, session, checked⟩ pairs := by
    refine List.filter_congr fun pair inside => ?_
    rw [Bool.eq_iff_iff, first.contains_iff, second.contains_iff]
    exact (agrees pair inside).mem_names_iff
  rw [Scope.compare_eq_map, Scope.compare_eq_map, matching]
  refine congrArg _ (mapM_congr fun pair inside => ?_)
  exact (agrees pair (List.mem_filter.1 inside).1).compare? pair.2

theorem Heading.common_agrees {partner : Heading}
    (agrees : ∀ name ∈ partner.names, first.AgreesAt second name) :
    first.common partner = second.common partner := by
  refine List.filter_congr fun name inside => ?_
  rw [Bool.eq_iff_iff, first.contains_iff, second.contains_iff]
  exact (agrees name inside).mem_names_iff

/-- Attributes that move into the key stay homologous to their namesakes. -/
theorem Heading.homologous_agrees {partner : Heading}
    (agrees : ∀ name ∈ partner.names, first.AgreesAt second name)
    (checked : first.homologous partner = .ok ()) : second.homologous partner = .ok () := by
  rw [homologous_eq_ok] at checked ⊢
  intro other inside namesake found
  have shared : other.name ∈ partner.names :=
    mem_names.2 ⟨namesake, get?_eq_some.1 found⟩
  rcases agrees other.name shared with ⟨_, missing⟩ | ⟨attr, same, kept, shown, _, lineage, key⟩
  · exact absurd (mem_names.2 ⟨other, inside, rfl⟩) missing
  · rw [get?_eq_some.2 ⟨inside, rfl⟩, Option.some.injEq] at shown
    subst shown
    obtain ⟨visible, named⟩ := get?_eq_some.1 kept
    obtain ⟨inKey, known, alike⟩ := checked attr visible namesake (named.symm ▸ found)
    refine ⟨inKey.imp_left key, ?_, ?_⟩
    · rw [lineage]
      exact known
    · rw [lineage]
      exact alike

theorem Scope.accept_agrees {session : Session} {checked : Bool} {partner : Expression}
    {required : Bool} (agrees : ∀ name ∈ partner.heading.names, first.AgreesAt second name)
    (accepted : Scope.accept ⟨first, session, checked⟩ partner required = .ok ()) :
    Scope.accept ⟨second, session, checked⟩ partner required = .ok () := by
  unfold Scope.accept at accepted ⊢
  dsimp only at accepted ⊢
  split at accepted
  · contradiction
  · rename_i sameSession
    rw [if_neg sameSession]
    split at accepted
    · rename_i compared
      rw [if_pos compared]
      exact Heading.homologous_agrees agrees accepted
    · rename_i ignored
      rw [if_neg ignored]

/-- Headings agree on what leaves ask for. -/
def Heading.AgreesOn (first second : Heading) (leaves : List Restriction) : Prop :=
  ∀ leaf ∈ leaves, ∀ name ∈ leaf.leafAwaited, first.AgreesAt second name

theorem Heading.AgreesOn.mentioned_iff {leaves : List Restriction}
    (agrees : first.AgreesOn second leaves) (name : String) :
    Mentioned first leaves name ↔ Mentioned second leaves name := by
  apply exists_congr
  intro leaf
  apply and_congr_right
  intro inside
  apply or_congr_right
  apply and_congr_right
  intro awaited
  exact (agrees leaf inside name awaited).mem_names_iff

mutual

/-- A restriction that compiles under one heading compiles alike under a heading that agrees. -/
theorem Restriction.compile_agrees (session : Session) (checked : Bool) :
    ∀ (restriction : Restriction) {negated : Bool} {count later : AliasCount}
      {compiled : Compiled}, first.AgreesOn second restriction.leaves →
      (restriction.compile ⟨first, session, checked⟩ negated).Yields count compiled later →
      (restriction.compile ⟨second, session, checked⟩ negated).Yields count compiled later
  | .constant value => by
      intro agrees yields
      rw [Restriction.compile] at yields ⊢
      exact yields
  | .universal set => by
      intro agrees yields
      rw [Restriction.compile] at yields ⊢
      exact yields
  | .raw sql => by
      intro agrees yields
      rw [Restriction.compile] at yields ⊢
      exact yields
  | .mapping pairs => by
      intro agrees yields
      rw [Restriction.leaves] at agrees
      rw [Restriction.compile] at yields ⊢
      have keys : ∀ pair ∈ pairs, first.AgreesAt second (splitPath pair.1).1 := by
        simpa only [Heading.AgreesOn, List.forall_mem_singleton, Restriction.leafAwaited,
          List.forall_mem_map] using agrees
      rw [Scope.compare_agrees _ keys] at yields
      exact yields
  | .record members => by
      intro agrees yields
      rw [Restriction.leaves] at agrees
      rw [Restriction.compile] at yields ⊢
      have keys : ∀ pair ∈ members.map fun member => (member.1, Literal.ofDocument member.2),
          first.AgreesAt second (splitPath pair.1).1 := by
        simpa only [Heading.AgreesOn, List.forall_mem_singleton, Restriction.leafAwaited,
          List.forall_mem_map] using agrees
      rw [Scope.compare_agrees _ keys] at yields
      exact yields
  | .disjunction items => by
      intro agrees yields
      rw [Restriction.leaves] at agrees
      obtain ⟨parts, inside, same⟩ := Restriction.yields_disjunction.1 yields
      have again := compileAll_agrees session checked items agrees inside
      exact Restriction.yields_disjunction.2 ⟨parts, again, same⟩
  | .conjunction items => by
      intro agrees yields
      rw [Restriction.leaves] at agrees
      obtain ⟨parts, inside, same⟩ := Restriction.yields_conjunction.1 yields
      have again := compileAll_agrees session checked items agrees inside
      exact Restriction.yields_conjunction.2 ⟨parts, again, same⟩
  | .negation restriction => by
      intro agrees yields
      rw [Restriction.leaves] at agrees
      rw [Restriction.compile] at yields ⊢
      exact Restriction.compile_agrees session checked restriction agrees yields
  | .semijoin partner required => by
      intro agrees yields
      rw [Restriction.leaves] at agrees
      have shared : ∀ name ∈ partner.heading.names, first.AgreesAt second name := by
        simpa only [Heading.AgreesOn, List.forall_mem_singleton, Restriction.leafAwaited]
          using agrees
      obtain ⟨accepted, joined⟩ := Restriction.yields_semijoin.1 yields
      rw [Heading.common_agrees shared] at joined
      exact Restriction.yields_semijoin.2 ⟨Scope.accept_agrees shared accepted, joined⟩

theorem compileAll_agrees (session : Session) (checked : Bool) :
    ∀ (items : List Restriction) {count later : AliasCount} {parts : List Compiled},
      first.AgreesOn second (leavesOfAll items) →
      (compileAll ⟨first, session, checked⟩ items).Yields count parts later →
      (compileAll ⟨second, session, checked⟩ items).Yields count parts later
  | [] => by
      intro agrees yields
      rw [compileAll] at yields ⊢
      exact yields
  | restriction :: rest => by
      intro agrees yields
      rw [leavesOfAll] at agrees
      obtain ⟨head, between, others, start, tail, same⟩ := yields_compileAll_cons.1 yields
      have front : first.AgreesOn second restriction.leaves := fun leaf inside =>
        agrees leaf (List.mem_append_left _ inside)
      have back : first.AgreesOn second (leavesOfAll rest) := fun leaf inside =>
        agrees leaf (List.mem_append_right _ inside)
      have again := Restriction.compile_agrees session checked restriction front start
      have others' := compileAll_agrees session checked rest back tail
      exact yields_compileAll_cons.2 ⟨head, between, others, again, others', same⟩

end

end Agreement

/-- The members of a restriction compile with it. -/
theorem Restriction.Compiles.member {scope : Scope} {restriction member : Restriction}
    (compiles : restriction.Compiles scope) (inside : member ∈ restriction.members) :
    member.Compiles scope :=
  forall_members (fun _ => compiles_conjunction.1) restriction compiles member inside

end QueryAlgebra
