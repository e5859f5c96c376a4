/-
This file reduces the compilation of restrictions to that of their leaves. The first leaf that is
refused decides the fault, and the columns are those of the leaves, whatever constants do to the
condition.
-/
import QueryAlgebra.Proofs.AwaitedNames
import QueryAlgebra.Proofs.NegationParity

namespace QueryAlgebra

/-- The names of all sets, each at the place where it first occurs. -/
def NameSet.collect (sets : List NameSet) : NameSet := .ofList (sets.flatMap NameSet.toList)

theorem NameSet.collect_singleton (set : NameSet) : NameSet.collect [set] = set := by
  rw [collect, List.flatMap_singleton, ofList_toList]

theorem NameSet.collect_append (first second : List NameSet) :
    NameSet.collect (first ++ second) =
      (NameSet.collect first).union (NameSet.collect second) := by
  rw [collect, List.flatMap_append, ofList, insertAll_append, union, collect, collect, ofList,
    ofList, insertAll_insertAll]
  rfl

theorem NameSet.mem_collect {sets : List NameSet} {name : String} :
    name ∈ NameSet.collect sets ↔ ∃ set ∈ sets, name ∈ set := by
  rw [collect, mem_ofList, List.mem_flatMap]
  rfl

theorem allColumns_eq_collect (parts : List Compiled) :
    allColumns parts = .collect (parts.map Compiled.columns) := by
  have collected : ∀ start : NameSet,
      parts.foldl (fun columns part => columns.union part.columns) start =
        start.insertAll ((parts.map Compiled.columns).flatMap NameSet.toList) := by
    induction parts with
    | nil => exact fun _ => rfl
    | cons first rest ih =>
        intro start
        rw [List.foldl_cons, ih, List.map_cons, List.flatMap_cons, NameSet.insertAll_append]
        rfl
  exact collected NameSet.empty

/-- The columns that a restriction mentions when it stands alone, or why it is refused. -/
def Restriction.mentions (scope : Scope) (restriction : Restriction) : Except Fault NameSet :=
  ((restriction.compile scope false).runFrom AliasCount.zero).1.map Compiled.columns

section Mentions

variable {scope : Scope}

theorem Restriction.columns_of_plain {restriction : Restriction}
    (plain : restriction.isNegation = false) (negated : Bool) (count : AliasCount) :
    ((restriction.compile scope negated).runFrom count).1.map Compiled.columns =
      ((restriction.compile scope false).runFrom count).1.map Compiled.columns := by
  cases negated with
  | false => rfl
  | true =>
      rw [compile_opposite scope plain count]
      cases ((restriction.compile scope false).runFrom count).1 <;> rfl

/-- The polarity has no part in which columns are mentioned. -/
theorem Restriction.columns_of_polarity (count : AliasCount) :
    ∀ (restriction : Restriction) (negated : Bool),
      ((restriction.compile scope negated).runFrom count).1.map Compiled.columns =
        ((restriction.compile scope false).runFrom count).1.map Compiled.columns
  | .negation inner, negated => by
      -- Both sides carry the other polarity inward.
      rw [Restriction.compile, Restriction.compile, columns_of_polarity count inner (!negated),
        columns_of_polarity count inner (!false)]
  | .constant _, negated | .universal _, negated | .raw _, negated | .mapping _, negated
  | .record _, negated | .disjunction _, negated | .conjunction _, negated
  | .semijoin _ _, negated => columns_of_plain rfl negated count

/-- Neither the polarity nor the aliases given before have a part in what is mentioned. -/
theorem Restriction.columns_of_compile (restriction : Restriction) (negated : Bool)
    (count : AliasCount) :
    ((restriction.compile scope negated).runFrom count).1.map Compiled.columns =
      restriction.mentions scope := by
  have shifted := @Restriction.compile_shifts count scope false restriction AliasCount.zero
  rw [count.zero_plus] at shifted
  rw [columns_of_polarity, shifted, mentions]
  cases ((restriction.compile scope false).runFrom AliasCount.zero).1 <;> rfl

theorem columns_of_compileAll (items : List Restriction) (count : AliasCount) :
    ((compileAll scope items).runFrom count).1.map (List.map Compiled.columns) =
      items.mapM (Restriction.mentions scope) := by
  induction items generalizing count with
  | nil => rfl
  | cons first rest ih =>
      rw [compileAll, Rendering.runFrom_bind, List.mapM_cons,
        ← first.columns_of_compile false count]
      rcases (first.compile scope false).runFrom count with ⟨fault | compiled, later⟩
      · rfl
      · rw [← ih later]
        simp only [Rendering.runFrom_bind]
        rcases (compileAll scope rest).runFrom later with ⟨fault | parts, last⟩ <;> rfl

/-- A list that is combined into one condition mentions what its members mention. -/
theorem columns_of_combined (items : List Restriction) (combine : List Condition → Condition)
    (count : AliasCount) :
    ((do
      let parts ← compileAll scope items
      return ⟨combine (parts.map (·.condition)), allColumns parts⟩ :
        Rendering Compiled).runFrom count).1.map Compiled.columns =
      (items.mapM (Restriction.mentions scope)).map NameSet.collect := by
  rw [Rendering.runFrom_bind, ← columns_of_compileAll items count]
  rcases (compileAll scope items).runFrom count with ⟨fault | parts, later⟩
  · rfl
  · exact congrArg Except.ok (allColumns_eq_collect parts)

theorem collect_mapM_singleton (scope : Scope) (leaf : Restriction) :
    ([leaf].mapM (Restriction.mentions scope)).map NameSet.collect = leaf.mentions scope := by
  rw [List.mapM_cons, List.mapM_nil]
  cases leaf.mentions scope with
  | error fault => rfl
  | ok columns => exact congrArg Except.ok columns.collect_singleton

theorem collect_mapM_append (scope : Scope) (first second : List Restriction) :
    ((first ++ second).mapM (Restriction.mentions scope)).map NameSet.collect =
      (first.mapM (Restriction.mentions scope)).map NameSet.collect >>= fun columns =>
        ((second.mapM (Restriction.mentions scope)).map NameSet.collect).map columns.union := by
  rw [List.mapM_append]
  rcases first.mapM (Restriction.mentions scope) with fault | head
  · rfl
  · rcases second.mapM (Restriction.mentions scope) with fault | tail
    · rfl
    · exact congrArg Except.ok (NameSet.collect_append head tail)

mutual

/-- A restriction mentions what its leaves mention, and is refused for the first of them that is
refused. -/
theorem Restriction.mentions_eq_leaves : ∀ restriction : Restriction,
    restriction.mentions scope =
      (restriction.leaves.mapM (Restriction.mentions scope)).map NameSet.collect
  | .constant _ | .universal _ | .raw _ | .mapping _ | .record _ | .semijoin _ _ => by
      rw [Restriction.leaves, collect_mapM_singleton]
  | .disjunction items => by
      rw [Restriction.mentions, Restriction.compile, columns_of_combined, Restriction.leaves]
      exact collect_mapM_leaves items
  | .conjunction items => by
      rw [Restriction.mentions, Restriction.compile, columns_of_combined, Restriction.leaves]
      exact collect_mapM_leaves items
  | .negation inner => by
      rw [Restriction.mentions, Restriction.compile, inner.columns_of_compile, Restriction.leaves]
      exact inner.mentions_eq_leaves

theorem collect_mapM_leaves : ∀ items : List Restriction,
    (items.mapM (Restriction.mentions scope)).map NameSet.collect =
      ((leavesOfAll items).mapM (Restriction.mentions scope)).map NameSet.collect
  | [] => rfl
  | first :: rest => by
      -- Collecting is a homomorphism, so that the first member can be replaced by its leaves.
      rw [leavesOfAll, ← List.singleton_append, collect_mapM_append, collect_mapM_singleton,
        first.mentions_eq_leaves, collect_mapM_leaves rest, ← collect_mapM_append]

end

/-- The restriction compiles from a count of aliases. -/
def Restriction.Gives (scope : Scope) (count : AliasCount) (restriction : Restriction)
    (compiled : Compiled) : Prop :=
  ∃ later, (restriction.compile scope false).Yields count compiled later

/-- The restriction is refused from a count of aliases. -/
def Restriction.Refused (scope : Scope) (count : AliasCount) (restriction : Restriction)
    (fault : Fault) : Prop :=
  ∃ later, (restriction.compile scope false).runFrom count = (.error fault, later)

theorem Restriction.mentions_eq_ok {restriction : Restriction} {columns : NameSet}
    (count : AliasCount) :
    restriction.mentions scope = .ok columns ↔
      ∃ compiled, restriction.Gives scope count compiled ∧ compiled.columns = columns := by
  rw [← restriction.columns_of_compile false count]
  unfold Gives Rendering.Yields
  rcases (restriction.compile scope false).runFrom count with ⟨fault | compiled, later⟩ <;>
    simp [Except.map]

theorem Restriction.mentions_eq_error {restriction : Restriction} {fault : Fault}
    (count : AliasCount) :
    restriction.mentions scope = .error fault ↔ restriction.Refused scope count fault := by
  rw [← restriction.columns_of_compile false count]
  unfold Refused
  rcases (restriction.compile scope false).runFrom count with ⟨other | compiled, later⟩ <;>
    simp [Except.map]

theorem Restriction.exists_gives_iff {restriction : Restriction} (count : AliasCount) :
    (∃ compiled, restriction.Gives scope count compiled) ↔
      ∃ columns, restriction.mentions scope = .ok columns := by
  simp only [mentions_eq_ok count, exists_comm, exists_and_left, exists_eq', and_true]

/-- A restriction mentions the columns of its leaves, if none of them is refused. -/
theorem Restriction.mentions_eq_collect {restriction : Restriction} {columns : NameSet} :
    restriction.mentions scope = .ok columns ↔
      ∃ sets, restriction.leaves.mapM (Restriction.mentions scope) = .ok sets ∧
        NameSet.collect sets = columns := by
  rw [mentions_eq_leaves]
  cases restriction.leaves.mapM (Restriction.mentions scope) <;> simp [Except.map]

theorem Restriction.exists_mentions_iff {restriction : Restriction} :
    (∃ columns, restriction.mentions scope = .ok columns) ↔
      ∀ leaf ∈ restriction.leaves, ∃ columns, leaf.mentions scope = .ok columns := by
  constructor
  · rintro ⟨columns, mentioned⟩ leaf below
    obtain ⟨sets, each, _⟩ := mentions_eq_collect.1 mentioned
    exact exists_of_mapM each below
  · intro each
    obtain ⟨sets, run⟩ := exists_mapM each
    exact ⟨_, mentions_eq_collect.2 ⟨sets, run, rfl⟩⟩

/-- A restriction compiles exactly when all of its leaves do. -/
theorem Restriction.compiles_iff_leaves (restriction : Restriction) :
    restriction.Compiles scope ↔ ∀ leaf ∈ restriction.leaves, leaf.Compiles scope := by
  have mentions_iff : ∀ other : Restriction,
      other.Compiles scope ↔ ∃ columns, other.mentions scope = .ok columns :=
    fun other => other.exists_gives_iff AliasCount.zero
  simp only [mentions_iff]
  exact exists_mentions_iff

/-- A restriction is refused for the first of its leaves that is refused. -/
theorem Restriction.refused_iff_leaf {restriction : Restriction} {fault : Fault}
    (count own : AliasCount) :
    restriction.Refused scope count fault ↔
      ∃ before leaf after, restriction.leaves = before ++ leaf :: after ∧
        (∀ earlier ∈ before, ∃ part, earlier.Gives scope own part) ∧
        leaf.Refused scope own fault := by
  simp only [← mentions_eq_error count, ← mentions_eq_error own, exists_gives_iff own,
    ← mapM_eq_error]
  rw [mentions_eq_leaves]
  cases restriction.leaves.mapM (Restriction.mentions scope) <;> simp [Except.map]

theorem Restriction.exists_parts {leaves : List Restriction} {sets : List NameSet}
    (own : AliasCount)
    (each : List.Forall₂ (fun leaf columns => leaf.mentions scope = .ok columns) leaves sets) :
    ∃ parts, List.Forall₂ (Restriction.Gives scope own) leaves parts ∧
      parts.map Compiled.columns = sets := by
  induction each with
  | nil => exact ⟨[], .nil, rfl⟩
  | cons first _ ih =>
      obtain ⟨part, gives, rfl⟩ := (mentions_eq_ok own).1 first
      obtain ⟨parts, others, rfl⟩ := ih
      exact ⟨part :: parts, .cons gives others, rfl⟩

/-- The columns of a restriction are those of its leaves in the order of their occurrence. -/
theorem Restriction.columns_of_leaves {restriction : Restriction} {count : AliasCount}
    {compiled : Compiled} (own : AliasCount) (gives : restriction.Gives scope count compiled) :
    ∃ parts, List.Forall₂ (Restriction.Gives scope own) restriction.leaves parts ∧
      compiled.columns.toList =
        (parts.flatMap fun part => part.columns.toList).eraseDups := by
  obtain ⟨sets, run, collected⟩ :=
    mentions_eq_collect.1 ((mentions_eq_ok count).2 ⟨compiled, gives, rfl⟩)
  obtain ⟨parts, each, rfl⟩ := exists_parts own (mapM_eq_ok.1 run)
  refine ⟨parts, each, ?_⟩
  rw [← collected, NameSet.collect, NameSet.toList_ofList, List.flatMap_map]

end Mentions

mutual

/-- The partners of a restriction stand in the semijoins among its leaves. -/
theorem Restriction.semijoin_of_partner {partner : Expression} :
    ∀ restriction : Restriction, partner ∈ restriction.partners →
      ∃ checked, Restriction.semijoin partner checked ∈ restriction.leaves
  | .constant _ | .raw _ | .mapping _ | .record _ | .universal _ => by
      simp [Restriction.partners]
  | .semijoin other checked => by
      intro read
      rw [Restriction.partners, List.mem_singleton] at read
      exact ⟨checked, by rw [Restriction.leaves, read]; exact List.mem_singleton_self _⟩
  | .disjunction items => by
      rw [Restriction.partners, Restriction.leaves]
      exact semijoin_of_partnersOfAll items
  | .conjunction items => by
      rw [Restriction.partners, Restriction.leaves]
      exact semijoin_of_partnersOfAll items
  | .negation restriction => by
      rw [Restriction.partners, Restriction.leaves]
      exact Restriction.semijoin_of_partner restriction

theorem semijoin_of_partnersOfAll {partner : Expression} :
    ∀ items : List Restriction, partner ∈ partnersOfAll items →
      ∃ checked, Restriction.semijoin partner checked ∈ leavesOfAll items
  | [] => by simp [partnersOfAll]
  | first :: rest => by
      intro read
      rw [partnersOfAll, List.mem_append] at read
      rw [leavesOfAll]
      rcases read with head | tail
      · obtain ⟨checked, leaf⟩ := Restriction.semijoin_of_partner first head
        exact ⟨checked, List.mem_append_left _ leaf⟩
      · obtain ⟨checked, leaf⟩ := semijoin_of_partnersOfAll rest tail
        exact ⟨checked, List.mem_append_right _ leaf⟩

end

/-- A restriction is accepted where it compiles and mentions visible attributes only. -/
theorem Expression.exists_validate_iff {e : Expression} {restriction : Restriction} :
    (∃ compiled, e.validate restriction = .ok compiled) ↔
      ∃ columns, restriction.mentions (e.scope e.session.config.semanticCheck) = .ok columns ∧
        ∀ name ∈ columns, name ∈ e.heading.names := by
  simp only [Restriction.mentions_eq_ok AliasCount.zero]
  constructor
  · rintro ⟨compiled, accepted⟩
    obtain ⟨rendered, visible⟩ := validate_ok accepted
    exact ⟨_, ⟨compiled, ⟨_, Prod.ext rendered rfl⟩, rfl⟩, visible⟩
  · rintro ⟨_, ⟨compiled, ⟨later, yields⟩, rfl⟩, visible⟩
    have rendered : ((restriction.compile (e.scope e.session.config.semanticCheck) false).run
        AliasCount.zero).1 = .ok compiled := congrArg Prod.fst yields
    exact ⟨compiled, bind_eq_ok.2 ⟨compiled, rendered, Heading.known_eq_ok.2 ⟨visible, rfl⟩⟩⟩

theorem Expression.exists_restrict_iff {e : Expression} {restriction : Restriction} :
    (∃ result, e.restrict restriction = .ok result) ↔
      ∃ compiled, e.validate restriction = .ok compiled := by
  constructor
  · rintro ⟨result, built⟩
    obtain ⟨compiled, accepted, _⟩ := restrict_ok built
    exact ⟨compiled, accepted⟩
  · rintro ⟨compiled, accepted⟩
    unfold restrict
    simp only [bind_eq_ok]
    refine exists_comm.1 ⟨compiled, ?_⟩
    simp only [accepted, true_and]
    split
    · exact ⟨_, rfl⟩
    · split <;> exact ⟨_, rfl⟩

/-- An expression accepts a restriction where it accepts each of the leaves. -/
theorem Expression.restrict_accepts_iff {e : Expression} {restriction : Restriction}
    (own : AliasCount) :
    (∃ result, e.restrict restriction = .ok result) ↔
      ∀ leaf ∈ restriction.leaves, ∃ part,
        leaf.Gives (e.scope e.session.config.semanticCheck) own part ∧
          ∀ name ∈ part.columns, name ∈ e.heading.names := by
  rw [exists_restrict_iff, exists_validate_iff]
  constructor
  · rintro ⟨columns, mentioned, visible⟩ leaf below
    obtain ⟨sets, run, rfl⟩ := Restriction.mentions_eq_collect.1 mentioned
    obtain ⟨set, alone⟩ := exists_of_mapM run below
    obtain ⟨part, gives, rfl⟩ := (Restriction.mentions_eq_ok own).1 alone
    have listed : part.columns ∈ sets := (mem_of_mapM run).2 ⟨leaf, below, alone⟩
    exact ⟨part, gives, fun name inside =>
      visible name (NameSet.mem_collect.2 ⟨_, listed, inside⟩)⟩
  · intro each
    obtain ⟨sets, run⟩ := exists_mapM fun leaf below =>
      (Restriction.exists_gives_iff own).1 ((each leaf below).imp fun _ both => both.1)
    refine ⟨_, Restriction.mentions_eq_collect.2 ⟨sets, run, rfl⟩, fun name inside => ?_⟩
    obtain ⟨set, listed, inside⟩ := NameSet.mem_collect.1 inside
    obtain ⟨leaf, below, alone⟩ := (mem_of_mapM run).1 listed
    obtain ⟨part, gives, visible⟩ := each leaf below
    have same := alone.symm.trans ((Restriction.mentions_eq_ok own).2 ⟨part, gives, rfl⟩)
    exact visible name (Except.ok.inj same ▸ inside)

/-- Restrictions compile leaf by leaf. A restriction compiles exactly when every leaf does on its
own, it is refused with the fault of the first leaf that is refused, and it mentions the columns
of its leaves in the order in which they first occur. An expression therefore accepts a
restriction exactly when every leaf compiles and mentions visible attributes only, also where
constants keep the leaf out of the condition. -/
theorem Restriction.compile_leafwise (restriction : Restriction) :
    (∀ (scope : Scope) (count own : AliasCount),
      ((∃ compiled, restriction.Gives scope count compiled) ↔
        ∀ leaf ∈ restriction.leaves, ∃ part, leaf.Gives scope own part) ∧
      (∀ fault, restriction.Refused scope count fault ↔
        ∃ before leaf after, restriction.leaves = before ++ leaf :: after ∧
          (∀ earlier ∈ before, ∃ part, earlier.Gives scope own part) ∧
          leaf.Refused scope own fault) ∧
      ∀ compiled, restriction.Gives scope count compiled →
        ∃ parts, List.Forall₂ (Restriction.Gives scope own) restriction.leaves parts ∧
          compiled.columns.toList =
            (parts.flatMap fun part => part.columns.toList).eraseDups) ∧
    ∀ (e : Expression) (own : AliasCount), (∃ result, e.restrict restriction = .ok result) ↔
      ∀ leaf ∈ restriction.leaves, ∃ part,
        leaf.Gives (e.scope e.session.config.semanticCheck) own part ∧
          ∀ name ∈ part.columns, name ∈ e.heading.names := by
  refine ⟨fun scope count own => ⟨?_, ?_, ?_⟩, fun e own => Expression.restrict_accepts_iff own⟩
  · simp only [exists_gives_iff]
    exact exists_mentions_iff
  · exact fun fault => refused_iff_leaf count own
  · exact fun compiled gives => columns_of_leaves own gives

/-- A leaf that names no attribute is refused beside a constant that decides the condition. -/
theorem Restriction.compile_leafwise_of_constant :
    ∃ subject, Expression.ofTable laboratory subjectDeclaration = .ok subject ∧
      ¬ ∃ result,
        subject.restrict (.disjunction [.constant true, .raw "weight > 3"]) = .ok result := by
  obtain ⟨subject, declared⟩ : ∃ subject,
      Expression.ofTable laboratory subjectDeclaration = .ok subject := ⟨_, rfl⟩
  have unknown : "weight" ∉ subject.heading.names := by
    cases declared
    decide
  refine ⟨subject, declared, fun accepted => unknown ?_⟩
  obtain ⟨part, ⟨later, yields⟩, visible⟩ :=
    ((compile_leafwise (.disjunction [.constant true, .raw "weight > 3"])).2 subject
      AliasCount.zero).1 accepted (.raw "weight > 3") (by simp [Restriction.leaves, leavesOfAll])
  rw [Restriction.compile, Rendering.yields_ofExcept] at yields
  obtain ⟨_, rfl⟩ := compileRaw_eq_ok.1 yields.1
  have mentioned : "weight" ∈ mentionedColumns (trim "weight > 3") := by decide
  exact visible "weight" mentioned

end QueryAlgebra
