/-
This file lists the faults for which a restriction can be refused before it is placed anywhere.
Whether it needs a subquery is none of them. A rendering adds no fault to those of the leaves but
that of a field which an operand does not show.
-/
import QueryAlgebra.Proofs.LeafCompilation

namespace QueryAlgebra

/-- A fault of what a restriction says, and not of where it is placed. -/
inductive Fault.OfRestriction : Fault → Prop
  | restriction (fault : RestrictionFault) : OfRestriction (.restriction fault)
  | namesake (name : String) (left right : Option String) :
      OfRestriction (.namesake name left right)
  | join (fault : JoinFault) : OfRestriction (.join fault)
  | uuid (name value : String) : OfRestriction (.uuid name value)
  | unknownAttribute (name : String) : OfRestriction (.unknownAttribute name)

theorem Fault.OfRestriction.ne_derived {fault : Fault} (cause : fault.OfRestriction)
    (name : String) : fault ≠ .derived name := by
  cases cause <;> nofun

/-- A fault other than that of a field which a heading does not show. -/
def Fault.Elsewhere (fault : Fault) : Prop :=
  ∀ name, fault ≠ .unknownAttribute name

/-- A fault of what a leaf says, which is never about an attribute that is missing. -/
def Fault.OfLeaf (fault : Fault) : Prop :=
  fault.OfRestriction ∧ fault.Elsewhere

theorem exists_of_forM_error {ε α : Type} {check : α → Except ε Unit} {entries : List α}
    {fault : ε} (refused : entries.forM check = .error fault) :
    ∃ entry ∈ entries, check entry = .error fault := by
  induction entries with
  | nil => contradiction
  | cons entry rest ih =>
      rcases bind_eq_error.1 refused with head | ⟨_, _, tail⟩
      · exact ⟨entry, List.mem_cons_self, head⟩
      · obtain ⟨other, inside, failed⟩ := ih tail
        exact ⟨other, List.mem_cons_of_mem _ inside, failed⟩

section Leaves

variable {fault : Fault}

theorem Attribute.cause_of_homologous {first second : Attribute}
    (refused : first.homologous second = .error fault) : fault.OfLeaf := by
  unfold homologous at refused
  split at refused
  · cases refused
    exact ⟨.join _, nofun⟩
  · split at refused
    · contradiction
    · cases refused
      exact ⟨.namesake _ _ _, nofun⟩

theorem Heading.cause_of_homologous {first second : Heading}
    (refused : first.homologous second = .error fault) : fault.OfLeaf := by
  obtain ⟨attr, _, failed⟩ := exists_of_forM_error refused
  split at failed
  · exact Attribute.cause_of_homologous failed
  · contradiction

theorem Scope.cause_of_accept {scope : Scope} {partner : Expression} {checked : Bool}
    (refused : scope.accept partner checked = .error fault) : fault.OfLeaf := by
  unfold accept at refused
  split at refused
  · cases refused
    exact ⟨.join _, nofun⟩
  · split at refused
    · exact Heading.cause_of_homologous refused
    · contradiction

theorem Attribute.cause_of_operand? {attr : Attribute} {path : Option String}
    (refused : attr.operand? path = .error fault) : fault.OfLeaf := by
  cases path with
  | none => contradiction
  | some place =>
      unfold operand? at refused
      dsimp only at refused
      split at refused
      · contradiction
      · cases refused
        exact ⟨.restriction _, nofun⟩

theorem Attribute.cause_of_uuidComparand? {attr : Attribute} {value : Literal}
    (refused : attr.uuidComparand? value = .error fault) : fault.OfLeaf := by
  unfold uuidComparand? at refused
  split at refused
  · contradiction
  · split at refused
    · contradiction
    · cases refused
      exact ⟨.uuid _ _, nofun⟩
  · cases refused
    exact ⟨.uuid _ _, nofun⟩

theorem Attribute.cause_of_comparand? {attr : Attribute} {path : Option String} {value : Literal}
    (refused : attr.comparand? path value = .error fault) : fault.OfLeaf := by
  unfold comparand? at refused
  split at refused
  · contradiction
  · split at refused
    · contradiction
    · split at refused
      · exact cause_of_uuidComparand? refused
      · contradiction

theorem Heading.cause_of_compare? {heading : Heading} {key : String} {value : Literal}
    (shown : heading.contains (splitPath key).1 = true)
    (refused : heading.compare? key value = .error fault) : fault.OfLeaf := by
  unfold compare? at refused
  split at refused
  · rename_i missing
    rw [contains, missing] at shown
    contradiction
  · rcases bind_eq_error.1 refused with operand | ⟨_, _, rest⟩
    · exact Attribute.cause_of_operand? operand
    · rcases bind_eq_error.1 rest with comparand | ⟨_, _, last⟩
      · exact Attribute.cause_of_comparand? comparand
      · contradiction

/-- Pairs that name no visible attribute are not compared. -/
theorem Scope.cause_of_compare {scope : Scope} {negated : Bool} {pairs : List (String × Literal)}
    (refused : scope.compare negated pairs = .error fault) : fault.OfLeaf := by
  rw [compare_eq_map] at refused
  cases run : (scope.matching pairs).mapM fun pair => scope.heading.compare? pair.1 pair.2 with
  | ok comparisons =>
      rw [run] at refused
      contradiction
  | error cause =>
      rw [run] at refused
      cases refused
      obtain ⟨before, pair, after, parts, _, failed⟩ := mapM_eq_error.1 run
      have inside : pair ∈ scope.matching pairs := by simp [parts]
      exact Heading.cause_of_compare? (List.mem_filter.1 inside).2 failed

theorem cause_of_compileRaw {negated : Bool} {sql : String}
    (refused : compileRaw negated sql = .error fault) : fault.OfLeaf := by
  unfold compileRaw at refused
  dsimp only at refused
  split at refused
  · cases refused
    exact ⟨.restriction _, nofun⟩
  · cases refused

/-- Fields are refused for one that a heading does not show. -/
theorem Heading.missing_of_select? {heading : Heading} {fields : Option (List String)}
    (refused : heading.select? fields = .error fault) :
    ∃ names ∈ fields, ∃ name ∈ names, name ∉ heading.names ∧ fault = .unknownAttribute name := by
  cases fields with
  | none => contradiction
  | some names =>
      obtain ⟨before, name, after, parts, _, failed⟩ := mapM_eq_error.1 refused
      split at failed
      · contradiction
      · rename_i missing
        cases failed
        exact ⟨names, rfl, name, by simp [parts], get?_eq_none.1 missing, rfl⟩

theorem Expression.missing_of_selectList? {e : Expression} {fields : Option (List String)}
    (refused : e.selectList? fields = .error fault) :
    ∃ names ∈ fields, ∃ name ∈ names, name ∉ e.heading.names ∧
      fault = .unknownAttribute name := by
  unfold selectList? at refused
  split at refused
  · contradiction
  · rename_i fields _ _ _
    cases selected : e.heading.select? fields with
    | ok entries =>
        rw [selected] at refused
        contradiction
    | error cause =>
        rw [selected] at refused
        cases refused
        exact Heading.missing_of_select? selected

end Leaves

/-- A kind of faults covers what expressions of a class are refused for. These are the faults of
leaves and the fields that a union asks for and an operand does not show. -/
structure Covers (cause : Fault → Prop) (holds : Expression → Prop) : Prop where
  leaf : ∀ fault : Fault, fault.OfLeaf → cause fault
  part : ∀ e, holds e → ∀ part ∈ e.parts, holds part
  field : ∀ e, holds e → ∀ left right, e.operator = .union left right →
    ∀ name ∈ e.heading.names, name ∉ left.heading.names ∨ name ∉ right.heading.names →
      cause (.unknownAttribute name)

/-- A rendering fails for no fault of another kind. -/
def Rendering.FailsFor {α : Type} (cause : Fault → Prop) (rendering : Rendering α) : Prop :=
  ∀ count fault later, rendering.runFrom count = (.error fault, later) → cause fault

section Failing

variable {α β : Type} {cause : Fault → Prop}

theorem Rendering.FailsFor.pure (value : α) : FailsFor cause (Pure.pure value) := by
  intro _ _ _ failed
  rw [runFrom_pure] at failed
  cases failed

theorem Rendering.FailsFor.numbered (kind : AliasKind) :
    FailsFor cause (Rendering.alias kind) := by
  intro _ _ _ failed
  rw [runFrom_alias] at failed
  cases failed

theorem Rendering.FailsFor.ofExcept {result : Except Fault α}
    (known : ∀ fault, result = .error fault → cause fault) : FailsFor cause (.ofExcept result) := by
  intro _ fault _ failed
  rw [runFrom_ofExcept] at failed
  exact known fault (congrArg Prod.fst failed)

/-- A sequence fails where its first rendering fails, or the second one after it. -/
theorem Rendering.FailsFor.bind {first : Rendering α} {next : α → Rendering β}
    (start : first.FailsFor cause) (step : ∀ value, (next value).FailsFor cause) :
    FailsFor cause (first >>= next) := by
  intro count fault later failed
  rw [runFrom_bind] at failed
  rcases run : first.runFrom count with ⟨other | value, between⟩
  · rw [run] at failed
    have same : other = fault := Except.error.inj (congrArg Prod.fst failed)
    exact same ▸ start count other between run
  · rw [run] at failed
    exact step value between fault later failed

end Failing

section Covering

variable {cause : Fault → Prop} {holds : Expression → Prop}

/-- A statement fails for a field that is missing, or in one of its clauses. -/
theorem Expression.assemble_failsFor {e : Expression} {fields : Option (List String)}
    {origin : Rendering Relation} {sourceCondition : Option (Rendering Condition)}
    {condition : Rendering Condition}
    (missing : ∀ names ∈ fields, ∀ name ∈ names, name ∉ e.heading.names →
      cause (.unknownAttribute name))
    (origins : origin.FailsFor cause)
    (sources : ∀ source ∈ sourceCondition, source.FailsFor cause)
    (conditions : condition.FailsFor cause) :
    (e.assemble fields origin sourceCondition condition).FailsFor cause := by
  unfold assemble
  apply Rendering.FailsFor.bind
  · apply Rendering.FailsFor.ofExcept
    intro fault refused
    obtain ⟨names, chosen, name, inside, absent, rfl⟩ := missing_of_selectList? refused
    exact missing names chosen name inside absent
  · intro list
    apply Rendering.FailsFor.bind origins
    intro relation
    cases sourceCondition with
    | none => exact .bind conditions fun filter => .pure _
    | some source =>
        exact .bind (sources source rfl) fun filter => .bind conditions fun _ => .pure _

/-- A partner is asked for attributes that it shows, in a subquery or not. -/
theorem Expression.assemblePartner_failsFor {partner : Expression} {common : List String}
    {statement : Option (List String) → Rendering Statement}
    (shown : ∀ name ∈ common, name ∈ partner.heading.names)
    (statements : ∀ fields, (∀ names ∈ fields, ∀ name ∈ names, name ∈ partner.heading.names) →
      (statement fields).FailsFor cause) :
    (partner.assemblePartner common statement).FailsFor cause := by
  unfold assemblePartner
  split
  · apply Rendering.FailsFor.bind
    · apply Rendering.FailsFor.ofExcept
      intro fault refused
      obtain ⟨names, chosen, name, inside, absent, rfl⟩ := missing_of_selectList? refused
      rw [names_asSubquery] at absent
      exact absurd (shown name (Option.some.inj chosen ▸ inside)) absent
    · intro list
      exact .bind (statements none (by simp)) fun inner => .bind (.numbered _) fun name => .pure _
  · exact statements (some common) fun names chosen name inside =>
      shown name (Option.some.inj chosen ▸ inside)

mutual

/-- Nothing that is compiled or rendered asks where a restriction is placed. -/
theorem Restriction.compile_failsFor (covers : Covers cause holds) (scope : Scope)
    (negated : Bool) : ∀ restriction : Restriction,
      (∀ partner ∈ restriction.partners, holds partner) →
        (restriction.compile scope negated).FailsFor cause
  | .constant _ | .universal _ => by
      intro _
      rw [Restriction.compile]
      exact .pure _
  | .raw _ => by
      intro _
      rw [Restriction.compile]
      exact .ofExcept fun fault refused => covers.leaf fault (cause_of_compileRaw refused)
  | .mapping _ | .record _ => by
      intro _
      rw [Restriction.compile]
      exact .ofExcept fun fault refused => covers.leaf fault (Scope.cause_of_compare refused)
  | .disjunction items | .conjunction items => by
      intro partners
      rw [Restriction.partners] at partners
      rw [Restriction.compile]
      exact .bind (compileAll_failsFor covers scope items partners) fun parts => .pure _
  | .negation restriction => by
      intro partners
      rw [Restriction.partners] at partners
      rw [Restriction.compile]
      exact restriction.compile_failsFor covers scope (!negated) partners
  | .semijoin partner checked => by
      intro partners
      rw [Restriction.partners, List.forall_mem_singleton] at partners
      have conditions := partner.condition_failsFor covers scope.checked partners
      have statements : ∀ fields, (∀ names ∈ fields, ∀ name ∈ names,
          name ∈ partner.heading.names) → Rendering.FailsFor cause _ := fun fields shown =>
        @Expression.assemble_failsFor cause partner fields _ _ _
          (fun names chosen name inside absent => absurd (shown names chosen name inside) absent)
          (partner.origin_failsFor covers scope.checked partners)
          (partner.sourceCondition_failsFor covers scope.checked partners) conditions
      rw [Restriction.compile]
      apply Rendering.FailsFor.bind
      · exact .ofExcept fun fault refused => covers.leaf fault (Scope.cause_of_accept refused)
      · intro accepted
        dsimp only
        split
        · apply Rendering.FailsFor.bind conditions
          intro condition
          split
          · exact .pure _
          · exact .bind (statements none (by simp)) fun inner => .pure _
        · have shown : ∀ name ∈ scope.heading.common partner.heading,
              name ∈ partner.heading.names := fun name inside => (Heading.mem_common.1 inside).2
          exact .bind (Expression.assemblePartner_failsFor shown statements) fun inner => .pure _

theorem compileAll_failsFor (covers : Covers cause holds) (scope : Scope) :
    ∀ items : List Restriction, (∀ partner ∈ partnersOfAll items, holds partner) →
      (compileAll scope items).FailsFor cause
  | [] => by
      intro _
      rw [compileAll]
      exact .pure _
  | restriction :: rest => by
      intro partners
      rw [partnersOfAll, List.forall_mem_append] at partners
      rw [compileAll]
      apply Rendering.FailsFor.bind (restriction.compile_failsFor covers scope false partners.1)
      intro first
      exact .bind (compileAll_failsFor covers scope rest partners.2) fun others => .pure _

theorem Operator.origin_failsFor (covers : Covers cause holds) (checked : Bool) :
    ∀ (operator : Operator) (names : List String),
      (∀ operand ∈ operator.operands, holds operand) →
      (∀ left right, operator = .union left right → ∀ name ∈ names,
        name ∉ left.heading.names ∨ name ∉ right.heading.names →
          cause (.unknownAttribute name)) →
      (operator.origin checked names).FailsFor cause
  | .table name, _ => by
      intro _ _
      rw [Operator.origin]
      exact .pure _
  | .join left right keepAll, _ => by
      intro operands _
      have first := operands left List.mem_cons_self
      have second := operands right (List.mem_cons_of_mem _ List.mem_cons_self)
      rw [Operator.origin]
      apply Rendering.FailsFor.bind (left.origin_failsFor covers checked first)
      intro below
      exact .bind (right.origin_failsFor covers checked second) fun above => .pure _
  | .projection source, _ | .grouping source, _ => by
      intro operands _
      rw [Operator.origin]
      exact source.origin_failsFor covers checked (operands source List.mem_cons_self)
  | .union left right, names => by
      intro operands missing
      have first := operands left List.mem_cons_self
      have second := operands right (List.mem_cons_of_mem _ List.mem_cons_self)
      have lost := missing left right rfl
      rw [Operator.origin]
      apply Rendering.FailsFor.bind (Expression.assemble_failsFor
        (by
          rintro _ ⟨⟩ name inside absent
          exact lost name inside (.inl absent))
        (left.origin_failsFor covers checked first)
        (left.sourceCondition_failsFor covers checked first)
        (left.condition_failsFor covers checked first))
      intro below
      apply Rendering.FailsFor.bind (Expression.assemble_failsFor
        (by
          rintro _ ⟨⟩ name inside absent
          exact lost name inside (.inr absent))
        (right.origin_failsFor covers checked second)
        (right.sourceCondition_failsFor covers checked second)
        (right.condition_failsFor covers checked second))
      intro above
      exact .bind (.numbered _) fun name => .pure _
  | .subquery inner, _ => by
      intro operands _
      have all := operands inner List.mem_cons_self
      rw [Operator.origin]
      apply Rendering.FailsFor.bind (Expression.assemble_failsFor (by simp)
        (inner.origin_failsFor covers checked all)
        (inner.sourceCondition_failsFor covers checked all)
        (inner.condition_failsFor covers checked all))
      intro statement
      exact .bind (.numbered _) fun name => .pure _

theorem Operator.sourceCondition_failsFor (covers : Covers cause holds) (checked : Bool) :
    ∀ operator : Operator, (∀ operand ∈ operator.operands, holds operand) →
      ∀ source ∈ operator.sourceCondition checked, source.FailsFor cause
  | .table _ | .join _ _ _ | .projection _ | .union _ _ | .subquery _ => by
      simp [Operator.sourceCondition]
  | .grouping source => by
      intro operands condition found
      rw [Operator.sourceCondition, Option.mem_some_iff] at found
      rw [← found]
      exact source.condition_failsFor covers checked (operands source List.mem_cons_self)

theorem Expression.origin_failsFor (covers : Covers cause holds) (checked : Bool) :
    ∀ e : Expression, holds e → (e.origin checked).FailsFor cause
  | ⟨session, operator, heading, columns, restrictions, restricting, distinct⟩ => by
      intro all
      have operands := fun operand member =>
        covers.part _ all operand (List.mem_append_left _ member)
      rw [Expression.origin]
      exact operator.origin_failsFor covers checked heading.names operands (covers.field _ all)

theorem Expression.sourceCondition_failsFor (covers : Covers cause holds) (checked : Bool) :
    ∀ e : Expression, holds e →
      ∀ source ∈ e.sourceCondition checked, source.FailsFor cause
  | ⟨session, operator, heading, columns, restrictions, restricting, distinct⟩ => by
      intro all
      have operands := fun operand member =>
        covers.part _ all operand (List.mem_append_left _ member)
      rw [Expression.sourceCondition]
      exact operator.sourceCondition_failsFor covers checked operands

theorem Expression.condition_failsFor (covers : Covers cause holds) (checked : Bool) :
    ∀ e : Expression, holds e → (e.condition checked).FailsFor cause
  | ⟨session, operator, heading, columns, restrictions, restricting, distinct⟩ => by
      intro all
      have partners := fun partner member =>
        covers.part _ all partner (List.mem_append_right _ member)
      rw [Expression.condition]
      exact .bind (compileAll_failsFor covers _ restrictions partners) fun parts => .pure _

end

end Covering

/-- Whatever is rendered fails for a fault of a restriction. -/
theorem covers_ofRestriction : Covers Fault.OfRestriction fun _ => True where
  leaf := fun _ known => known.1
  part := fun _ _ _ _ => trivial
  field := fun _ _ _ _ _ name _ _ => .unknownAttribute name

/-- A restriction that an expression refuses is refused for a fault of its own. -/
theorem Expression.cause_of_validate {e : Expression} {restriction : Restriction} {fault : Fault}
    (refused : e.validate restriction = .error fault) : fault.OfRestriction := by
  unfold validate at refused
  rcases bind_eq_error.1 refused with failed | ⟨compiled, _, missing⟩
  · exact restriction.compile_failsFor covers_ofRestriction _ false (fun _ _ => trivial)
      AliasCount.zero fault _ (Prod.ext failed rfl)
  · split at missing
    · cases missing
      exact .unknownAttribute _
    · contradiction

end QueryAlgebra
