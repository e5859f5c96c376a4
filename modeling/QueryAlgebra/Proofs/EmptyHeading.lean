/-
This file determines which reachable expressions show no attribute.
Their statements have an empty SELECT list, which is no SQL.
-/
import QueryAlgebra.Proofs.Renderability
import QueryAlgebra.Proofs.SelectLists

namespace QueryAlgebra

theorem Heading.names_eq_nil {heading : Heading} : heading.names = [] ↔ heading.visible = [] :=
  List.map_eq_nil_iff

/-- Behind a subquery nothing is hidden. -/
theorem Heading.attributes_asColumns_eq_nil {heading : Heading} (nothing : heading.names = []) :
    heading.asColumns.visiblePart.attributes = [] := by
  rw [visible_asColumns, names_eq_nil.1 nothing, List.map_nil]

section Shapes

variable {heading result : Heading} {selected : List String} {renames : Renames}

/-- A projection shows nothing if nothing is selected and nothing gets a new name. -/
theorem Heading.Reshapes.names_eq_nil_iff (reshapes : heading.Reshapes selected renames result)
    (present : ∀ name ∈ selected, name ∈ heading.names) :
    result.names = [] ↔ selected = [] ∧ renames.entries = [] := by
  constructor
  · intro nothing
    constructor
    · refine List.eq_nil_iff_forall_not_mem.2 fun name kept => ?_
      obtain ⟨attr, inside, rfl⟩ := mem_names.1 (present name kept)
      obtain ⟨inKey, members⟩ := reshapes
      have image : attr ∈ attr.images selected (heading.renamings renames) :=
        Attribute.mem_images.2 (.inl ⟨kept, rfl⟩)
      have member := (members _).2 ⟨attr, .inl ⟨attr, inside, image⟩, rfl⟩
      have shown := mem_names.2 ⟨_, visible ⟨inKey, members⟩ member, rfl⟩
      rw [nothing] at shown
      contradiction
    · refine List.eq_nil_iff_forall_not_mem.2 fun entry listed => ?_
      obtain ⟨attr, shown, _⟩ := reshapes.exists_of_entry listed
      rw [names_eq_nil.1 nothing] at shown
      contradiction
  · rintro ⟨rfl, unnamed⟩
    refine List.eq_nil_iff_forall_not_mem.2 fun name shown => ?_
    obtain ⟨attr, inside, rfl⟩ := mem_names.1 shown
    obtain ⟨inKey, members⟩ := reshapes
    obtain ⟨origin, produced, _⟩ := (members attr).1 (mem_visible.1 inside).1
    simp [Produces, Attribute.mem_images, renamings, unnamed] at produced

/-- A projection hides nothing. -/
theorem Heading.Reshapes.attributes_eq_nil (reshapes : heading.Reshapes selected renames result)
    (nothing : result.names = []) : result.attributes = [] := by
  refine List.eq_nil_iff_forall_not_mem.2 fun attr inside => ?_
  have shown := reshapes.visible inside
  rw [names_eq_nil.1 nothing] at shown
  contradiction

end Shapes

section Joins

variable {first second result : Heading} {key : List String}

/-- A join shows nothing that neither side shows. -/
theorem Heading.names_of_join_eq_nil (built : first.join second key = .ok result)
    (left : first.names = []) (right : second.names = []) : result.names = [] := by
  refine List.eq_nil_iff_forall_not_mem.2 fun name shown => ?_
  obtain ⟨attr, inside, rfl⟩ := mem_names.1 shown
  obtain ⟨member, exposed⟩ := mem_visible.1 inside
  obtain ⟨origin, source, same⟩ := origin_of_join built member
  have open' : origin.hidden = false := by simpa [same] using exposed
  rcases source with source | source
  · have visible := mem_visible.2 ⟨source, open'⟩
    rw [names_eq_nil.1 left] at visible
    contradiction
  · have visible := mem_visible.2 ⟨source, open'⟩
    rw [names_eq_nil.1 right] at visible
    contradiction

/-- A join shows what the first side shows, and what the second side shows if the first side
has no attributes. -/
theorem Heading.names_of_join (built : first.join second key = .ok result) {name : String}
    (source : name ∈ first.names ∨ first.attributes = [] ∧ name ∈ second.names) :
    name ∈ result.names := by
  unfold Heading.join at built
  obtain ⟨keyed, translated, built⟩ := bind_eq_ok.1 built
  have attributes := attributes_ofAttributes (mapError_eq_ok.1 built)
  by_cases inKey : name ∈ key
  · obtain ⟨attr, taken⟩ := exists_of_mapM translated inKey
    have member := (mem_of_mapM translated).2 ⟨name, inKey, taken⟩
    cases found : first.keySource? second name with
    | none => simp [found] at taken
    | some origin =>
        simp only [found, Except.ok.injEq] at taken
        obtain ⟨shown, named⟩ := keySource?_eq_some found
        have exposed : origin.hidden = false :=
          shown.elim (fun left => (mem_visible.1 left).2) (fun right => (mem_visible.1 right).2)
        refine mem_names.2 ⟨attr, mem_visible.2 ⟨?_, by rw [← taken, exposed]⟩, ?_⟩
        · rw [attributes, mem_keyOrder]
          exact List.mem_append_left _ member
        · rw [← taken, named]
  · obtain ⟨attr, kept, exposed, rfl⟩ : ∃ attr ∈ first.attributes.filter (!key.contains ·.name) ++
        second.attributes.filter (fun attr =>
          !key.contains attr.name && !first.allNames.contains attr.name),
        attr.hidden = false ∧ attr.name = name := by
      rcases source with left | ⟨bare, right⟩
      · obtain ⟨attr, inside, rfl⟩ := mem_names.1 left
        obtain ⟨member, exposed⟩ := mem_visible.1 inside
        exact ⟨attr, List.mem_append_left _ (List.mem_filter.2 ⟨member, by simp [inKey]⟩),
          exposed, rfl⟩
      · obtain ⟨attr, inside, rfl⟩ := mem_names.1 right
        obtain ⟨member, exposed⟩ := mem_visible.1 inside
        exact ⟨attr, List.mem_append_right _ (List.mem_filter.2 ⟨member, by
          simp [inKey, allNames, bare]⟩), exposed, rfl⟩
    refine mem_names.2 ⟨{ attr with inKey := false }, mem_visible.2 ⟨?_, exposed⟩, rfl⟩
    rw [attributes, mem_keyOrder]
    exact List.mem_append_right _ (List.mem_map_of_mem kept)

end Joins

/-- The tables below an expression have attributes that are shown. -/
def Expression.Grounded (e : Expression) : Prop :=
  ∀ leaf table, Below leaf e → leaf.operator = .table table → leaf.heading.names ≠ []

section Grounding

variable {e other : Expression}

theorem Expression.grounded_iff : e.Grounded ↔
    (∀ table, e.operator = .table table → e.heading.names ≠ []) ∧
      ∀ part ∈ e.operator.operands, part.Grounded := by
  unfold Grounded
  constructor
  · exact fun all => ⟨fun table node => all e table .root node,
      fun part member leaf table below => all leaf table (.operand member below)⟩
  · rintro ⟨root, parts⟩ leaf table below node
    rcases below_iff.1 below with rfl | ⟨part, member, below⟩
    · exact root table node
    · exact parts part member leaf table below node

theorem Expression.grounded_of_table {name : String} (node : e.operator = .table name)
    (shown : e.heading.names ≠ []) : e.Grounded := by
  rw [grounded_iff, node]
  exact ⟨fun _ _ => shown, List.forall_mem_nil _⟩

@[simp] theorem Expression.grounded_asSubquery : e.asSubquery.Grounded ↔ e.Grounded := by
  rw [grounded_iff]
  constructor
  · exact fun all => all.2 e List.mem_cons_self
  · refine fun grounded => ⟨nofun, fun part member => ?_⟩
    rwa [List.mem_singleton.1 member]

theorem Expression.grounded_congr (operator : other.operator = e.operator)
    (heading : other.heading = e.heading) : other.Grounded ↔ e.Grounded := by
  rw [grounded_iff, grounded_iff, operator, heading]

theorem Expression.grounded_of_source (source : other = e.asSubquery ∨ other = e) :
    other.Grounded ↔ e.Grounded := by
  rcases source with rfl | rfl
  · exact grounded_asSubquery
  · rfl

theorem Expression.names_of_source (source : other = e.asSubquery ∨ other = e) :
    other.heading.names = e.heading.names := by
  rcases source with rfl | rfl
  · exact e.names_asSubquery
  · rfl

theorem Expression.attributes_of_source (source : other = e.asSubquery ∨ other = e)
    (nothing : e.heading.attributes = []) : other.heading.attributes = [] := by
  rcases source with rfl | rfl
  · exact Heading.attributes_asColumns_eq_nil (by simp [Heading.names, Heading.visible, nothing])
  · exact nothing

end Grounding

/-- An expression that shows no attribute: it is projected or grouped onto nothing, or it comes
from such expressions. -/
inductive Barren (sessions : Session → Prop) : Expression → Prop where
  | project {e result : Expression} {items : List ProjectionItem} {renames : Renames}
      {keepKey : Bool} {selection : Selection} (source : Reachable sessions e)
      (chosen : e.heading.selection items renames (if keepKey then e.heading.primaryKey else []) =
        .ok selection)
      (nothing : selection.selected = []) (unnamed : renames.entries = [])
      (built : e.projectItems items renames keepKey = .ok result) : Barren sessions result
  | aggregate {base group joined result : Expression} {keyed : Heading}
      {items : List ProjectionItem} {renames : Renames} {keepAll : Bool} {selection : Selection}
      (first : Reachable sessions base) (second : Reachable sessions group)
      (join : base.joinAs group ⟨keepAll, base.session.config.semanticCheck, false⟩ = .ok joined)
      (rekeyed : joined.heading.rekey base.heading.primaryKey = .ok keyed)
      (chosen : keyed.selection items renames base.heading.primaryKey = .ok selection)
      (nothing : selection.selected.filter (base.heading.lends items) = [])
      (unnamed : renames.entries = [])
      (built : base.aggregateItems group items renames keepAll = .ok result) :
      Barren sessions result
  | groupOver {e result : Expression} {renames : Renames} (source : Reachable sessions e)
      (unnamed : renames.entries = []) (built : e.groupOver [] renames = .ok result) :
      Barren sessions result
  | restrict {e result : Expression} {restriction : Restriction} (source : Barren sessions e)
      (built : e.restrict restriction = .ok result) : Barren sessions result
  | restrictDirectly {e result : Expression} {restriction : Restriction}
      (source : Barren sessions e) (built : e.restrictDirectly restriction = .ok result) :
      Barren sessions result
  | join {left right result : Expression} {mode : JoinMode} (first : Barren sessions left)
      (second : Barren sessions right) (built : left.joinAs right mode = .ok result) :
      Barren sessions result
  | union {left right result : Expression} (first : Barren sessions left)
      (second : Barren sessions right) (built : left.union right = .ok result) :
      Barren sessions result
  | subquery {e : Expression} (source : Barren sessions e) : Barren sessions e.asSubquery

variable {sessions : Session → Prop}

/-- Every selected name is one of the heading that is selected from. -/
theorem Expression.Projects.names_eq_nil_iff {e result : Expression} {items : List ProjectionItem}
    {renames : Renames} {keepKey : Bool} {selection : Selection}
    (projects : e.Projects items renames keepKey selection result) :
    result.heading.names = [] ↔ selection.selected = [] ∧ renames.entries = [] := by
  obtain ⟨projected, images, _⟩ := bind_eq_ok.1 projects.heading
  exact (Heading.reshapes_of_projectKeyed projects.heading).names_eq_nil_iff
    fun _ => Heading.selected_of_project images

theorem Heading.names_of_project_eq_nil_iff {heading result : Heading} {selected : List String}
    {renames : Renames} {key : Option (List String)}
    (built : heading.project selected renames key = .ok result) :
    result.names = [] ↔ selected = [] ∧ renames.entries = [] :=
  (reshapes_of_project built).names_eq_nil_iff fun _ => selected_of_project built

/-- Nothing is shown by a barren expression. -/
theorem Barren.names_eq_nil {e : Expression} (barren : Barren sessions e) :
    e.heading.names = [] := by
  induction barren with
  | project _ chosen nothing unnamed built =>
      obtain ⟨selection, projects⟩ := Expression.projectItems_ok built
      have same := projects.entries
      rw [chosen, Except.ok.injEq] at same
      exact projects.names_eq_nil_iff.2 ⟨same ▸ nothing, unnamed⟩
  | aggregate _ _ join rekeyed chosen nothing unnamed built =>
      obtain ⟨joined, keyed, selection, heading, again, keys, entries, projected, rfl⟩ :=
        Expression.aggregateItems_ok built
      rw [join, Except.ok.injEq] at again
      subst again
      rw [rekeyed, Except.ok.injEq] at keys
      subst keys
      rw [chosen, Except.ok.injEq] at entries
      subst entries
      exact (Heading.names_of_project_eq_nil_iff projected).2 ⟨nothing, unnamed⟩
  | groupOver _ unnamed built =>
      obtain ⟨heading, projected, rfl⟩ := Expression.groupOver_ok built
      exact (Heading.names_of_project_eq_nil_iff projected).2 ⟨rfl, unnamed⟩
  | @restrict e _ _ _ built ih =>
      exact @Expression.restrict_preserves (fun e => e.heading.names = []) _ _ _ built ih
        (e.names_asSubquery.trans ih) fun _ _ => id
  | restrictDirectly _ built ih =>
      exact @Expression.restrictDirectly_preserves (fun e => e.heading.names = []) _ _ _ built ih
        fun _ => id
  | @join left right _ _ _ _ built first second =>
      refine Heading.names_of_join_eq_nil (Expression.joinAs_ok built).heading ?_ ?_
      · exact (left.names_joinOperand _).trans first
      · exact (right.names_joinOperand _).trans second
  | @union left _ _ _ _ built first _ =>
      obtain ⟨_, _, _, _, rfl⟩ := Expression.union_ok built
      exact left.heading.names_asColumns.trans first
  | @subquery e _ ih => exact e.names_asSubquery.trans ih

section JoinOperands

variable {left right result : Expression} {mode : JoinMode}

theorem Expression.joinedLeft_cases (left right : Expression) :
    left.joinedLeft right = left.asSubquery ∨ left.joinedLeft right = left :=
  (left.joinOperand_cases _).imp_right And.left

theorem Expression.joinedRight_cases (left right : Expression) :
    left.joinedRight right = right.asSubquery ∨ left.joinedRight right = right :=
  (right.joinOperand_cases _).imp_right And.left

theorem Expression.Joins.grounded (joins : left.Joins right mode result)
    (grounded : result.Grounded) : left.Grounded ∧ right.Grounded := by
  have parts := (grounded_iff.1 grounded).2
  rw [joins.operator] at parts
  exact ⟨(grounded_of_source (left.joinedLeft_cases right)).1 (parts _ List.mem_cons_self),
    (grounded_of_source (left.joinedRight_cases right)).1
      (parts _ (List.mem_cons_of_mem _ List.mem_cons_self))⟩

theorem Expression.Joins.left_eq_nil (joins : left.Joins right mode result)
    (nothing : result.heading.names = []) : left.heading.names = [] := by
  rw [← names_of_source (left.joinedLeft_cases right)]
  refine List.eq_nil_iff_forall_not_mem.2 fun name shown => ?_
  have there := Heading.names_of_join joins.heading (.inl shown)
  rw [nothing] at there
  contradiction

/-- A hidden attribute of the left operand could hide one that the right operand shows. -/
theorem Expression.Joins.right_eq_nil (joins : left.Joins right mode result)
    (nothing : result.heading.names = []) (bare : left.heading.attributes = []) :
    right.heading.names = [] := by
  rw [← names_of_source (left.joinedRight_cases right)]
  refine List.eq_nil_iff_forall_not_mem.2 fun name shown => ?_
  have stored := attributes_of_source (left.joinedLeft_cases right) bare
  have there := Heading.names_of_join joins.heading (.inr ⟨stored, shown⟩)
  rw [nothing] at there
  contradiction

theorem Expression.Joins.attributes_eq_nil (joins : left.Joins right mode result)
    (first : left.heading.attributes = []) (second : right.heading.attributes = []) :
    result.heading.attributes = [] := by
  refine List.eq_nil_iff_forall_not_mem.2 fun attr inside => ?_
  obtain ⟨origin, source | source, _⟩ := Heading.origin_of_join joins.heading inside
  · rw [attributes_of_source (left.joinedLeft_cases right) first] at source
    contradiction
  · rw [attributes_of_source (left.joinedRight_cases right) second] at source
    contradiction

end JoinOperands

/-- What is recorded on an expression shows what the expression shows. -/
theorem Expression.restrictedSource_facts {e result : Expression} {restriction : Restriction}
    (built : e.restrict restriction = .ok result) :
    ∃ source, (source = e.asSubquery ∨ source = e) ∧ result.operator = source.operator ∧
      result.heading = source.heading := by
  obtain ⟨compiled, _, ⟨_, rfl⟩ | ⟨_, rfl⟩⟩ := restrict_ok built
  · exact ⟨result, .inr rfl, rfl, rfl⟩
  · exact ⟨e.restrictedSource, e.restrictedSource_cases.imp_right And.left, rfl, rfl⟩

/-- Over tables that show something, whatever shows nothing is barren and hides nothing. -/
theorem Reachable.barren_of_names {e : Expression} (reached : Reachable sessions e) :
    e.Grounded → e.heading.names = [] → e.heading.attributes = [] ∧ Barren sessions e := by
  induction reached with
  | table _ built =>
      obtain ⟨heading, _, rfl⟩ := Expression.ofTable_ok built
      intro grounded nothing
      exact absurd nothing (grounded _ _ .root rfl)
  | restrict _ _ built ih =>
      intro grounded nothing
      obtain ⟨source, stored, operator, heading⟩ := Expression.restrictedSource_facts built
      rw [Expression.grounded_congr operator heading, Expression.grounded_of_source stored]
        at grounded
      rw [heading, Expression.names_of_source stored] at nothing
      obtain ⟨bare, barren⟩ := ih grounded nothing
      exact ⟨heading ▸ Expression.attributes_of_source stored bare, .restrict barren built⟩
  | @restrictDirectly e _ _ _ _ built ih =>
      intro grounded nothing
      have same := @Expression.restrictDirectly_preserves
        (fun other => other.operator = e.operator ∧ other.heading = e.heading) _ _ _ built
        ⟨rfl, rfl⟩ fun _ => id
      rw [Expression.grounded_congr same.1 same.2] at grounded
      rw [same.2] at nothing ⊢
      obtain ⟨bare, barren⟩ := ih grounded nothing
      exact ⟨bare, .restrictDirectly barren built⟩
  | join _ _ built first second =>
      intro grounded nothing
      have joins := Expression.joinAs_ok built
      have operands := joins.grounded grounded
      obtain ⟨leftBare, leftBarren⟩ := first operands.1 (joins.left_eq_nil nothing)
      obtain ⟨rightBare, rightBarren⟩ := second operands.2 (joins.right_eq_nil nothing leftBare)
      exact ⟨joins.attributes_eq_nil leftBare rightBare, .join leftBarren rightBarren built⟩
  | project source built _ =>
      intro _ nothing
      obtain ⟨selection, projects⟩ := Expression.projectItems_ok built
      obtain ⟨selected, unnamed⟩ := projects.names_eq_nil_iff.1 nothing
      exact ⟨(Heading.reshapes_of_projectKeyed projects.heading).attributes_eq_nil nothing,
        .project source projects.entries selected unnamed built⟩
  | aggregate first second built _ _ =>
      intro _ nothing
      obtain ⟨joined, keyed, selection, heading, join, rekeyed, chosen, projected, rfl⟩ :=
        Expression.aggregateItems_ok built
      obtain ⟨selected, unnamed⟩ := (Heading.names_of_project_eq_nil_iff projected).1 nothing
      exact ⟨(Heading.reshapes_of_project projected).attributes_eq_nil nothing,
        .aggregate first second join rekeyed chosen selected unnamed built⟩
  | groupOver source built _ =>
      intro _ nothing
      obtain ⟨heading, projected, rfl⟩ := Expression.groupOver_ok built
      obtain ⟨rfl, unnamed⟩ := (Heading.names_of_project_eq_nil_iff projected).1 nothing
      exact ⟨(Heading.reshapes_of_project projected).attributes_eq_nil nothing,
        .groupOver source unnamed built⟩
  | @union left right _ _ _ built first second =>
      intro grounded nothing
      obtain ⟨_, sameNames, _, _, rfl⟩ := Expression.union_ok built
      have parts := (Expression.grounded_iff.1 grounded).2
      have leftNothing : left.heading.names = [] := left.heading.names_asColumns.symm.trans nothing
      have rightNothing : right.heading.names = [] := by
        refine List.eq_nil_iff_forall_not_mem.2 fun name shown => ?_
        have there := mem_sortedNames.1 (sameNames ▸ mem_sortedNames.2 shown)
        rw [leftNothing] at there
        contradiction
      exact ⟨Heading.attributes_asColumns_eq_nil leftNothing,
        .union (first (parts left List.mem_cons_self) leftNothing).2
          (second (parts right (List.mem_cons_of_mem _ List.mem_cons_self)) rightNothing).2 built⟩
  | @subquery e _ ih =>
      intro grounded nothing
      rw [Expression.names_asSubquery] at nothing
      exact ⟨Heading.attributes_asColumns_eq_nil nothing,
        .subquery (ih (Expression.grounded_asSubquery.1 grounded) nothing).2⟩

/-- A statement lists all that an expression shows, and a subquery is read with a star. -/
theorem Expression.list_eq_nil_iff {e : Expression} {checked : Bool} {count later : AliasCount}
    {statement : Statement} (rendered : (e.statement checked none).Yields count statement later) :
    statement.list = .items [] ↔
      e.heading.names = [] ∧ ∀ inner, e.operator ≠ .subquery inner := by
  have list : e.selectList? none = .ok statement.list := (yields_assemble rendered).1
  by_cases wrapped : ∃ inner, e.operator = .subquery inner
  · obtain ⟨inner, node⟩ := wrapped
    simp only [selectList?, node, Except.ok.injEq] at list
    rw [← list]
    exact iff_of_false nofun fun both => both.2 inner node
  · have items : e.selectList? none = .ok (.items (e.heading.visible.map Attribute.item)) := by
      unfold selectList?
      split
      · rename_i inner node _
        exact absurd ⟨inner, node⟩ wrapped
      · rfl
    rw [items, Except.ok.injEq] at list
    rw [← list, SelectList.items.injEq, List.map_eq_nil_iff, Heading.names_eq_nil]
    exact (and_iff_left (not_exists.1 wrapped)).symm

/-- Over tables that show something, an expression shows nothing exactly if it is barren. Its
statement then has an empty SELECT list, unless it is a subquery. Where no expression inside is
barren, no SELECT inside the statement has an empty list. -/
theorem Reachable.shows_nothing_iff {e : Expression} (reached : Reachable sessions e)
    (grounded : e.Grounded) :
    (e.heading.names = [] ↔ Barren sessions e) ∧
      (∀ checked count later statement,
        (e.statement checked none).Yields count statement later →
          (statement.list = .items [] ↔
            Barren sessions e ∧ ∀ inner, e.operator ≠ .subquery inner)) ∧
      ((∀ node, Occurs node e → node.Grounded ∧ ¬ Barren sessions node) →
        ∀ checked count later statement,
          (e.statement checked none).Yields count statement later → statement.Filled) := by
  have exactly : e.heading.names = [] ↔ Barren sessions e :=
    ⟨fun nothing => (reached.barren_of_names grounded nothing).2, Barren.names_eq_nil⟩
  refine ⟨exactly, fun checked count later statement rendered => ?_,
    fun fertile checked count later statement rendered => ?_⟩
  · rw [Expression.list_eq_nil_iff rendered, exactly]
  · have all : e.AllShow := by
      intro node occurs nothing
      obtain ⟨tables, shows⟩ := fertile node occurs
      exact shows ((reached.node occurs).barren_of_names tables nothing).2
    exact e.statement_ensures all checked count statement later rendered

theorem grounded_of_subjects {e : Expression}
    (built : Expression.ofTable laboratory subjectDeclaration = .ok e) : e.Grounded := by
  injection built with same
  subst same
  exact Expression.grounded_of_table rfl (by decide +kernel)

/-- The number of all subjects is shown for one group without a key. -/
theorem Reachable.shows_nothing_iff_of_total :
    ∃ e, Reachable (· = laboratory) e ∧ e.heading.names = ["total"] ∧
      ¬ Barren (· = laboratory) e := by
  have subjects := @Reachable.table (· = laboratory) laboratory subjectDeclaration _ rfl rfl
  have totals := @Reachable.groupOver (· = laboratory) _ _ []
    (Renames.ofList [("total", "count(*)")]) subjects rfl
  have exactly := totals.shows_nothing_iff
    (Expression.grounded_iff.2 ⟨nofun, List.forall_mem_singleton.2 (grounded_of_subjects rfl)⟩)
  refine ⟨_, totals, by decide +kernel, fun barren => ?_⟩
  have nothing := exactly.1.2 barren
  contradiction

/-- Subjects can be projected onto nothing, and the statement selects nothing. -/
theorem Reachable.shows_nothing_of_subjects :
    ∃ e, Reachable (· = laboratory) e ∧ e.Grounded ∧ e.heading.names = [] ∧
      e.sql none = .ok ("SELECT DISTINCT  FROM " ++
        "(SELECT `subject_id`,`species`,`sex` FROM `lab`.`subject`) AS `_s1`") := by
  have subjects := @Reachable.table (· = laboratory) laboratory subjectDeclaration _ rfl rfl
  have nothing := @Reachable.project (· = laboratory) _ _ [] Renames.empty false subjects rfl
  refine ⟨_, nothing, ?_, by decide +kernel, by decide +kernel⟩
  rw [Expression.grounded_iff]
  exact ⟨nofun, List.forall_mem_singleton.2
    (Expression.grounded_asSubquery.2 (grounded_of_subjects rfl))⟩

end QueryAlgebra
