/-
This file shows that a statement outputs what the heading of its expression shows. A star stands
for the columns of the statement inside, so this is followed down through the subqueries.
-/
import QueryAlgebra.Expression.Sql
import QueryAlgebra.Proofs.LineageOrigin

namespace QueryAlgebra

mutual

/-- The names of the columns that a statement outputs, if they can be told from its text. -/
def Statement.outputs : Statement → Option (List String)
  | ⟨_, .items entries, _, _, _, _⟩ => some (entries.map SelectItem.name)
  | ⟨_, .all, origin, _, _, _⟩ => origin.outputs

/-- The columns of a derived table are those of the statement inside, and a union takes them from
its left side. The text does not tell the columns of a table. -/
def Relation.outputs : Relation → Option (List String)
  | .table _ | .join _ _ _ => none
  | .derived statement _ => statement.outputs
  | .union left _ _ => left.outputs

end

/-- A list of entries outputs the fields that it was made for, or all that a heading shows. -/
theorem Heading.names_of_select {heading : Heading} {fields : Option (List String)}
    {entries : List SelectItem} (selected : heading.select? fields = .ok entries) :
    entries.map SelectItem.name = fields.getD heading.names := by
  cases fields with
  | none =>
      injection selected with same
      rw [← same, List.map_map]
      rfl
  | some fields =>
      have listed : List.Forall₂ Eq fields (entries.map SelectItem.name) := by
        refine List.forall₂_map_right_iff.2 ((mapM_eq_ok.1 selected).imp fun field item found => ?_)
        cases known : heading.get? field with
        | none =>
            rw [known] at found
            contradiction
        | some attr =>
            rw [known] at found
            rw [← Except.ok.inj found]
            exact (get?_eq_some.1 known).2.symm
      rw [List.forall₂_eq_eq_eq] at listed
      exact listed.symm

variable {sessions : Session → Prop}

/-- The induction is on the expression: below a star stands the statement of a smaller one. -/
theorem Reachable.outputs_of_statement {e : Expression} (reached : Reachable sessions e)
    {checked : Bool} {fields : Option (List String)} {count later : AliasCount}
    {statement : Statement} (yields : (e.statement checked fields).Yields count statement later) :
    statement.outputs = some (fields.getD e.heading.names) := by
  obtain ⟨selected, ⟨between, read⟩, _⟩ := Expression.yields_assemble yields
  obtain ⟨distinct, list, origin, filter, groups, groupFilter⟩ := statement
  dsimp only at selected read
  unfold Expression.selectList? at selected
  split at selected
  · rename_i inner operator
    obtain rfl := Except.ok.inj selected
    rw [e.origin_eq, operator, Operator.origin] at read
    obtain ⟨below, middle, run, read⟩ := Rendering.yields_bind.1 read
    obtain ⟨name, _, rfl⟩ := Rendering.yields_map.1 read
    have member : inner ∈ e.operator.operands := operator ▸ List.mem_singleton_self inner
    have resolved := reached.composed
    unfold Expression.Composed at resolved
    rw [operator] at resolved
    rw [Statement.outputs, Relation.outputs, (reached.operand member).outputs_of_statement run,
      resolved]
    simp
  · rename_i fields _ _ _
    cases found : e.heading.select? fields with
    | error fault =>
        rw [found] at selected
        contradiction
    | ok entries =>
        rw [found] at selected
        obtain rfl := Except.ok.inj selected
        rw [Statement.outputs, Heading.names_of_select found]
termination_by sizeOf e
decreasing_by exact Expression.sizeOf_operand member

/-- Hidden attributes are not among the names that a heading shows. -/
theorem Heading.unnamed_of_hidden {heading : Heading} {attr : Attribute}
    (inside : attr ∈ heading.attributes) (hidden : attr.hidden = true) :
    attr.name ∉ heading.names := by
  intro shown
  obtain ⟨other, visible, same⟩ := mem_names.1 shown
  obtain ⟨member, unhidden⟩ := mem_visible.1 visible
  rw [eq_of_name member inside same, hidden] at unhidden
  contradiction

/-- The text of a reachable expression is that of a statement that outputs what the heading shows,
in the same order and without repetition, and nothing that is hidden. -/
theorem Reachable.sql_outputs_heading {e : Expression} (reached : Reachable sessions e)
    {text : String} (printed : e.sql none = .ok text) :
    ∃ statement, (e.statement e.session.config.semanticCheck none).fresh = .ok statement ∧
      text = statement.text e.session.config ∧ statement.outputs = some e.heading.names ∧
      e.heading.names.Nodup ∧
      ∀ attr ∈ e.heading.attributes, attr.hidden = true → attr.name ∉ e.heading.names := by
  unfold Expression.sql at printed
  cases rendered : (e.statement e.session.config.semanticCheck none).fresh with
  | error fault =>
      rw [rendered] at printed
      contradiction
  | ok statement =>
      rw [rendered] at printed
      have yields : (e.statement e.session.config.semanticCheck none).Yields AliasCount.zero
          statement _ := Prod.ext rendered rfl
      exact ⟨statement, rfl, (Except.ok.inj printed).symm, reached.outputs_of_statement yields,
        e.heading.nodup_names, fun attr => Heading.unnamed_of_hidden⟩

/-- Two stars stand above the list with the computed attribute here. -/
theorem Reachable.sql_outputs_heading_of_label :
    ∃ (e : Expression) (statement : Statement), Reachable (· = laboratory) e ∧
      e.sql none = .ok ("SELECT * FROM (SELECT * FROM (SELECT `subject_id`,upper(species) AS " ++
        "`label` FROM `lab`.`subject`) AS `_s1` WHERE ((`label`=\"MOUSE\"))) AS `_s2`") ∧
      e.sql none = .ok (statement.text e.session.config) ∧
      statement.outputs = some ["subject_id", "label"] := by
  have subjects := @Reachable.table (· = laboratory) laboratory subjectDeclaration _ rfl rfl
  have labelled := @Reachable.project (· = laboratory) _ _ []
    (Renames.ofList [("label", "upper(species)")]) true subjects rfl
  obtain ⟨e, text, reached, printed, written, names⟩ :
      ∃ (e : Expression) (text : String), Reachable (· = laboratory) e ∧ e.sql none = .ok text ∧
        text = "SELECT * FROM (SELECT * FROM (SELECT `subject_id`,upper(species) AS " ++
          "`label` FROM `lab`.`subject`) AS `_s1` WHERE ((`label`=\"MOUSE\"))) AS `_s2`" ∧
        e.heading.names = ["subject_id", "label"] := by
    have mice := @Reachable.restrict (· = laboratory) _ _
      (.mapping [("label", .string "MOUSE")]) labelled (by simp [Restriction.partners]) rfl
    exact ⟨_, _, mice.subquery, by decide +kernel, rfl, by decide +kernel⟩
  obtain ⟨statement, _, same, outputs, _, _⟩ := reached.sql_outputs_heading printed
  exact ⟨e, statement, reached, written ▸ printed, same ▸ printed, names ▸ outputs⟩

end QueryAlgebra
