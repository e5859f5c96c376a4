/-
This file turns expressions into statements and restrictions into conditions.
-/
import QueryAlgebra.Expression.Conjunction
import QueryAlgebra.Heading.Joined
import QueryAlgebra.Statement
import QueryAlgebra.Text.ColumnScan

namespace QueryAlgebra

/-- A rendering gives out aliases, and those given before an error stay given. -/
abbrev Rendering (α : Type) := ExceptT Fault (StateM AliasCount) α

def Rendering.ofExcept {α : Type} (result : Except Fault α) : Rendering α :=
  ExceptT.mk (pure result)

def Rendering.alias (kind : AliasKind) : Rendering Alias :=
  ExceptT.lift (modifyGet (AliasCount.next · kind))

/-- The condition that a restriction becomes and the columns that it mentions. -/
structure Compiled where
  condition : Condition
  columns : NameSet

/-- The columns are collected from the first part to the last. -/
def allColumns (parts : List Compiled) : NameSet :=
  parts.foldl (fun columns part => columns.union part.columns) NameSet.empty

/-- Restrictions are read against a heading of a session.
The semantic check can be off for a whole rendering. -/
structure Scope where
  heading : Heading
  session : Session
  checked : Bool

/-- Pairs that name no visible attribute are ignored. -/
def Scope.compare (scope : Scope) (negated : Bool) (pairs : List (String × Literal)) :
    Except Fault Compiled := do
  let matching := pairs.filter fun pair => scope.heading.contains (splitPath pair.1).1
  let comparisons ← matching.mapM fun pair => scope.heading.compare? pair.1 pair.2
  let columns := NameSet.ofList (matching.map fun pair => (splitPath pair.1).1)
  match comparisons with
  | [] => return ⟨.constant !negated, columns⟩
  | _ =>
      let formula := Formula.conjunction (comparisons.map Formula.comparison)
      return ⟨.formula (Formula.negatedWhen negated formula), columns⟩

/-- White space around raw SQL does not matter and nothing else may be left out. -/
def compileRaw (negated : Bool) (sql : String) : Except Fault Compiled :=
  let text := trim sql
  if text.isEmpty then .error (.restriction .emptyCondition)
  else .ok ⟨.formula (Formula.negatedWhen negated (.raw text)), mentionedColumns text⟩

/-- The partner belongs to the same session and its namesakes are homologous. -/
def Scope.accept (scope : Scope) (partner : Expression) (checked : Bool) :
    Except Fault Unit :=
  if !scope.session.same partner.session then .error (.join .differentSessions)
  else if checked && scope.checked then scope.heading.homologous partner.heading
  else .ok ()

/-- The FROM clause of these operators shows columns under other names. -/
def Operator.hidesColumns : Operator → Bool
  | .grouping _ | .projection _ => true
  | _ => false

/-- A subquery selects all columns of what it reads from unless fields are named. -/
def Expression.selectList? (e : Expression) (fields : Option (List String)) :
    Except Fault SelectList :=
  match e.operator, fields with
  | .subquery _, none => .ok .all
  | _, _ => (e.heading.select? fields).map .items

/-- A statement is put together from its clauses in the order in which they are rendered.
A grouping filters the rows of its source and tests its own restrictions on groups. -/
def Expression.assemble (e : Expression) (fields : Option (List String))
    (origin : Rendering Relation) (sourceCondition : Option (Rendering Condition))
    (condition : Rendering Condition) : Rendering Statement := do
  let list ← Rendering.ofExcept (e.selectList? fields)
  let origin ← origin
  match sourceCondition with
  | some sourceCondition =>
      let filter ← sourceCondition
      let groupFilter ← condition
      return ⟨false, list, origin, filter, e.heading.primaryKey, groupFilter⟩
  | none =>
      let filter ← condition
      return ⟨e.distinct, list, origin, filter, [], .constant true⟩

/-- The partner of a semijoin is read through a subquery when it hides columns. -/
def Expression.assemblePartner (partner : Expression) (common : List String)
    (statement : Option (List String) → Rendering Statement) : Rendering Statement := do
  if partner.operator.hidesColumns then
    let list ← Rendering.ofExcept (partner.asSubquery.selectList? (some common))
    let inner ← statement none
    let name ← Rendering.alias .subquery
    return ⟨false, list, .derived inner name, .constant true, [], .constant true⟩
  else statement (some common)

mutual

/-- A negation is carried inward and turns constants over. -/
def Restriction.compile (scope : Scope) (negated : Bool) : Restriction → Rendering Compiled
  | .constant value => return ⟨.constant (negated != value), NameSet.empty⟩
  | .raw sql => Rendering.ofExcept (compileRaw negated sql)
  | .mapping pairs => Rendering.ofExcept (scope.compare negated pairs)
  | .record members =>
      Rendering.ofExcept (scope.compare negated
        (members.map fun member => (member.1, Literal.ofDocument member.2)))
  | .disjunction items => do
      let parts ← compileAll scope items
      return ⟨Condition.disjunction negated (parts.map (·.condition)), allColumns parts⟩
  | .conjunction items => do
      let parts ← compileAll scope items
      return ⟨Condition.conjunction negated (parts.map (·.condition)), allColumns parts⟩
  | .negation restriction => restriction.compile scope !negated
  | .universal _ => return ⟨.constant !negated, NameSet.empty⟩
  | .semijoin partner checked => do
      Rendering.ofExcept (scope.accept partner checked)
      let common := scope.heading.common partner.heading
      let statement := fun fields =>
        partner.assemble fields (partner.origin scope.checked)
          (partner.sourceCondition scope.checked) (partner.condition scope.checked)
      match common with
      | [] =>
          let condition ← partner.condition scope.checked
          if condition.isConstant false then return ⟨.constant negated, NameSet.empty⟩
          else return ⟨.formula (.existence negated (← statement none)), NameSet.empty⟩
      | _ =>
          let inner ← partner.assemblePartner common statement
          return ⟨.formula (.membership common negated inner), NameSet.ofList common⟩

/-- The restrictions of a list are compiled in order, and none is left out. -/
def compileAll (scope : Scope) : List Restriction → Rendering (List Compiled)
  | [] => return []
  | restriction :: rest => do
      let first ← restriction.compile scope false
      let others ← compileAll scope rest
      return first :: others

/-- Projections and groupings read from what their source reads from. -/
def Operator.origin (checked : Bool) : Operator → List String → Rendering Relation
  | .table name, _ => return .table name
  | .join left right keepAll, _ => do
      let left ← left.origin checked
      let right ← right.origin checked
      return .join left right keepAll
  | .projection source, _ => source.origin checked
  | .grouping source, _ => source.origin checked
  | .union left right, names => do
      let left ← left.assemble (some names) (left.origin checked)
        (left.sourceCondition checked) (left.condition checked)
      let right ← right.assemble (some names) (right.origin checked)
        (right.sourceCondition checked) (right.condition checked)
      return .union left right (← Rendering.alias .union)
  | .subquery inner, _ => do
      let statement ← inner.assemble none (inner.origin checked)
        (inner.sourceCondition checked) (inner.condition checked)
      return .derived statement (← Rendering.alias .subquery)

def Operator.sourceCondition (checked : Bool) : Operator → Option (Rendering Condition)
  | .grouping source => some (source.condition checked)
  | _ => none

def Expression.origin (checked : Bool) : Expression → Rendering Relation
  | ⟨_, operator, heading, _, _, _, _⟩ => operator.origin checked heading.names

def Expression.sourceCondition (checked : Bool) : Expression → Option (Rendering Condition)
  | ⟨_, operator, _, _, _, _, _⟩ => operator.sourceCondition checked

/-- The restrictions of an expression hold together. -/
def Expression.condition (checked : Bool) : Expression → Rendering Condition
  | ⟨session, _, heading, _, restrictions, _, _⟩ => do
      let parts ← compileAll ⟨heading, session, checked⟩ restrictions
      return Condition.conjunction false (parts.map (·.condition))

end

/-- The statement of an expression, for the given fields or for all visible attributes. -/
def Expression.statement (e : Expression) (checked : Bool) (fields : Option (List String)) :
    Rendering Statement :=
  e.assemble fields (e.origin checked) (e.sourceCondition checked) (e.condition checked)

end QueryAlgebra
