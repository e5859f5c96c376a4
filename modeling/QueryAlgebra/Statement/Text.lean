/-
This file writes statements as SQL text.
-/
import QueryAlgebra.Statement

namespace QueryAlgebra

def SelectList.text : SelectList → String
  | .all => "*"
  | .items entries => ",".intercalate (entries.map SelectItem.text)

def negationText (negated : Bool) : String := if negated then "NOT " else ""

/-- No group means one row for all. -/
def groupText (groups : List String) : String :=
  if groups.isEmpty then "" else " GROUP BY " ++ quoteNames groups

def Relation.isJoin : Relation → Bool
  | .join .. => true
  | _ => false

mutual

/-- Every operand of a connective stands between its own parentheses. -/
def Formula.text (config : Config) : Formula → String
  | .raw sql => escapeWith escapeMarker sql
  | .comparison comparison => comparison.text
  | .negation formula => "NOT (" ++ formula.text config ++ ")"
  | .conjunction formulas =>
      "(" ++ ") AND (".intercalate (formulaTexts config formulas) ++ ")"
  | .disjunction formulas =>
      "(" ++ ") OR (".intercalate (formulaTexts config formulas) ++ ")"
  | .membership columns negated statement =>
      "(" ++ quoteNames columns ++ ") " ++ negationText negated ++
        "IN (" ++ statement.text config ++ ")"
  | .existence negated statement =>
      negationText negated ++ "EXISTS (" ++ statement.text config ++ ")"

def formulaTexts (config : Config) : List Formula → List String
  | [] => []
  | formula :: rest => formula.text config :: formulaTexts config rest

def Condition.text (config : Config) : Condition → String
  | .constant true => "TRUE"
  | .constant false => "FALSE"
  | .formula inner => inner.text config

/-- Only a join on the right side of a join needs parentheses. -/
def Relation.text (config : Config) : Relation → String
  | .table name => name
  | .join left right keepAll =>
      left.text config ++ (if keepAll then " NATURAL LEFT JOIN " else " NATURAL JOIN ") ++
        if right.isJoin then "(" ++ right.text config ++ ")" else right.text config
  | .derived statement name => "(" ++ statement.text config ++ ") AS " ++ name.text config
  | .union left right name =>
      "(" ++ left.text config ++ " UNION " ++ right.text config ++ ") AS " ++ name.text config

/-- A condition that always holds is left out. -/
def Condition.clause (config : Config) (keyword : String) : Condition → String
  | .constant true => ""
  | .constant false => " " ++ keyword ++ " FALSE"
  | .formula inner => " " ++ keyword ++ " " ++ inner.text config

def Statement.text (config : Config) : Statement → String
  | ⟨distinct, list, origin, filter, groups, groupFilter⟩ =>
      "SELECT " ++ (if distinct then "DISTINCT " else "") ++ list.text ++ " FROM " ++
        origin.text config ++ filter.clause config "WHERE" ++ groupText groups ++
        groupFilter.clause config "HAVING"

end

end QueryAlgebra
