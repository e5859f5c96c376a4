/-
This file collects restrictions into conjunctions without repetition.
-/
import QueryAlgebra.Expression.Equality

namespace QueryAlgebra

mutual

/-- A conjunction stands for its members. -/
def Restriction.members : Restriction → List Restriction
  | .conjunction items => membersOfAll items
  | .constant value => [.constant value]
  | .raw sql => [.raw sql]
  | .mapping pairs => [.mapping pairs]
  | .record members => [.record members]
  | .disjunction items => [.disjunction items]
  | .negation restriction => [.negation restriction]
  | .semijoin partner checked => [.semijoin partner checked]
  | .universal set => [.universal set]

def membersOfAll : List Restriction → List Restriction
  | [] => []
  | restriction :: rest => restriction.members ++ membersOfAll rest

end

/-- A restriction equal to an earlier one is not added. -/
def addRestriction (restrictions : List Restriction) (restriction : Restriction) :
    List Restriction :=
  if restrictions.contains restriction then restrictions else restrictions ++ [restriction]

def appendRestriction (restrictions : List Restriction) (restriction : Restriction) :
    List Restriction :=
  restriction.members.foldl addRestriction restrictions

def extendRestrictions (restrictions others : List Restriction) : List Restriction :=
  others.foldl appendRestriction restrictions

def Restriction.all (items : List Restriction) : Restriction :=
  .conjunction (extendRestrictions [] items)

/-- Text is raw SQL, an array is a disjunction, and a number means nothing. -/
def Restriction.ofDocument? : Document → Except Fault Restriction
  | .null => .ok (.disjunction [])
  | .bool value => .ok (.constant value)
  | .int value => .error (.restriction (.number (Document.int value).text))
  | .float value => .error (.restriction (.number (Document.float value).text))
  | .string value => .ok (.raw value)
  | .array items => (ofItems? items).map .disjunction
  | .object members => .ok (.record members)
where
  ofItems? : List Document → Except Fault (List Restriction)
    | [] => .ok []
    | item :: rest => do
        let first ← Restriction.ofDocument? item
        let others ← ofItems? rest
        return first :: others

end QueryAlgebra
