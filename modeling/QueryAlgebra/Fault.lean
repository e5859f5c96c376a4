/-
This file names every reason for which a query is refused and gives each its wording.
-/
namespace QueryAlgebra

/-- A heading or a table declaration is refused for one of these reasons. -/
inductive HeadingFault where
  | hiddenKey (name : String)
  | duplicate (name : String)
  | clash (name table : String)
  | parent (fault : HeadingFault)
deriving DecidableEq, Repr

/-- A fault of a referenced table is reported with its own full wording. -/
def HeadingFault.message : HeadingFault → String
  | .hiddenKey name => "primary-key attribute `" ++ name ++ "` cannot be hidden"
  | .duplicate name => "duplicate attribute `" ++ name ++ "`"
  | .clash name table => "duplicate attribute `" ++ name ++ "` in `" ++ table ++ "`"
  | .parent fault => "Invalid heading: " ++ fault.message

/-- A restriction is refused for one of these reasons. -/
inductive RestrictionFault where
  | emptyCondition
  | notDocument (name : String)
  | number (text : String)
deriving DecidableEq, Repr

def RestrictionFault.message : RestrictionFault → String
  | .emptyCondition => "empty SQL condition"
  | .notDocument name => "`" ++ name ++ "` is not a JSON attribute"
  | .number text => "Invalid restriction type " ++ text

/-- Two operands are not combined for one of these reasons. -/
inductive JoinFault where
  | differentSessions
  | sharedSecondary (name : String)
deriving DecidableEq, Repr

def JoinFault.message : JoinFault → String
  | .differentSessions => "operands originate from different database sessions"
  | .sharedSecondary name => "shared secondary attribute `" ++ name ++ "`"

/-- Two operands have no union for one of these reasons. -/
inductive UnionFault where
  | differentAttributes (left right : List String)
  | secondaryAttributes (names : List String)
deriving DecidableEq, Repr

def UnionFault.message : UnionFault → String
  | .differentAttributes left right =>
      "operands have different attributes: [" ++ ", ".intercalate left ++
        "] and [" ++ ", ".intercalate right ++ "]"
  | .secondaryAttributes names =>
      "operands may only have primary-key attributes, found [" ++ ", ".intercalate names ++ "]"

/-- A projection list is refused for one of these reasons. -/
inductive ProjectionFault where
  | movedTwice (name : String)
  | usedTwice (name : String)
  | excludedKey (name : String)
deriving DecidableEq, Repr

def ProjectionFault.message : ProjectionFault → String
  | .movedTwice name => "attribute `" ++ name ++ "` is renamed twice"
  | .usedTwice name => "attribute `" ++ name ++ "` is used twice"
  | .excludedKey name => "primary-key attribute `" ++ name ++ "` cannot be excluded"

/-- The universal set takes part in no operation of this list. -/
inductive UniversalFault where
  | complement
  | withoutAttributes
  | join
  | keepAllRows
deriving DecidableEq, Repr

def UniversalFault.message : UniversalFault → String
  | .complement => "infinite set has no complement"
  | .withoutAttributes => "restricting an attribute-less universal set"
  | .join => "a universal set cannot be joined; restrict by it instead"
  | .keepAllRows => "a universal set aggregation cannot keep all rows"

/-- Every fault belongs to a query that cannot be compiled as written. -/
inductive Fault where
  | restriction (fault : RestrictionFault)
  | namesake (name : String) (left right : Option String)
  | join (fault : JoinFault)
  | undetermined
  | union (fault : UnionFault)
  | uuid (name value : String)
  | derived (name : String)
  | unknownAttribute (name : String)
  | projection (fault : ProjectionFault)
  | universal (fault : UniversalFault)
  | heading (fault : HeadingFault)
  | disconnected
deriving DecidableEq, Repr

/-- An attribute that originates nowhere is reported by a placeholder. -/
def originText (lineage : Option String) : String := lineage.getD "<none>"

def Fault.message : Fault → String
  | .restriction fault => "Invalid restriction: " ++ fault.message
  | .namesake name left right =>
      "non-homologous namesake: `" ++ name ++ "` originates from " ++
        originText left ++ " and " ++ originText right
  | .join fault => "Cannot join query expressions: " ++ fault.message
  | .undetermined => "Left join requires A → B"
  | .union fault => "Invalid union: " ++ fault.message
  | .uuid name value =>
      "Badly formed UUID " ++ value ++ " in restriction by `" ++ name ++ "`"
  | .derived name =>
      "Restriction on derived attribute `" ++ name ++ "` requires a subquery"
  | .unknownAttribute name => "Attribute `" ++ name ++ "` is not found"
  | .projection fault => "Invalid projection: " ++ fault.message
  | .universal fault => "Unsupported operation: " ++ fault.message
  | .heading fault => "Invalid heading: " ++ fault.message
  | .disconnected => "Session is not connected to a database"

end QueryAlgebra
