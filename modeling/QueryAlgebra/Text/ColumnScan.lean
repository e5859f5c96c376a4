/-
This file finds the columns that a raw SQL condition mentions.
Each pass removes what the next one must not see.
-/
import QueryAlgebra.NameSet
import QueryAlgebra.Text.Blank
import QueryAlgebra.Text.Word

namespace QueryAlgebra

def isLower (c : Char) : Bool := 'a' ≤ c && c ≤ 'z'

/-- Column names go on with lower-case letters, digits and underscores. -/
def isNamePart (c : Char) : Bool := isLower c || c.isDigit || c == '_'

def backtick : Char := Char.ofNat 96

/-- Words of the condition language are no columns. -/
def reservedWords : List String :=
  ["is", "in", "between", "like", "and", "or", "null", "not", "interval", "second", "minute",
    "hour", "day", "month", "week", "year"]

/-- A backslash that stands before a quote disappears together with it. -/
def dropEscapedQuotes : List Char → List Char
  | '\\' :: '"' :: rest => dropEscapedQuotes rest
  | '\\' :: '\'' :: rest => dropEscapedQuotes rest
  | c :: rest => c :: dropEscapedQuotes rest
  | [] => []

/-- A quoted text disappears with its quotes, and a quote that is never closed stays.
The pending characters, last first, follow an open quote. -/
def dropQuoted (quote : Char) (pending : Option (List Char)) : List Char → List Char
  | [] => (pending.getD []).reverse
  | c :: rest =>
      match pending with
      | none =>
          if c = quote then dropQuoted quote (some [c]) rest
          else c :: dropQuoted quote none rest
      | some held =>
          if c = quote then dropQuoted quote none rest
          else dropQuoted quote (some (c :: held)) rest

/-- A part of a condition is plain text or a name between backticks. -/
inductive Piece where
  | plain (c : Char)
  | name (text : List Char)
deriving DecidableEq, Repr

def heldPieces (held : List Char) : List Piece :=
  (held.reverse.map Piece.plain)

/-- A backtick opens a name only if a column name and another backtick follow.
The pending characters, last first, are those of the name. -/
def backtickPieces (pending : Option (List Char)) : List Char → List Piece
  | [] => (pending.elim [] fun held => .plain backtick :: heldPieces held)
  | c :: rest =>
      match pending with
      | none =>
          if c = backtick then backtickPieces (some []) rest
          else .plain c :: backtickPieces none rest
      | some held =>
          if c = backtick then
            if held.isEmpty then .plain backtick :: backtickPieces (some []) rest
            else .name held.reverse :: backtickPieces none rest
          else if (if held.isEmpty then isLower c else isNamePart c) then
            backtickPieces (some (c :: held)) rest
          else .plain backtick :: heldPieces held ++ .plain c :: backtickPieces none rest

def Piece.name? : Piece → Option String
  | .plain _ => none
  | .name text => some (String.ofList text)

def Piece.plain? : Piece → Option Char
  | .plain c => some c
  | .name _ => none

/-- White space before an opening parenthesis disappears. -/
def dropBlanksBeforeParentheses (blanks : List Char) : List Char → List Char
  | [] => blanks.reverse
  | c :: rest =>
      if c = '(' then c :: dropBlanksBeforeParentheses [] rest
      else if isBlank c then dropBlanksBeforeParentheses (c :: blanks) rest
      else blanks.reverse ++ c :: dropBlanksBeforeParentheses [] rest

/-- The state of a scan for names: outside a name or inside one, last character first. -/
inductive NameScan where
  | outside (afterWord : Bool)
  | inside (held : List Char)
deriving DecidableEq, Repr

/-- A name that starts a word and touches an opening parenthesis disappears. -/
def dropFunctions (state : NameScan) : List Char → List Char
  | [] =>
      match state with
      | .outside _ => []
      | .inside held => held.reverse
  | c :: rest =>
      match state with
      | .outside afterWord =>
          if isLower c && !afterWord then dropFunctions (.inside [c]) rest
          else c :: dropFunctions (.outside (isWord c)) rest
      | .inside held =>
          if isNamePart c then dropFunctions (.inside (c :: held)) rest
          else if c = '(' then c :: dropFunctions (.outside false) rest
          else held.reverse ++ c :: dropFunctions (.outside (isWord c)) rest

/-- A column name starts and ends where words start and end. -/
def wordNames (state : NameScan) : List Char → List String
  | [] =>
      match state with
      | .outside _ => []
      | .inside held => [String.ofList held.reverse]
  | c :: rest =>
      match state with
      | .outside afterWord =>
          if isLower c && !afterWord then wordNames (.inside [c]) rest
          else wordNames (.outside (isWord c)) rest
      | .inside held =>
          if isNamePart c then wordNames (.inside (c :: held)) rest
          else if isWord c then wordNames (.outside true) rest
          else String.ofList held.reverse :: wordNames (.outside false) rest

/-- What remains of a condition without its quoted texts. -/
def unquoted (text : List Char) : List Char :=
  dropQuoted '"' none (dropQuoted '\'' none (dropEscapedQuotes text))

/-- Names between backticks come first, then the names that stand alone. -/
def mentionedColumns (sql : String) : NameSet :=
  let pieces := backtickPieces none (unquoted sql.toList)
  let plain := dropBlanksBeforeParentheses [] (pieces.filterMap Piece.plain?)
  let names := (wordNames (.outside false) (dropFunctions (.outside false) plain)).filter (!reservedWords.contains ·)
  NameSet.ofList (pieces.filterMap Piece.name? ++ names)

end QueryAlgebra
