/-
This file defines identifiers and bare references to a name.
-/
import QueryAlgebra.Text.Blank

namespace QueryAlgebra

def isIdentifierStart (c : Char) : Bool := c.isAlpha || c == '_'

def isIdentifierPart (c : Char) : Bool := c.isAlphanum || c == '_'

/-- An identifier has ASCII letters, digits and underscores and no digit in front. -/
def isIdentifier : List Char → Bool
  | [] => false
  | c :: rest => isIdentifierStart c && rest.all isIdentifierPart

/-- A text in one pair of parentheses loses them and the white space inside. -/
def parenthesised? : List Char → Option (List Char)
  | '(' :: rest => if rest.getLast? = some ')' then some (trimBlanks rest.dropLast) else none
  | _ => none

theorem parenthesised?_eq_some {text inner : List Char} : parenthesised? text = some inner ↔
    ∃ body, text = '(' :: body ++ [')'] ∧ trimBlanks body = inner := by
  constructor
  · intro stripped
    unfold parenthesised? at stripped
    split at stripped
    · next rest =>
        split at stripped
        · next closed =>
            obtain ⟨body, rfl⟩ := List.getLast?_eq_some_iff.1 closed
            rw [List.dropLast_concat] at stripped
            exact ⟨body, rfl, Option.some.inj stripped⟩
        · contradiction
    · contradiction
  · rintro ⟨body, rfl, rfl⟩
    simp [parenthesised?]

end QueryAlgebra
