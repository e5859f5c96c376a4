/-
This file reads projection lists and selects the attributes that they keep.
-/
import QueryAlgebra.Heading.Projection

namespace QueryAlgebra

/-- An entry keeps an attribute, keeps all others or leaves an attribute out. -/
inductive ProjectionItem where
  | named (name : String)
  | others
  | without (name : String)
deriving DecidableEq, Repr

/-- Three dots stand for all others and a minus sign leaves an attribute out. -/
def ProjectionItem.ofText (text : String) : ProjectionItem :=
  match trimBlanks text.toList with
  | ['.', '.', '.'] => .others
  | '-' :: rest => .without (String.ofList (trimBlanks rest))
  | name => .named (String.ofList name)

/-- The attributes that keep their names, and those that move to another name. -/
structure Selection where
  selected : List String
  moved : List String
deriving DecidableEq, Repr

/-- An attribute moves once, and a new name is not in the list too. -/
def Heading.movedAttributes (heading : Heading) (items : List ProjectionItem)
    (renames : Renames) : Except Fault (List String) :=
  (heading.renamings renames).foldlM (fun moved entry => do
    let moved ← match entry.2 with
      | .move source =>
          if moved.contains source then .error (.projection (.movedTwice source))
          else .ok (moved ++ [source])
      | _ => .ok moved
    if items.contains (.named entry.1) then
      .error (.projection (.usedTwice entry.1))
    else .ok moved) []

/-- A name in the list is a visible attribute, occurs once and does not move. -/
def Heading.listedAttributes (heading : Heading) (items : List ProjectionItem)
    (moved : List String) : Except Fault (List String) :=
  items.foldlM (fun listed item =>
    match item with
    | .named name =>
        if !heading.contains name then .error (.unknownAttribute name)
        else if listed.contains name || moved.contains name then
          .error (.projection (.usedTwice name))
        else .ok (listed ++ [name])
    | _ => .ok listed) []

def ProjectionItem.excluded? : ProjectionItem → Option String
  | .without name => some name
  | _ => none

/-- The attributes that the three dots stand for. -/
def Heading.otherAttributes (heading : Heading) (items : List ProjectionItem)
    (renames : Renames) (moved : List String) : List String :=
  if items.contains .others then
    heading.secondary.filter fun name => !moved.contains name && !renames.names.contains name
  else []

/-- The kept attributes lead the selection and cannot be left out. -/
def Heading.selection (heading : Heading) (items : List ProjectionItem) (renames : Renames)
    (kept : List String) : Except Fault Selection := do
  let moved ← heading.movedAttributes items renames
  let listed ← heading.listedAttributes items moved
  let excluded := items.filterMap ProjectionItem.excluded?
  match excluded.find? kept.contains with
  | some name => .error (.projection (.excludedKey name))
  | none =>
      let candidates := listed ++ heading.otherAttributes items renames moved
      let selected := candidates.foldl (fun selected name =>
          if selected.contains name || excluded.contains name then selected
          else selected ++ [name]) (kept.filter (!moved.contains ·))
      return ⟨selected, moved⟩

end QueryAlgebra
