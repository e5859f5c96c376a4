/-
This file selects, renames and computes the attributes of a heading.
-/
import QueryAlgebra.Heading
import QueryAlgebra.Text.Identifier

namespace QueryAlgebra

/-- A new attribute takes over an attribute, copies it or has a value of its own. -/
inductive Renaming where
  | move (source : String)
  | copy (source : String)
  | compute (expression : String)
deriving DecidableEq, Repr

def constantNames : List String := ["null", "true", "false", "current_timestamp", "current_date"]

/-- Only a visible attribute that is named like no constant can be referred to. -/
def Heading.refersTo (heading : Heading) (name : List Char) : Bool :=
  isIdentifier name && !constantNames.contains (String.ofList name).toLower &&
    heading.contains (String.ofList name)

/-- A bare name moves the attribute and a name in parentheses copies it. -/
def Heading.classify (heading : Heading) (value : String) : Renaming :=
  let text := trimBlanks value.toList
  match parenthesised? text with
  | some inner =>
      if heading.refersTo inner then .copy (String.ofList inner)
      else .compute (String.ofList text)
  | none =>
      if heading.refersTo text then .move (String.ofList text)
      else .compute (String.ofList text)

/-- New names in order, each with the value that it is given. -/
structure Renames where
  entries : List (String × String)
  nodup : (entries.map Prod.fst).Nodup

def Renames.empty : Renames := ⟨[], by simp⟩

/-- A repeated name keeps its place and takes the later value. -/
def Renames.insert (renames : Renames) (name value : String) : Renames :=
  if present : name ∈ renames.entries.map Prod.fst then
    ⟨renames.entries.map fun entry => if entry.1 = name then (name, value) else entry, by
      have same : (renames.entries.map fun entry =>
          if entry.1 = name then (name, value) else entry).map Prod.fst =
          renames.entries.map Prod.fst := by
        rw [List.map_map]
        refine List.map_congr_left fun entry _ => ?_
        by_cases matching : entry.1 = name <;> simp [matching]
      rw [same]
      exact renames.nodup⟩
  else
    ⟨renames.entries ++ [(name, value)], by
      rw [List.map_append, List.nodup_append]
      refine ⟨renames.nodup, by simp, ?_⟩
      intro earlier inside later last same
      simp only [List.map_cons, List.map_nil, List.mem_singleton] at last
      exact present (last ▸ same ▸ inside)⟩

def Renames.ofList (entries : List (String × String)) : Renames :=
  entries.foldl (fun renames entry => renames.insert entry.1 entry.2) Renames.empty

def Renames.names (renames : Renames) : List String := renames.entries.map Prod.fst

/-- The attribute that a new name takes over or copies. -/
def Renaming.source? : Renaming → Option String
  | .move source | .copy source => some source
  | .compute _ => none

/-- New names in order, each with what it does to the heading. -/
def Heading.renamings (heading : Heading) (renames : Renames) : List (String × Renaming) :=
  renames.entries.map fun entry => (entry.1, heading.classify entry.2)

/-- The attributes that stand for `attr` after a projection, the kept one first. -/
def Attribute.images (attr : Attribute) (selected : List String)
    (renamings : List (String × Renaming)) : List Attribute :=
  (if attr.name ∈ selected then [attr] else []) ++
    (renamings.filter (·.2.source? = some attr.name)).map (attr.renamed ·.1)

/-- The attribute that a new name computes. -/
def Renaming.computed? (name : String) : Renaming → Option Attribute
  | .compute expression => some (Attribute.computed name expression)
  | .move _ | .copy _ => none

/-- The attributes of the key come first in the order of the key. -/
def forceKey (key : List String) (attrs : List Attribute) : List Attribute :=
  let marked := attrs.map fun attr => { attr with inKey := key.contains attr.name }
  key.eraseDups.flatMap (fun name => marked.filter (·.name = name)) ++
    marked.filter (!·.inKey)

/-- Renamed attributes stand where their sources stood and computed ones follow. -/
def Heading.project (heading : Heading) (selected : List String) (renames : Renames)
    (key : Option (List String)) : Except Fault Heading :=
  match selected.find? (!heading.contains ·) with
  | some missing => .error (.unknownAttribute missing)
  | none =>
      let renamings := heading.renamings renames
      let attrs := heading.visible.flatMap (·.images selected renamings) ++
        renamings.filterMap fun entry => entry.2.computed? entry.1
      (Heading.ofAttributes? (key.elim attrs (forceKey · attrs))).mapError .heading

/-- The given attributes become the key in their order and all others leave it. -/
def Heading.rekey (heading : Heading) (key : List String) : Except Fault Heading :=
  match key.find? (!heading.contains ·) with
  | some missing => .error (.unknownAttribute missing)
  | none =>
      let keyed := (key.filterMap heading.get?).map fun attr => { attr with inKey := true }
      let others := (heading.attributes.filter (!key.contains ·.name)).map fun attr =>
        { attr with inKey := false }
      (Heading.ofAttributes? (keyed ++ others)).mapError .heading

end QueryAlgebra
