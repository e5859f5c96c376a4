/-
This file joins headings and decides which of their namesakes may be equated.
-/
import QueryAlgebra.Heading

namespace QueryAlgebra

/-- Names of both headings in the order of the second. -/
def Heading.common (first second : Heading) : List String :=
  second.names.filter first.contains

/-- Namesakes are homologous when they share one origin and one of them is in a key. -/
def Attribute.homologous (first second : Attribute) : Except Fault Unit :=
  if !first.inKey && !second.inKey then
    .error (.join (.sharedSecondary first.name))
  else if first.lineage.isSome && first.lineage == second.lineage then .ok ()
  else .error (.namesake first.name first.lineage second.lineage)

/-- The namesakes are compared in the order of the first heading. -/
def Heading.homologous (first second : Heading) : Except Fault Unit :=
  first.visible.forM fun attr =>
    match second.get? attr.name with
    | some other => attr.homologous other
    | none => .ok ()

/-- A key attribute is preferred to its namesake outside the key, then the first heading. -/
def Heading.keySource? (first second : Heading) (name : String) : Option Attribute :=
  ((first.get? name).filter (·.inKey)).orElse fun _ =>
    ((second.get? name).filter (·.inKey)).orElse fun _ =>
      (first.get? name).orElse fun _ => second.get? name

/-- The key comes first, then what remains of the first heading and of the second. -/
def Heading.join (first second : Heading) (key : List String) : Except Fault Heading := do
  let keyed ← key.mapM fun name =>
    match first.keySource? second name with
    | some attr => .ok { attr with inKey := true }
    | none => .error (.unknownAttribute name)
  let others := first.attributes.filter (!key.contains ·.name) ++
    second.attributes.filter fun attr =>
      !key.contains attr.name && !first.allNames.contains attr.name
  (Heading.ofAttributes? (keyed ++ others.map fun attr => { attr with inKey := false })).mapError
    .heading

end QueryAlgebra
