/-
This file shows that the order of the attributes of a heading decides neither what the
operations on headings accept nor which attributes they return.
-/
import Mathlib.Data.List.Perm.Lattice
import QueryAlgebra.Proofs.EqualityLaws
import QueryAlgebra.Proofs.OperatorResults

namespace QueryAlgebra

/-- Two results are both faults, or both values that are related. -/
inductive Concurs {ε α β : Type} (related : α → β → Prop) : Except ε α → Except ε β → Prop where
  | refused (fault other : ε) : Concurs related (.error fault) (.error other)
  | given {value : α} {other : β} (alike : related value other) :
      Concurs related (.ok value) (.ok other)

section Outcomes

variable {ε α β γ δ : Type} {related : α → β → Prop} {related' : γ → δ → Prop}

theorem Concurs.bind {first : Except ε α} {second : Except ε β} {next : α → Except ε γ}
    {next' : β → Except ε δ} (start : Concurs related first second)
    (step : ∀ value other, related value other → Concurs related' (next value) (next' other)) :
    Concurs related' (first >>= next) (second >>= next') := by
  cases start with
  | refused fault other => exact .refused fault other
  | given alike => exact step _ _ alike

theorem Concurs.map {first : Except ε α} {second : Except ε β} {f : α → γ} {g : β → δ}
    (start : Concurs related first second)
    (step : ∀ value other, related value other → related' (f value) (g other)) :
    Concurs related' (first.map f) (second.map g) := by
  cases start with
  | refused fault other => exact .refused fault other
  | given alike => exact .given (step _ _ alike)

theorem Concurs.mapError {ε' : Type} {first : Except ε α} {second : Except ε β} {f : ε → ε'}
    (start : Concurs related first second) :
    Concurs related (first.mapError f) (second.mapError f) := by
  cases start with
  | refused fault other => exact .refused (f fault) (f other)
  | given alike => exact .given alike

/-- A result concurs with itself. -/
theorem Concurs.same {same : α → α → Prop} (refl : ∀ value, same value value)
    (result : Except ε α) : Concurs same result result := by
  cases result with
  | error fault => exact .refused fault fault
  | ok value => exact .given (refl value)

theorem Concurs.trans {same : α → α → Prop} (trans : ∀ x y z, same x y → same y z → same x z)
    {first second third : Except ε α} (start : Concurs same first second)
    (next : Concurs same second third) : Concurs same first third := by
  cases start with
  | refused fault _ =>
      cases next with
      | refused _ other => exact .refused fault other
  | given alike =>
      cases next with
      | given further => exact .given (trans _ _ _ alike further)

/-- Results that are given under the same condition concur if they are related then. -/
theorem Concurs.of_iff {first : Except ε α} {second : Except ε β}
    (both : (∃ value, first = .ok value) ↔ ∃ other, second = .ok other)
    (alike : ∀ value other, first = .ok value → second = .ok other → related value other) :
    Concurs related first second := by
  cases first with
  | error fault =>
      cases second with
      | error other => exact .refused fault other
      | ok other =>
          obtain ⟨value, given⟩ := both.2 ⟨other, rfl⟩
          contradiction
  | ok value =>
      cases second with
      | error fault =>
          obtain ⟨other, given⟩ := both.1 ⟨value, rfl⟩
          contradiction
      | ok other => exact .given (alike value other rfl rfl)

/-- Two checks of the same condition are passed together. -/
theorem Concurs.guard {refused refused' : Prop} [Decidable refused] [Decidable refused']
    {fault fault' : ε} {next : Unit → Except ε α} {next' : Unit → Except ε β}
    (same : refused ↔ refused') (rest : Concurs related (next ()) (next' ())) :
    Concurs related
      (if refused then (Except.error fault : Except ε Unit) >>= next else next ())
      (if refused' then (Except.error fault' : Except ε Unit) >>= next' else next' ()) := by
  by_cases failed : refused
  · rw [if_pos failed, if_pos (same.1 failed)]
    exact .refused fault fault'
  · rw [if_neg failed, if_neg (mt same.2 failed)]
    exact rest

theorem Concurs.when {required : Prop} [Decidable required] {check check' : Except ε Unit}
    {next : Unit → Except ε α} {next' : Unit → Except ε β}
    (same : check = .ok () ↔ check' = .ok ()) (rest : Concurs related (next ()) (next' ())) :
    Concurs related (if required then check >>= next else next ())
      (if required then check' >>= next' else next' ()) := by
  split
  · have checked : Concurs (fun _ _ => True) check check' := by
      refine .of_iff ?_ fun _ _ _ _ => trivial
      exact ⟨fun ⟨_, passed⟩ => ⟨(), same.1 passed⟩, fun ⟨_, passed⟩ => ⟨(), same.2 passed⟩⟩
    exact checked.bind fun _ _ _ => rest
  · exact rest

/-- Lists are translated alike when their entries are. -/
theorem Concurs.mapM {κ ι : Type} {f : κ → Except ε α} {g : ι → Except ε β} {entries : List κ}
    {others : List ι} (alike : List.Forall₂ (fun entry other => Concurs related (f entry) (g other))
      entries others) :
    Concurs (List.Forall₂ related) (entries.mapM f) (others.mapM g) := by
  induction alike with
  | nil => exact .given .nil
  | cons head _ ih =>
      rw [List.mapM_cons, List.mapM_cons]
      exact .bind head fun _ _ first => .bind ih fun _ _ rest => .given (.cons first rest)

/-- The order of a list does not matter for its translation. -/
theorem Concurs.mapM_perm {κ : Type} (f : κ → Except ε α) {entries others : List κ}
    (perm : entries.Perm others) : Concurs List.Perm (entries.mapM f) (others.mapM f) := by
  induction perm with
  | nil => exact .given .nil
  | cons entry _ ih =>
      rw [List.mapM_cons, List.mapM_cons]
      exact .bind (.same Eq.refl (f entry)) fun value _ same =>
        .bind ih fun _ _ rest => .given (same ▸ rest.cons value)
  | swap first second rest =>
      simp only [List.mapM_cons]
      cases f first with
      | error fault => cases f second <;> exact .refused _ _
      | ok value =>
          cases f second with
          | error other => exact .refused _ _
          | ok other =>
              cases rest.mapM f with
              | error last => exact .refused last last
              | ok values => exact .given (.swap value other values)
  | trans _ _ ih ih' =>
      refine ih.trans ?_ ih'
      exact fun _ _ _ first second => first.trans second

end Outcomes

/-- The same names fail a search together. -/
theorem find?_congr (wanted : String → Bool) {names others : List String}
    (same : ∀ name, name ∈ names ↔ name ∈ others) :
    (∃ name other, names.find? wanted = some name ∧ others.find? wanted = some other) ∨
      (names.find? wanted = none ∧ others.find? wanted = none) := by
  have together : (names.find? wanted).isSome = (others.find? wanted).isSome := by
    rw [Bool.eq_iff_iff, List.find?_isSome, List.find?_isSome]
    exact exists_congr fun name => and_congr_left fun _ => same name
  cases first : names.find? wanted with
  | none =>
      rw [first] at together
      exact .inr ⟨rfl, Option.not_isSome_iff_eq_none.1 fun found => by simp [found] at together⟩
  | some name =>
      rw [first] at together
      obtain ⟨other, found⟩ := Option.isSome_iff_exists.1 together.symm
      exact .inl ⟨name, other, rfl, found⟩

/-- The same attributes stand in both headings, in any order. -/
def Heading.Reorders (first second : Heading) : Prop :=
  first.attributes.Perm second.attributes

/-- Sorted names do not depend on the order that they are given in. -/
theorem sortedNames_congr {names others : List String} (perm : names.Perm others) :
    sortedNames names = sortedNames others := by
  have transitive : ∀ first second third : String, decide (first ≤ second) = true →
      decide (second ≤ third) = true → decide (first ≤ third) = true := by
    simpa using fun _ _ _ => String.le_trans
  have total : ∀ first second : String,
      (decide (first ≤ second) || decide (second ≤ first)) = true := by
    simpa using String.le_total
  have perm : (sortedNames names).Perm (sortedNames others) :=
    (List.mergeSort_perm names _).trans (perm.trans (List.mergeSort_perm others _).symm)
  refine perm.eq_of_pairwise (fun _ _ _ _ => ?_) (List.pairwise_mergeSort transitive total names)
    (List.pairwise_mergeSort transitive total others)
  simpa using String.le_antisymm

theorem perm_keyOrder {attrs others : List Attribute} (perm : attrs.Perm others) :
    (keyOrder attrs).Perm (keyOrder others) :=
  (perm.filter _).append (perm.filter _)

theorem keyOrder_perm (attrs : List Attribute) : (keyOrder attrs).Perm attrs :=
  List.filter_append_perm _ attrs

/-- Attributes whose key comes first stay where they are. -/
theorem keyOrder_eq_self {attrs : List Attribute}
    (keyFirst : attrs.Pairwise fun earlier later => later.inKey → earlier.inKey) :
    keyOrder attrs = attrs := by
  induction attrs with
  | nil => rfl
  | cons attr rest ih =>
      obtain ⟨before, others⟩ := List.pairwise_cons.1 keyFirst
      have later := ih others
      unfold keyOrder at later ⊢
      cases inKey : attr.inKey with
      | true => simp [inKey, later]
      | false =>
          have outside : rest.filter (·.inKey) = [] := by
            refine List.filter_eq_nil_iff.2 fun other member key => ?_
            rw [before other member key] at inKey
            contradiction
          rw [outside, List.nil_append] at later
          simp [inKey, outside, later]

theorem firstFault_eq_none {attrs : List Attribute} {seen : List String}
    (apart : (attrs.map Attribute.name).Nodup)
    (shown : ∀ attr ∈ attrs, attr.inKey = true → attr.hidden = false)
    (fresh : ∀ attr ∈ attrs, attr.name ∉ seen) : firstFault seen attrs = none := by
  induction attrs generalizing seen with
  | nil => rfl
  | cons attr rest ih =>
      obtain ⟨outside, others⟩ := List.nodup_cons.1 apart
      have visible : (attr.inKey && attr.hidden) = false := by
        cases key : attr.inKey with
        | false => rfl
        | true => rw [shown attr List.mem_cons_self key]; rfl
      rw [firstFault, visible, if_neg Bool.false_ne_true, if_neg (fresh attr List.mem_cons_self)]
      refine ih others (fun other inside => shown other (List.mem_cons_of_mem _ inside)) ?_
      intro other inside
      rw [List.mem_cons, not_or]
      refine ⟨fun same => outside ?_, fresh other (List.mem_cons_of_mem _ inside)⟩
      exact List.mem_map.2 ⟨other, inside, same⟩

/-- Attributes form a heading when their names differ and none in the key is hidden. -/
theorem Heading.exists_ofAttributes {attrs : List Attribute} :
    (∃ heading, Heading.ofAttributes? attrs = .ok heading) ↔
      (attrs.map Attribute.name).Nodup ∧
        ∀ attr ∈ attrs, attr.inKey = true → attr.hidden = false := by
  have same := keyOrder_perm attrs
  constructor
  · rintro ⟨heading, built⟩
    rw [← attributes_ofAttributes built] at same
    exact ⟨(same.map _).nodup_iff.1 heading.nodup,
      fun attr inside => heading.visibleKey attr (same.mem_iff.2 inside)⟩
  · rintro ⟨apart, shown⟩
    have faultless := @firstFault_eq_none (keyOrder attrs) [] ((same.map _).nodup_iff.2 apart)
      (fun attr inside => shown attr (same.mem_iff.1 inside)) (by simp)
    unfold Heading.ofAttributes?
    split
    · rename_i fault found
      rw [faultless] at found
      contradiction
    · exact ⟨_, rfl⟩

/-- The order in which attributes are given does not matter for the heading they form. -/
theorem Heading.ofAttributes_concurs {attrs others : List Attribute} (perm : attrs.Perm others) :
    Concurs Heading.Reorders (Heading.ofAttributes? attrs) (Heading.ofAttributes? others) := by
  refine .of_iff ?_ fun first second built again => ?_
  · simp only [exists_ofAttributes, (perm.map _).nodup_iff, perm.mem_iff]
  · rw [Reorders, attributes_ofAttributes built, attributes_ofAttributes again]
    exact perm_keyOrder perm

namespace Heading.Reorders

variable {first second third fourth : Heading}

theorem refl (heading : Heading) : heading.Reorders heading := List.Perm.refl _

theorem visible (same : first.Reorders second) : first.visible.Perm second.visible :=
  same.filter _

theorem names (same : first.Reorders second) : first.names.Perm second.names :=
  same.visible.map _

theorem allNames (same : first.Reorders second) : first.allNames.Perm second.allNames :=
  List.Perm.map _ same

theorem primaryKey (same : first.Reorders second) : first.primaryKey.Perm second.primaryKey :=
  (same.visible.filter _).map _

theorem secondary (same : first.Reorders second) : first.secondary.Perm second.secondary :=
  (same.visible.filter _).map _

theorem derived (same : first.Reorders second) : first.derived.Perm second.derived :=
  (same.visible.filter _).map _

theorem hasDerived (same : first.Reorders second) : first.hasDerived = second.hasDerived :=
  same.visible.any_eq

/-- A name means the same attribute in both headings. -/
theorem get? (same : first.Reorders second) : first.get? = second.get? := by
  funext name
  cases found : second.get? name with
  | none =>
      rw [get?_eq_none, same.names.mem_iff]
      exact get?_eq_none.1 found
  | some attr =>
      rw [get?_eq_some, same.visible.mem_iff]
      exact get?_eq_some.1 found

theorem contains (same : first.Reorders second) : first.contains = second.contains := by
  funext name
  rw [Heading.contains, Heading.contains, same.get?]

theorem asColumns (same : first.Reorders second) :
    first.asColumns.visiblePart.Reorders second.asColumns.visiblePart := by
  unfold Reorders
  rw [visible_asColumns, visible_asColumns]
  exact same.visible.map _

theorem classify (same : first.Reorders second) : first.classify = second.classify :=
  funext fun value => classify_congr (fun _ => same.names.mem_iff) value

theorem renamings (same : first.Reorders second) : first.renamings = second.renamings := by
  funext renames
  rw [Heading.renamings, Heading.renamings, same.classify]

theorem determines (left : first.Reorders second) (right : third.Reorders fourth) :
    first.determines third = second.determines fourth := by
  have contains : first.names.contains = second.names.contains :=
    funext fun name => left.names.contains_eq
  rw [Heading.determines, Heading.determines, contains, right.primaryKey.all_eq]

theorem common (left : first.Reorders second) (right : third.Reorders fourth) :
    (first.common third).Perm (second.common fourth) := by
  rw [Heading.common, Heading.common, left.contains]
  exact right.names.filter _

theorem homologous (left : first.Reorders second) (right : third.Reorders fourth) :
    first.homologous third = .ok () ↔ second.homologous fourth = .ok () := by
  simp only [homologous_eq_ok, left.visible.mem_iff, right.get?]

theorem joinKey (left : first.Reorders second) (right : third.Reorders fourth) :
    (first.joinKey third).Perm (second.joinKey fourth) := by
  have contains : first.primaryKey.contains = second.primaryKey.contains :=
    funext fun name => left.primaryKey.contains_eq
  rw [Heading.joinKey, Heading.joinKey, left.determines right, right.determines left, contains]
  split
  · exact left.primaryKey
  · split
    · exact right.primaryKey
    · exact left.primaryKey.append (right.primaryKey.filter _)

/-- A shared attribute is taken from the same place. -/
theorem keySource? (left : first.Reorders second) (right : third.Reorders fourth) :
    first.keySource? third = second.keySource? fourth := by
  funext name
  rw [Heading.keySource?, Heading.keySource?, left.get?, right.get?]

theorem join {key key' : List String} (left : first.Reorders second)
    (right : third.Reorders fourth) (keys : key.Perm key') :
    Concurs Heading.Reorders (first.join third key) (second.join fourth key') := by
  have inKey : key.contains = key'.contains := funext fun name => keys.contains_eq
  have known : first.allNames.contains = second.allNames.contains :=
    funext fun name => left.allNames.contains_eq
  unfold Heading.join
  rw [left.keySource? right, inKey, known]
  refine .bind (.mapM_perm _ keys) fun keyed keyed' same => ?_
  have others := (List.Perm.filter (fun attr => !key'.contains attr.name) left).append
    (List.Perm.filter (fun attr => !key'.contains attr.name &&
      !second.allNames.contains attr.name) right)
  exact (ofAttributes_concurs (same.append (others.map _))).mapError

theorem rekey {key key' : List String} (same : first.Reorders second) (keys : key.Perm key') :
    Concurs Heading.Reorders (first.rekey key) (second.rekey key') := by
  have inKey : key.contains = key'.contains := funext fun name => keys.contains_eq
  unfold Heading.rekey
  rw [same.contains, same.get?, inKey]
  rcases find?_congr (!second.contains ·) (fun _ => keys.mem_iff) with
    ⟨missing, other, found, again⟩ | ⟨found, again⟩
  · rw [found, again]
    exact .refused _ _
  · rw [found, again]
    have others := List.Perm.filter (fun attr => !key'.contains attr.name) same
    exact (ofAttributes_concurs (((keys.filterMap _).map _).append (others.map _))).mapError

end Heading.Reorders

/-- The selected names are exactly the first ones and the candidates that are not left out. -/
theorem mem_foldl_selected {excluded candidates start : List String} {name : String} :
    name ∈ candidates.foldl (fun selected name =>
      if selected.contains name || excluded.contains name then selected
      else selected ++ [name]) start ↔ name ∈ start ∨ (name ∈ candidates ∧ name ∉ excluded) := by
  induction candidates generalizing start with
  | nil => simp
  | cons first rest ih =>
      rw [List.foldl_cons, ih]
      split
      · rename_i skipped
        simp only [Bool.or_eq_true, List.contains_iff_mem] at skipped
        constructor
        · rintro (inside | ⟨inside, kept⟩)
          · exact .inl inside
          · exact .inr ⟨List.mem_cons_of_mem _ inside, kept⟩
        · rintro (inside | ⟨inside, kept⟩)
          · exact .inl inside
          · rcases List.mem_cons.1 inside with rfl | inside
            · exact .inl (skipped.resolve_right kept)
            · exact .inr ⟨inside, kept⟩
      · rename_i added
        simp only [Bool.or_eq_true, List.contains_iff_mem, not_or] at added
        rw [List.mem_append, List.mem_singleton, List.mem_cons, or_assoc]
        constructor
        · rintro (inside | rfl | ⟨inside, kept⟩)
          · exact .inl inside
          · exact .inr ⟨.inl rfl, added.2⟩
          · exact .inr ⟨.inr inside, kept⟩
        · rintro (inside | ⟨rfl | inside, kept⟩)
          · exact .inl inside
          · exact .inr (.inl rfl)
          · exact .inr (.inr ⟨inside, kept⟩)

/-- Two selections keep the same names and move the same attributes. -/
structure Selection.Agrees (first second : Selection) : Prop where
  selected : ∀ name, name ∈ first.selected ↔ name ∈ second.selected
  moved : first.moved = second.moved

/-- Forcing a key does not depend on the order of the attributes that it is forced on. -/
theorem perm_forceKey (key : List String) {attrs others : List Attribute}
    (perm : attrs.Perm others) : (forceKey key attrs).Perm (forceKey key others) := by
  have marked := perm.map fun attr => { attr with inKey := key.contains attr.name }
  exact (List.Perm.flatMap_left _ fun name _ => marked.filter _).append (marked.filter _)

namespace Heading.Reorders

variable {first second : Heading}

theorem selection (same : first.Reorders second) (items : List ProjectionItem)
    (renames : Renames) {kept kept' : List String} (keys : kept.Perm kept') :
    Concurs Selection.Agrees (first.selection items renames kept)
      (second.selection items renames kept') := by
  have moves : first.movedAttributes items renames = second.movedAttributes items renames := by
    rw [movedAttributes, movedAttributes, same.renamings]
  have listing : first.listedAttributes items = second.listedAttributes items := by
    funext moved
    rw [listedAttributes, listedAttributes, same.contains]
  have inKey : kept.contains = kept'.contains := funext fun name => keys.contains_eq
  unfold Heading.selection
  rw [moves, listing, inKey]
  refine .bind (.same Eq.refl _) fun moved _ unmoved => ?_
  subst unmoved
  refine .bind (.same Eq.refl _) fun listed _ alike => ?_
  subst alike
  dsimp only
  split
  · exact .refused _ _
  · refine .given ⟨fun name => ?_, rfl⟩
    have others : (first.otherAttributes items renames moved).Perm
        (second.otherAttributes items renames moved) := by
      unfold otherAttributes
      split
      · exact same.secondary.filter _
      · exact .refl _
    simp only [mem_foldl_selected, List.mem_append, others.mem_iff, (keys.filter _).mem_iff]

theorem project (same : first.Reorders second) {selected selected' : List String}
    (names : ∀ name, name ∈ selected ↔ name ∈ selected') (renames : Renames)
    (key : Option (List String)) :
    Concurs Heading.Reorders (first.project selected renames key)
      (second.project selected' renames key) := by
  have images : ∀ attr : Attribute, attr.images selected = attr.images selected' := by
    intro attr
    funext renamings
    simp only [Attribute.images, names]
  unfold Heading.project
  rw [same.contains, same.renamings]
  rcases find?_congr (!second.contains ·) names with
    ⟨missing, other, found, again⟩ | ⟨found, again⟩
  · rw [found, again]
    exact .refused _ _
  · rw [found, again]
    dsimp only
    simp only [images]
    have attrs := (same.visible.flatMap_right fun attr =>
      attr.images selected' (second.renamings renames)).append_right
        ((second.renamings renames).filterMap fun entry => entry.2.computed? entry.1)
    refine Concurs.mapError (ofAttributes_concurs ?_)
    cases key with
    | none => exact attrs
    | some key => exact perm_forceKey key attrs

theorem projectKeyed (same : first.Reorders second) {selected selected' : List String}
    (names : ∀ name, name ∈ selected ↔ name ∈ selected') (renames : Renames) (keepKey : Bool) :
    Concurs Heading.Reorders (first.projectKeyed selected renames keepKey)
      (second.projectKeyed selected' renames keepKey) := by
  unfold Heading.projectKeyed
  refine .bind (same.project names renames none) fun projected projected' alike => ?_
  split
  · exact .given alike
  · exact alike.rekey alike.names

end Heading.Reorders

end QueryAlgebra
