/-
This file shows that the key of an expression tells apart the rows of its answer.
Joins combine keys by what determines what, and projections keep images of the whole key.
-/
import QueryAlgebra.Proofs.JoinedHeading
import QueryAlgebra.Proofs.JoinedRows

namespace QueryAlgebra

/-- A subquery has the key of what stands inside it. -/
theorem Expression.mem_primaryKey_asSubquery {e : Expression} {name : String} :
    name ∈ e.asSubquery.heading.primaryKey ↔ name ∈ e.heading.primaryKey := by
  have same : e.asSubquery.heading.primaryKey = e.heading.primaryKey :=
    e.heading.primaryKey_asColumns
  rw [same]

/-- The attributes of the joined key are in the key of the result. -/
theorem Expression.Joins.primaryKey {left right result : Expression} {mode : JoinMode}
    (joins : left.Joins right mode result) {name : String}
    (key : name ∈ left.heading.joinKey right.heading) : name ∈ result.heading.primaryKey := by
  rw [joins.primaryKey_eq]
  exact key

/-- A wrapped source has the same names and the same key. -/
theorem Expression.mem_primaryKey_projectedSource (e : Expression) (selected : List String)
    (renames : Renames) (keepKey : Bool) (name : String) :
    name ∈ (e.projectedSource selected renames keepKey).heading.primaryKey ↔
      name ∈ e.heading.primaryKey := by
  rcases e.projectedSource_cases selected renames keepKey with wrapped | ⟨direct, _⟩
  · rw [wrapped, mem_primaryKey_asSubquery]
  · rw [direct]

theorem Expression.renamings_projectedSource (e : Expression) (selected : List String)
    (renames : Renames) (keepKey : Bool) :
    (e.projectedSource selected renames keepKey).heading.renamings renames =
      e.heading.renamings renames :=
  Heading.renamings_congr (fun name => by rw [e.names_projectedSource]) renames

section Images

variable {e result : Expression} {items : List ProjectionItem} {renames : Renames}
  {keepKey : Bool} {selection : Selection} {Value : Type}

/-- What is retained of the key is in the key of a projection, with the value that it had. -/
theorem Expression.Projects.exists_image
    (projects : e.Projects items renames keepKey selection result) {name : String}
    (key : name ∈ e.heading.primaryKey)
    (retained : name ∈ e.heading.retained selection.selected renames) :
    ∃ other ∈ result.heading.primaryKey, ∀ row image : Tuple Value,
      e.heading.Shows result.heading renames row image → image other = row name := by
  have heading := projects.heading
  have underived := (needsSubquery_eq_false.1
    (e.needsSubquery_projectedSource selection.selected renames keepKey)).2.2
  have renamings := e.renamings_projectedSource selection.selected renames keepKey
  have stored := (e.mem_primaryKey_projectedSource selection.selected renames keepKey name).2 key
  obtain ⟨attr, inside, inKey, rfl⟩ := Heading.mem_primaryKey.1 stored
  have visible := Heading.mem_visible.2 ⟨inside, Heading.visibleKey _ attr inside inKey⟩
  rcases List.mem_append.1 retained with kept | source
  · -- a selected attribute keeps its name, which is no new one
    obtain ⟨member, named⟩ := Heading.get?_eq_some.1
      (Heading.get?_of_projectKeyed heading visible kept)
    refine ⟨attr.name, ?_, fun row image shows => shows.taken attr.name ?_ fun new => ?_⟩
    · exact Heading.mem_primaryKey.2 ⟨_, (Heading.mem_visible.1 member).1, by simp [inKey], named⟩
    · exact Heading.mem_names.2 ⟨_, member, named⟩
    · exact Heading.not_selected_of_new heading underived new kept
  · obtain ⟨entry, listed, moved⟩ := List.mem_filterMap.1 source
    have image : attr.renamed entry.1 ∈ attr.images selection.selected
        ((e.projectedSource selection.selected renames keepKey).heading.renamings renames) := by
      rw [renamings]
      exact Attribute.mem_images.2 (.inr ⟨entry, listed, moved, rfl⟩)
    have member := (Heading.mem_projectKeyed heading).2 ⟨_, .inl ⟨attr, visible, image⟩, rfl⟩
    have kept : (attr.renamed entry.1).inKey = true := inKey
    refine ⟨entry.1, Heading.mem_primaryKey.2 ⟨_, member, by simp [kept], rfl⟩, ?_⟩
    exact fun row image shows => shows.given entry listed attr.name moved

/-- Without DISTINCT the whole key of the source is retained. -/
theorem Expression.Projects.retained_of_key
    (projects : e.Projects items renames keepKey selection result)
    (plain : result.distinct = false) {name : String} (key : name ∈ e.heading.primaryKey) :
    name ∈ e.heading.retained selection.selected renames := by
  have entries := projects.entries
  rw [projects.distinct] at plain
  cases keepKey with
  | true => exact Heading.retained_of_kept entries key
  | false =>
      have all : ∀ name ∈ e.heading.primaryKey,
          name ∈ e.heading.retained selection.selected renames := by
        simpa [losesKey] using plain
      exact all name key

/-- A projection with DISTINCT has all of its names in the key. -/
theorem Expression.Projects.key_of_distinct
    (projects : e.Projects items renames keepKey selection result)
    (distinct : result.distinct = true) {name : String} (shown : name ∈ result.heading.names) :
    name ∈ result.heading.primaryKey := by
  have dropped : keepKey = false := by
    rw [projects.distinct, losesKey, Bool.and_eq_true] at distinct
    simpa using distinct.1
  obtain ⟨attr, visible, rfl⟩ := Heading.mem_names.1 shown
  have inside := (Heading.mem_visible.1 visible).1
  obtain ⟨image, _, same⟩ := (Heading.mem_projectKeyed projects.heading).1 inside
  exact Heading.mem_primaryKey.2 ⟨attr, inside, by rw [same, dropped]; rfl, rfl⟩

/-- The key of a projection tells its rows apart. -/
theorem Expression.Projects.keyed [DecidableEq Value] {rows images : List (Tuple Value)}
    (projects : e.Projects items renames keepKey selection result)
    (keyed : Keyed e.heading.primaryKey rows)
    (shown : List.Forall₂ (e.heading.Shows result.heading renames) rows images) :
    Keyed result.heading.primaryKey
      (if result.distinct then distinctRows result.heading.names images else images) := by
  cases distinct : result.distinct with
  | true =>
      rw [if_pos rfl]
      exact (keyed_distinctRows _ images).mono fun _ => projects.key_of_distinct distinct
  | false =>
      rw [if_neg Bool.false_ne_true]
      refine keyed.forall₂ shown fun row other image copy shows again agree name key => ?_
      obtain ⟨target, inKey, value⟩ :=
        projects.exists_image key (projects.retained_of_key distinct key)
      rw [← value row image shows, ← value other copy again]
      exact agree target inKey

end Images

/-- Rows that are gathered by a key have different keys. -/
theorem Gathers.keyed {Value : Type} [DecidableEq Value] {key : List String}
    {images rows : List (Tuple Value)} (groups : Gathers key images rows) : Keyed key rows := by
  rcases groups with each | ⟨_, single⟩
  · refine (keyed_distinctRows key images).forall₂ each ?_
    exact fun row other image copy first second agree =>
      Tuple.Agree.trans first (agree.trans second.symm)
  · obtain ⟨row, rfl⟩ := List.length_eq_one_iff.1 single
    exact List.pairwise_singleton _ row

theorem Expression.mem_primaryKey_restrictedSource (e : Expression) (name : String) :
    name ∈ e.restrictedSource.heading.primaryKey ↔ name ∈ e.heading.primaryKey := by
  rcases e.restrictedSource_cases with wrapped | ⟨direct, _⟩
  · rw [wrapped, mem_primaryKey_asSubquery]
  · rw [direct]

/-- All names that a union shows are in its key. -/
theorem Expression.key_of_united {heading : Heading} (whole : heading.secondary = [])
    {name : String} (shown : name ∈ heading.names) : name ∈ heading.primaryKey := by
  obtain ⟨attr, visible, rfl⟩ := Heading.mem_names.1 shown
  refine Heading.mem_primaryKey.2 ⟨attr, (Heading.mem_visible.1 visible).1, ?_, rfl⟩
  by_contra outside
  have inside : attr.name ∈ heading.secondary :=
    List.mem_map_of_mem (List.mem_filter.2 ⟨visible, by simpa using outside⟩)
  rw [whole] at inside
  contradiction

/-- No two rows of an answer agree on the key of the expression. -/
theorem Answers.keyed_primaryKey {Value : Type} [DecidableEq Value] {database : Database Value}
    {e : Expression} {rows : List (Tuple Value)} (answers : Answers database e rows) :
    Keyed e.heading.primaryKey rows := by
  induction answers with
  | table built =>
      obtain ⟨heading, declared, rfl⟩ := Expression.ofTable_ok built
      exact database.keyed _ _ heading declared
  | @restrict e _ _ _ _ _ built part ih =>
      refine Keyed.subperm ?_ part
      obtain ⟨compiled, _, ⟨_, rfl⟩ | ⟨_, rfl⟩⟩ := Expression.restrict_ok built
      · exact ih
      · exact ih.mono fun name => (e.mem_primaryKey_restrictedSource name).2
  | restrictDirectly _ built part ih =>
      refine Keyed.subperm ?_ part
      obtain ⟨compiled, _, ⟨_, rfl⟩ | ⟨_, rfl, _⟩⟩ := Expression.restrictDirectly_ok built
      · exact ih
      · exact ih
  | join _ _ built enforced first second =>
      have joins := Expression.joinAs_ok built
      exact (keyed_joinRows first second fun kept => joins.eligible kept (enforced kept)).mono
        fun _ => joins.primaryKey
  | project _ built shown ih =>
      obtain ⟨selection, projects⟩ := Expression.projectItems_ok built
      exact projects.keyed ih shown
  | aggregate _ _ _ _ _ groups _ _ => exact groups.keyed
  | groupOver _ _ _ groups _ => exact groups.keyed
  | @union left right _ _ _ _ _ built _ _ =>
      obtain ⟨_, _, whole, _, rfl⟩ := Expression.union_ok built
      refine (keyed_distinctRows _ _).mono fun name shown => ?_
      refine Expression.mem_primaryKey_asSubquery.2 (Expression.key_of_united whole ?_)
      rwa [← left.heading.names_asColumns]
  | @subquery e _ _ ih => exact ih.mono fun _ => Expression.mem_primaryKey_asSubquery.2

/-- Every table with a key has two rows that differ under all names, in any other case one. -/
def Database.pairs : Database Nat where
  rows := fun _ declaration =>
    match declaration.heading? with
    | .ok heading =>
        if heading.primaryKey = [] then [fun _ => some 0]
        else [fun _ => some 0, fun _ => some 1]
    | .error _ => []
  keyed := by
    intro _ declaration heading declared
    rw [declared]
    dsimp only
    split
    · exact List.pairwise_singleton _ _
    · rename_i key
      obtain ⟨name, inKey⟩ := List.exists_mem_of_ne_nil _ key
      refine List.pairwise_pair.2 fun agree => ?_
      simpa using agree name inKey
  equatesNulls := false

/-- Both entries are kept when their subjects are joined to them, with the key of an entry. -/
theorem Answers.keyed_primaryKey_of_leftJoin :
    ∃ e rows, Answers Database.pairs e rows ∧ rows.length = 2 ∧
      e.heading.primaryKey = ["subject_id", "entry"] ∧ Keyed e.heading.primaryKey rows := by
  have subjects := @Answers.table _ _ Database.pairs laboratory subjectDeclaration _ rfl
  have entries := @Answers.table _ _ Database.pairs laboratory logDeclaration _ rfl
  have joined := @Answers.join _ _ Database.pairs _ _ _ ⟨true, true, true⟩ _ _ entries subjects
    rfl (fun _ => rfl)
  exact ⟨_, _, joined, rfl, rfl, joined.keyed_primaryKey⟩

end QueryAlgebra
