/-
This file defines sets of names that remember the order of first insertion.
-/
namespace QueryAlgebra

/-- A name occurs once, at the place where it was first inserted. -/
structure NameSet where
  toList : List String
  nodup : toList.Nodup
deriving DecidableEq, Repr

def NameSet.empty : NameSet := ⟨[], List.nodup_nil⟩

instance : Membership String NameSet := ⟨fun set name => name ∈ set.toList⟩

instance (name : String) (set : NameSet) : Decidable (name ∈ set) :=
  inferInstanceAs (Decidable (name ∈ set.toList))

def NameSet.insert (set : NameSet) (name : String) : NameSet :=
  if present : name ∈ set.toList then set
  else ⟨set.toList ++ [name], by
    refine List.nodup_append.2 ⟨set.nodup, by simp, ?_⟩
    intro earlier inside later last same
    rw [List.mem_singleton] at last
    exact present (last ▸ same ▸ inside)⟩

/-- The names of the list follow those already present. -/
def NameSet.insertAll (set : NameSet) (names : List String) : NameSet :=
  names.foldl NameSet.insert set

def NameSet.union (first second : NameSet) : NameSet := first.insertAll second.toList

def NameSet.ofList (names : List String) : NameSet := NameSet.empty.insertAll names

theorem NameSet.mem_insert (set : NameSet) (name other : String) :
    other ∈ set.insert name ↔ other ∈ set ∨ other = name := by
  show other ∈ (set.insert name).toList ↔ other ∈ set.toList ∨ other = name
  unfold NameSet.insert
  split
  · rename_i present
    exact ⟨Or.inl, fun either => either.elim id fun same => same ▸ present⟩
  · simp

theorem NameSet.mem_insertAll (names : List String) (set : NameSet) (other : String) :
    other ∈ set.insertAll names ↔ other ∈ set ∨ other ∈ names := by
  induction names generalizing set with
  | nil => simp [NameSet.insertAll]
  | cons name rest ih =>
      have step : set.insertAll (name :: rest) = (set.insert name).insertAll rest := rfl
      rw [step, ih, mem_insert, List.mem_cons, or_assoc]

theorem NameSet.mem_union (first second : NameSet) (other : String) :
    other ∈ first.union second ↔ other ∈ first ∨ other ∈ second :=
  mem_insertAll second.toList first other

theorem NameSet.ext_toList {first second : NameSet} (same : first.toList = second.toList) :
    first = second := by
  cases first
  cases second
  cases same
  rfl

theorem NameSet.insert_of_mem {set : NameSet} {name : String} (present : name ∈ set) :
    set.insert name = set :=
  dif_pos present

theorem NameSet.toList_insert_of_not_mem {set : NameSet} {name : String} (absent : name ∉ set) :
    (set.insert name).toList = set.toList ++ [name] :=
  congrArg toList (dif_neg absent)

theorem NameSet.insertAll_append (set : NameSet) (first second : List String) :
    set.insertAll (first ++ second) = (set.insertAll first).insertAll second :=
  List.foldl_append

/-- Names that are all there change nothing. -/
theorem NameSet.insertAll_of_mem {set : NameSet} {names : List String}
    (present : ∀ name ∈ names, name ∈ set) : set.insertAll names = set := by
  induction names with
  | nil => rfl
  | cons name rest ih =>
      have step : set.insertAll (name :: rest) = (set.insert name).insertAll rest := rfl
      rw [step, insert_of_mem (present name List.mem_cons_self)]
      exact ih fun other inside => present other (List.mem_cons_of_mem _ inside)

theorem NameSet.union_again (first second : NameSet) :
    (first.union second).union second = first.union second :=
  insertAll_of_mem fun name inside => (mem_union first second name).2 (.inr inside)

/-- Only the first occurrence of a name counts when names are inserted. -/
theorem NameSet.insertAll_insertAll (set other : NameSet) (names : List String) :
    set.insertAll (other.insertAll names).toList =
      (set.insertAll other.toList).insertAll names := by
  induction names generalizing other with
  | nil => rfl
  | cons name rest ih =>
      have step : set.insertAll (other.insert name).toList =
          (set.insertAll other.toList).insert name := by
        by_cases present : name ∈ other
        · have again : name ∈ set.insertAll other.toList :=
            (mem_insertAll _ set name).2 (.inr present)
          rw [insert_of_mem present, insert_of_mem again]
        · rw [toList_insert_of_not_mem present, insertAll_append]
          rfl
      exact (ih (other.insert name)).trans (congrArg (insertAll · rest) step)

/-- A set of names lists each name of a list once, where it first occurs. -/
theorem NameSet.toList_insertAll (names : List String) (set : NameSet) :
    (set.insertAll names).toList =
      set.toList ++ (names.filter fun name => !set.toList.contains name).eraseDups := by
  induction names generalizing set with
  | nil => simp [insertAll]
  | cons name rest ih =>
      have step : set.insertAll (name :: rest) = (set.insert name).insertAll rest := rfl
      rw [step, ih]
      by_cases present : name ∈ set.toList
      · rw [insert_of_mem present, List.filter_cons_of_neg (by simpa using present)]
      · rw [toList_insert_of_not_mem present, List.filter_cons_of_pos (by simpa using present),
          List.eraseDups_cons, List.filter_filter, List.append_assoc, List.singleton_append]
        congr 3
        refine List.filter_congr fun other _ => ?_
        by_cases same : other = name <;> simp [same]

theorem NameSet.toList_ofList (names : List String) :
    (NameSet.ofList names).toList = names.eraseDups := by
  rw [ofList, toList_insertAll]
  show (names.filter fun _ => true).eraseDups = names.eraseDups
  rw [List.filter_eq_self.2 fun _ _ => rfl]

/-- A set stays the same when its names are collected again. -/
theorem NameSet.ofList_toList (set : NameSet) : NameSet.ofList set.toList = set := by
  have appended : ∀ (names : List String) (start : NameSet), (start.toList ++ names).Nodup →
      (start.insertAll names).toList = start.toList ++ names := by
    intro names
    induction names with
    | nil => simp [insertAll]
    | cons name rest ih =>
        intro start distinct
        have absent : name ∉ start := fun present =>
          (List.nodup_append.1 distinct).2.2 name present name List.mem_cons_self rfl
        have grown := toList_insert_of_not_mem absent
        have step : start.insertAll (name :: rest) = (start.insert name).insertAll rest := rfl
        rw [step, ih _ (by rwa [grown, List.append_assoc]), grown, List.append_assoc]
        rfl
  exact ext_toList (appended set.toList empty set.nodup)

end QueryAlgebra
