/-
This file describes the stage that fills placeholders and the texts that survive it.
Escaped text is restored by it, and text that is not escaped survives under a condition.
-/
import Mathlib.Algebra.Ring.Parity
import QueryAlgebra.Comparison

namespace QueryAlgebra

/-- Every run of percent signs that cannot be made longer has even length. -/
def EvenRuns (text : List Char) : Prop :=
  ∀ before count after, text = before ++ List.replicate count '%' ++ after →
    before.getLast? ≠ some '%' → after.head? ≠ some '%' → Even count

/-- The stage that fills placeholders turns two percent signs into one and refuses a single one. -/
def fillMarkers? : List Char → Option (List Char)
  | [] => some []
  | '%' :: '%' :: rest => (fillMarkers? rest).map ('%' :: ·)
  | '%' :: _ => none
  | c :: rest => (fillMarkers? rest).map (c :: ·)

theorem fillMarkers?_pair (rest : List Char) :
    fillMarkers? ('%' :: '%' :: rest) = (fillMarkers? rest).map ('%' :: ·) := by
  rw [fillMarkers?]

theorem fillMarkers?_cons {c : Char} (plain : c ≠ '%') (rest : List Char) :
    fillMarkers? (c :: rest) = (fillMarkers? rest).map (c :: ·) := by
  rw [fillMarkers?]
  · exact fun _ same => absurd same plain
  · exact plain

theorem fillMarkers?_single {rest : List Char} (alone : rest.head? ≠ some '%') :
    fillMarkers? ('%' :: rest) = none := by
  rw [fillMarkers?]
  rintro others rfl
  exact alone rfl

theorem head?_ne_of_single {rest : List Char} (single : ∀ others, rest = '%' :: others → False) :
    rest.head? ≠ some '%' := by
  intro first
  obtain ⟨others, whole⟩ := List.head?_eq_some_iff.1 first
  exact single others whole

theorem evenRuns_nil : EvenRuns [] := by
  intro before count after whole _ _
  simp only [List.nil_eq, List.append_eq_nil_iff, List.replicate_eq_nil_iff] at whole
  simp [whole.1.2]

theorem not_evenRuns_single {rest : List Char} (alone : rest.head? ≠ some '%') :
    ¬ EvenRuns ('%' :: rest) := by
  intro runs
  have even := runs [] 1 rest rfl (by simp) alone
  contradiction

/-- Another character separates the runs around it. -/
theorem evenRuns_cons {c : Char} (plain : c ≠ '%') {rest : List Char} :
    EvenRuns (c :: rest) ↔ EvenRuns rest := by
  constructor
  · intro runs before count after whole left right
    refine runs (c :: before) count after (by rw [whole]; rfl) ?_ right
    cases before with
    | nil => simpa using plain
    | cons first others => simpa using left
  · intro runs before count after whole left right
    cases before with
    | nil =>
        cases count with
        | zero => exact .zero
        | succ count =>
            rw [List.nil_append, List.replicate_succ, List.cons_append] at whole
            exact absurd (List.cons.inj whole).1 plain
    | cons first others =>
        rw [List.cons_append, List.cons_append] at whole
        refine runs others count after (List.cons.inj whole).2 ?_ right
        cases others with
        | nil => simp
        | cons second others => simpa using left

/-- A pair at the front makes the first run longer by two. -/
theorem evenRuns_pair {rest : List Char} : EvenRuns ('%' :: '%' :: rest) ↔ EvenRuns rest := by
  constructor
  · intro runs before count after whole left right
    cases before with
    | nil =>
        rw [List.nil_append] at whole
        have even := runs [] (count + 2) after (by rw [whole]; rfl) (by simp) right
        exact (Nat.even_add.1 even).2 even_two
    | cons first others =>
        exact runs ('%' :: '%' :: first :: others) count after (by rw [whole]; rfl)
          (by simpa using left) right
  · intro runs before count after whole left right
    match before with
    | [] =>
        match count with
        | 0 => exact .zero
        | 1 =>
            have same : '%' :: rest = after := (List.cons.inj whole).2
            exact absurd (same ▸ rfl) right
        | count + 2 =>
            have same : rest = List.replicate count '%' ++ after :=
              (List.cons.inj (List.cons.inj whole).2).2
            exact (runs [] count after same (by simp) right).add even_two
    | [first] =>
        have same : '%' = first := (List.cons.inj whole).1
        exact absurd (by rw [← same]; rfl) left
    | first :: second :: others =>
        have same : '%' = second := (List.cons.inj (List.cons.inj whole).2).1
        refine runs others count after (List.cons.inj (List.cons.inj whole).2).2 ?_ right
        cases others with
        | nil => simp
        | cons third others => simpa using left

/-- Placeholders can be filled exactly where all runs are even. -/
theorem isSome_fillMarkers?_iff (text : List Char) :
    (fillMarkers? text).isSome = true ↔ EvenRuns text := by
  induction text using fillMarkers?.induct with
  | case1 => exact iff_of_true rfl evenRuns_nil
  | case2 rest ih => rw [fillMarkers?_pair, Option.isSome_map, ih, evenRuns_pair]
  | case3 rest single =>
      have alone := head?_ne_of_single single
      rw [fillMarkers?_single alone]
      exact iff_of_false (by simp) (not_evenRuns_single alone)
  | case4 c rest _ plain ih =>
      rw [fillMarkers?_cons plain, Option.isSome_map, ih, evenRuns_cons plain]

/-- Another character separates what is filled before it and after it. -/
theorem fillMarkers?_split (first second : List Char) {c : Char} (plain : c ≠ '%') :
    fillMarkers? (first ++ c :: second) =
      (fillMarkers? first).bind fun filled =>
        (fillMarkers? second).map fun rest => filled ++ c :: rest := by
  induction first using fillMarkers?.induct with
  | case1 => rw [List.nil_append, fillMarkers?_cons plain]; rfl
  | case2 rest ih =>
      rw [List.cons_append, List.cons_append, fillMarkers?_pair, fillMarkers?_pair, ih]
      cases fillMarkers? rest <;> cases fillMarkers? second <;> rfl
  | case3 rest single =>
      have alone := head?_ne_of_single single
      have apart : (rest ++ c :: second).head? ≠ some '%' := by
        cases rest with
        | nil => simpa using plain
        | cons first others => simpa using alone
      rw [List.cons_append, fillMarkers?_single apart, fillMarkers?_single alone]
      rfl
  | case4 d rest _ other ih =>
      rw [List.cons_append, fillMarkers?_cons other, fillMarkers?_cons other, ih]
      cases fillMarkers? rest <;> cases fillMarkers? second <;> rfl

theorem fillMarkers?_fixed {text : List Char} (fixed : '%' ∉ text) :
    fillMarkers? text = some text := by
  induction text with
  | nil => rfl
  | cons c rest ih =>
      rw [List.mem_cons, not_or] at fixed
      rw [fillMarkers?_cons (Ne.symm fixed.1), ih fixed.2]
      rfl

/-- Filling leaves half of the percent signs. -/
theorem count_of_fillMarkers? {text filled : List Char} (done : fillMarkers? text = some filled) :
    text.count '%' = 2 * filled.count '%' := by
  induction text using fillMarkers?.induct generalizing filled with
  | case1 =>
      cases done
      rfl
  | case2 rest ih =>
      rw [fillMarkers?_pair, Option.map_eq_some_iff] at done
      obtain ⟨inner, done, rfl⟩ := done
      rw [List.count_cons_self, List.count_cons_self, List.count_cons_self, ih done]
      rfl
  | case3 rest single =>
      rw [fillMarkers?] at done
      · contradiction
      · exact single
  | case4 c rest _ plain ih =>
      rw [fillMarkers?_cons plain, Option.map_eq_some_iff] at done
      obtain ⟨inner, done, rfl⟩ := done
      rw [List.count_cons_of_ne plain, List.count_cons_of_ne plain, ih done]

/-- A text, the text that it stands for, and the places inside it that are not escaped. -/
structure Marked (text original : List Char) (places : List (List Char)) : Prop where
  filled : (fillMarkers? text).isSome = true ↔
    ∀ place ∈ places, (fillMarkers? place).isSome = true
  restored : (∀ place ∈ places, '%' ∉ place) → fillMarkers? text = some original
  balanced : text.count '%' + (places.map (List.count '%')).sum = 2 * original.count '%'

namespace Marked

variable {text original first second : List Char} {places places' : List (List Char)}

theorem split (left : Marked text first places) (right : Marked original second places')
    {c : Char} (plain : c ≠ '%') :
    Marked (text ++ c :: original) (first ++ c :: second) (places ++ places') where
  filled := by
    rw [fillMarkers?_split _ _ plain, List.forall_mem_append, ← left.filled, ← right.filled]
    cases fillMarkers? text <;> cases fillMarkers? original <;> simp
  restored := by
    intro free
    rw [List.forall_mem_append] at free
    rw [fillMarkers?_split _ _ plain, left.restored free.1, right.restored free.2]
    rfl
  balanced := by
    have before := left.balanced
    have after := right.balanced
    simp only [List.count_append, List.count_cons_of_ne plain, List.map_append, List.sum_append]
    omega

theorem evenRuns_iff (marked : Marked text original places) :
    EvenRuns text ↔ ∀ place ∈ places, EvenRuns place := by
  simp only [← isSome_fillMarkers?_iff]
  exact marked.filled

/-- A place with percent signs comes out different. -/
theorem restored_iff (marked : Marked text original places) :
    fillMarkers? text = some original ↔ ∀ place ∈ places, '%' ∉ place := by
  refine ⟨fun done => ?_, marked.restored⟩
  have none : (places.map (List.count '%')).sum = 0 := by
    have halved := count_of_fillMarkers? done
    have balanced := marked.balanced
    omega
  intro place inside
  rw [List.sum_eq_zero_iff_forall_eq_nat] at none
  exact List.count_eq_zero.1 (none _ (List.mem_map_of_mem inside))

theorem fixed (plain : '%' ∉ text) : Marked text text [] where
  filled := by simp [fillMarkers?_fixed plain]
  restored := fun _ => fillMarkers?_fixed plain
  balanced := by simp [List.count_eq_zero.2 plain]

theorem after (marked : Marked text original places) {before : List Char}
    (plain : '%' ∉ before) : Marked (before ++ text) (before ++ original) places := by
  induction before with
  | nil => exact marked
  | cons c rest ih =>
      rw [List.mem_cons, not_or] at plain
      exact (fixed List.not_mem_nil).split (ih plain.2) (Ne.symm plain.1)

theorem before (marked : Marked text original places) {after : List Char}
    (plain : '%' ∉ after) : Marked (text ++ after) (original ++ after) places := by
  cases after with
  | nil => simpa using marked
  | cons c rest =>
      rw [List.mem_cons, not_or] at plain
      have whole := marked.split (fixed plain.2) (Ne.symm plain.1)
      rwa [List.append_nil] at whole

/-- A separator without percent signs keeps two texts apart. -/
theorem joined (left : Marked text first places) (right : Marked original second places')
    {separator : List Char} (some : separator ≠ []) (plain : '%' ∉ separator) :
    Marked (text ++ separator ++ original) (first ++ separator ++ second) (places ++ places') := by
  obtain ⟨c, rest, rfl⟩ := List.exists_cons_of_ne_nil some
  rw [List.mem_cons, not_or] at plain
  rw [List.append_assoc, List.append_assoc]
  exact left.split (right.after plain.2) (Ne.symm plain.1)

end Marked

/-- An escape doubles percent signs, and the other one differs from it in nothing else. -/
structure Doubles (escape plain : Char → List Char) : Prop where
  doubled : escape '%' = ['%', '%']
  kept : plain '%' = ['%']
  others : ∀ c, c ≠ '%' → escape c = plain c ∧ '%' ∉ escape c

theorem Marked.escaped {escape plain : Char → List Char} (doubles : Doubles escape plain)
    (text : List Char) : Marked (text.flatMap escape) (text.flatMap plain) [] := by
  induction text with
  | nil => exact fixed (by simp)
  | cons c rest ih =>
      rw [List.flatMap_cons, List.flatMap_cons]
      by_cases marker : c = '%'
      · rw [marker, doubles.doubled, doubles.kept]
        have filled := ih.restored (by simp)
        have balanced := ih.balanced
        constructor
        · simp [fillMarkers?_pair, filled]
        · intro _
          rw [List.cons_append, List.singleton_append, fillMarkers?_pair, filled]
          rfl
        · simp only [List.cons_append, List.nil_append, List.count_cons_self] at balanced ⊢
          omega
      · obtain ⟨same, free⟩ := doubles.others c marker
        rw [← same]
        exact ih.after free

theorem doubles_escapeMarker : Doubles escapeMarker fun c => [c] where
  doubled := rfl
  kept := rfl
  others := by
    intro c marker
    have same : escapeMarker c = [c] := by
      unfold escapeMarker
      split
      · contradiction
      · rfl
    rw [same]
    exact ⟨rfl, by simpa using Ne.symm marker⟩

/-- The escape that leaves percent signs alone. -/
def unmarked (escape : Char → List Char) (c : Char) : List Char :=
  if c = '%' then ['%'] else escape c

theorem doubles_unmarked {escape : Char → List Char} (doubled : escape '%' = ['%', '%'])
    (others : ∀ c, c ≠ '%' → '%' ∉ escape c) : Doubles escape (unmarked escape) where
  doubled := doubled
  kept := rfl
  others := fun c marker => ⟨(if_neg marker).symm, others c marker⟩

theorem doubles_escapeDouble : Doubles escapeDouble (unmarked escapeDouble) := by
  refine doubles_unmarked rfl fun c marker => ?_
  unfold escapeDouble
  split
  · contradiction
  · simp
  · simp
  · simpa using Ne.symm marker

theorem doubles_escapeSingle : Doubles escapeSingle (unmarked escapeSingle) := by
  refine doubles_unmarked rfl fun c marker => ?_
  unfold escapeSingle
  split
  · contradiction
  · simp
  · simp
  · simpa using Ne.symm marker

theorem escapePath_quote : escapePath '\'' = ['\'', '\''] := rfl

theorem escapePath_other {c : Char} (other : c ≠ '\'') : escapePath c = [c] := by
  unfold escapePath
  split
  · contradiction
  · rfl

theorem count_escapePath {c : Char} (other : c ≠ '\'') (place : List Char) :
    (place.flatMap escapePath).count c = place.count c := by
  induction place with
  | nil => rfl
  | cons d rest ih =>
      rw [List.flatMap_cons, List.count_append, ih]
      by_cases quote : d = '\''
      · rw [quote, escapePath_quote, List.count_cons_of_ne (Ne.symm other),
          List.count_cons_of_ne (Ne.symm other), List.count_cons_of_ne (Ne.symm other),
          List.count_nil, Nat.zero_add]
      · rw [escapePath_other quote, ← List.count_append, List.singleton_append]

theorem head?_escapePath (place : List Char) :
    (place.flatMap escapePath).head? = place.head? := by
  cases place with
  | nil => rfl
  | cons c rest =>
      by_cases quote : c = '\''
      · subst quote
        rfl
      · rw [List.flatMap_cons, escapePath_other quote]
        rfl

/-- Escaping a path keeps its runs of percent signs. -/
theorem isSome_fillMarkers?_path (place : List Char) :
    (fillMarkers? (place.flatMap escapePath)).isSome = (fillMarkers? place).isSome := by
  induction place using fillMarkers?.induct with
  | case1 => rfl
  | case2 rest ih =>
      show (fillMarkers? ('%' :: '%' :: rest.flatMap escapePath)).isSome = _
      rw [fillMarkers?_pair, fillMarkers?_pair, Option.isSome_map, Option.isSome_map, ih]
  | case3 rest single =>
      have alone := head?_ne_of_single single
      have apart : (rest.flatMap escapePath).head? ≠ some '%' := by
        rwa [head?_escapePath]
      show (fillMarkers? ('%' :: rest.flatMap escapePath)).isSome = _
      rw [fillMarkers?_single apart, fillMarkers?_single alone]
  | case4 c rest _ plain ih =>
      rw [List.flatMap_cons, fillMarkers?_cons plain, Option.isSome_map, ← ih]
      by_cases quote : c = '\''
      · subst quote
        show (fillMarkers? ('\'' :: '\'' :: rest.flatMap escapePath)).isSome = _
        rw [fillMarkers?_cons plain, fillMarkers?_cons plain, Option.isSome_map, Option.isSome_map]
      · rw [escapePath_other quote, List.singleton_append, fillMarkers?_cons plain,
          Option.isSome_map]

/-- A document path stands for itself, escaped as it is. -/
theorem Marked.path (place : List Char) :
    Marked (place.flatMap escapePath) (place.flatMap escapePath) [place] where
  filled := by rw [List.forall_mem_singleton, isSome_fillMarkers?_path]
  restored := by
    intro free
    rw [List.forall_mem_singleton] at free
    refine fillMarkers?_fixed fun inside => free ?_
    rwa [← List.count_pos_iff, count_escapePath (by decide), List.count_pos_iff] at inside
  balanced := by
    rw [count_escapePath (by decide), List.map_singleton, List.sum_singleton]
    omega

end QueryAlgebra
