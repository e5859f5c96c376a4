/-
This file defines white space and the removal of white space around a text.
-/
namespace QueryAlgebra

/-- White space is what Unicode calls White_Space, beyond ASCII too. -/
def isBlank (c : Char) : Bool :=
  c == ' ' || (9 ≤ c.toNat && c.toNat ≤ 13) || c.toNat == 0x85 || c.toNat == 0xA0 ||
    c.toNat == 0x1680 || (0x2000 ≤ c.toNat && c.toNat ≤ 0x200A) || c.toNat == 0x2028 ||
    c.toNat == 0x2029 || c.toNat == 0x202F || c.toNat == 0x205F || c.toNat == 0x3000

/-- White space at both ends is dropped, white space between stays. -/
def trimBlanks (text : List Char) : List Char :=
  ((text.dropWhile isBlank).reverse.dropWhile isBlank).reverse

def trim (text : String) : String := String.ofList (trimBlanks text.toList)

theorem toList_trim (text : String) : (trim text).toList = trimBlanks text.toList :=
  String.toList_ofList

theorem isBlank_of_isWhitespace (c : Char) (white : c.isWhitespace) : isBlank c := by
  simp only [Char.isWhitespace, Bool.or_eq_true, decide_eq_true_eq] at white
  rcases white with ((rfl | rfl) | rfl) | rfl <;> decide

/-- The visible characters of ASCII are not white space. -/
theorem isBlank_of_visible {c : Char} (low : 33 ≤ c.toNat) (high : c.toNat ≤ 126) :
    isBlank c = false := by
  have space : c ≠ ' ' := by
    rintro rfl
    contradiction
  simp [isBlank, space]
  omega

section Trimmed

variable {text before body after : List Char}

theorem dropWhile_isBlank (dark : ∀ c ∈ text.head?, isBlank c = false) :
    text.dropWhile isBlank = text := by
  cases text with
  | nil => rfl
  | cons first rest => exact List.dropWhile_cons_of_neg (by simp [dark first rfl])

theorem trimBlanks_of_ends (first : ∀ c ∈ body.head?, isBlank c = false)
    (last : ∀ c ∈ body.getLast?, isBlank c = false) : trimBlanks body = body := by
  rw [← List.head?_reverse] at last
  rw [trimBlanks, dropWhile_isBlank first, dropWhile_isBlank last, List.reverse_reverse]

theorem trimBlanks_of_dark (dark : ∀ c ∈ body, isBlank c = false) : trimBlanks body = body :=
  trimBlanks_of_ends (fun c first => dark c (List.mem_of_mem_head? first))
    fun c last => dark c (List.mem_of_mem_getLast? last)

/-- White space around a text does not count. -/
theorem trimBlanks_append (blank : ∀ c ∈ before, isBlank c = true)
    (blank' : ∀ c ∈ after, isBlank c = true) :
    trimBlanks (before ++ body ++ after) = trimBlanks body := by
  have blank'' : ∀ c ∈ after.reverse, isBlank c = true := fun c inside =>
    blank' c (List.mem_reverse.1 inside)
  rw [trimBlanks, List.append_assoc, List.dropWhile_append_of_pos blank, List.dropWhile_append]
  split
  · next empty =>
      have none_left : after.dropWhile isBlank = [] := by
        rw [← List.append_nil after, List.dropWhile_append_of_pos blank']
        rfl
      rw [none_left, trimBlanks, List.isEmpty_iff.1 empty]
  · rw [List.reverse_append, List.dropWhile_append_of_pos blank'', trimBlanks]

/-- A text is what trimming leaves with white space around it. -/
theorem exists_append_trimBlanks (text : List Char) :
    ∃ before after, text = before ++ trimBlanks text ++ after ∧
      (∀ c ∈ before, isBlank c = true) ∧ ∀ c ∈ after, isBlank c = true := by
  refine ⟨text.takeWhile isBlank, ((text.dropWhile isBlank).reverse.takeWhile isBlank).reverse,
    ?_, List.all_eq_true.1 List.all_takeWhile, ?_⟩
  · rw [trimBlanks, List.append_assoc, ← List.reverse_append, List.takeWhile_append_dropWhile,
      List.reverse_reverse, List.takeWhile_append_dropWhile]
  · exact fun c inside => List.all_eq_true.1 List.all_takeWhile c (List.mem_reverse.1 inside)

theorem isBlank_of_head?_dropWhile {c : Char} (first : c ∈ (text.dropWhile isBlank).head?) :
    isBlank c = false := by
  have stopped := List.head?_dropWhile_not isBlank text
  rw [Option.mem_def.1 first] at stopped
  exact stopped

/-- Trimming leaves no white space in front. -/
theorem isBlank_of_head?_trimBlanks {c : Char} (first : c ∈ (trimBlanks text).head?) :
    isBlank c = false := by
  have leading : trimBlanks text <+: text.dropWhile isBlank := by
    rw [← List.reverse_suffix, trimBlanks, List.reverse_reverse]
    exact List.dropWhile_suffix _
  obtain ⟨rest, whole⟩ := leading
  have first' : c ∈ (text.dropWhile isBlank).head? := by
    rw [← whole, List.head?_append, Option.mem_def.1 first]
    rfl
  exact isBlank_of_head?_dropWhile first'

/-- Trimming leaves no white space at the end. -/
theorem isBlank_of_getLast?_trimBlanks {c : Char} (last : c ∈ (trimBlanks text).getLast?) :
    isBlank c = false := by
  rw [trimBlanks, List.getLast?_reverse] at last
  exact isBlank_of_head?_dropWhile last

end Trimmed

end QueryAlgebra
