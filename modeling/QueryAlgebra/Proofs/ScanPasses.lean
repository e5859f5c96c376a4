/-
This file shows how each pass over a raw condition treats texts between blanks.
A pass works on every text by itself, unless a quoted text goes on beyond a blank.
-/
import Mathlib.Algebra.Ring.Parity
import QueryAlgebra.Text.ColumnScan

namespace QueryAlgebra

/-- A function that treats what a separator keeps apart by itself works on each text of a list. -/
theorem intercalate_of_split {α β : Type} {f : List α → List β} {separator : List α}
    {between : List β} (empty : f [] = []) {texts : List (List α)}
    (split : ∀ text ∈ texts, ∀ rest,
      f (text ++ separator ++ rest) = f text ++ between ++ f rest) :
    f (separator.intercalate texts) = between.intercalate (texts.map f) := by
  match texts with
  | [] => simpa using empty
  | [text] => simp
  | text :: second :: rest =>
      rw [List.intercalate_cons_cons, split text List.mem_cons_self, List.map_cons, List.map_cons,
        List.intercalate_cons_cons, ← List.map_cons]
      rw [intercalate_of_split empty fun other inside =>
        split other (List.mem_cons_of_mem _ inside)]

theorem filterMap_intercalate {α β : Type} (f : α → Option β) (separator : List α)
    (texts : List (List α)) :
    (separator.intercalate texts).filterMap f =
      (separator.filterMap f).intercalate (texts.map (List.filterMap f)) := by
  apply intercalate_of_split
  · rfl
  · intro text _ rest
    rw [List.filterMap_append, List.filterMap_append]

theorem intercalate_nil_left {α : Type} (texts : List (List α)) :
    List.intercalate [] texts = texts.flatten := by
  match texts with
  | [] => rfl
  | [text] => simp
  | text :: second :: rest =>
      rw [List.intercalate_cons_cons, intercalate_nil_left (second :: rest)]
      simp

section EscapedQuotes

/-- A character stays unless it is a backslash before a quote. -/
theorem dropEscapedQuotes_cons {c : Char} {rest : List Char}
    (stays : c = '\\' → rest.head? ≠ some '"' ∧ rest.head? ≠ some '\'') :
    dropEscapedQuotes (c :: rest) = c :: dropEscapedQuotes rest := by
  rw [dropEscapedQuotes]
  · rintro others escape rfl
    exact (stays escape).1 rfl
  · rintro others escape rfl
    exact (stays escape).2 rfl

theorem dropEscapedQuotes_fixed {text : List Char} (free : '\\' ∉ text) :
    dropEscapedQuotes text = text := by
  induction text with
  | nil => rfl
  | cons c rest ih =>
      rw [List.mem_cons, not_or] at free
      rw [dropEscapedQuotes_cons fun escape => absurd escape.symm free.1, ih free.2]

/-- Two texts are treated apart unless a backslash and a quote meet. -/
theorem dropEscapedQuotes_append {first second : List Char}
    (apart : first.getLast? = some '\\' →
      second.head? ≠ some '"' ∧ second.head? ≠ some '\'') :
    dropEscapedQuotes (first ++ second) = dropEscapedQuotes first ++ dropEscapedQuotes second := by
  induction first using dropEscapedQuotes.induct with
  | case1 rest ih =>
      rw [List.cons_append, List.cons_append, dropEscapedQuotes, dropEscapedQuotes]
      refine ih fun last => apart ?_
      rw [List.getLast?_cons, List.getLast?_cons, last]
      rfl
  | case2 rest ih =>
      rw [List.cons_append, List.cons_append, dropEscapedQuotes, dropEscapedQuotes]
      refine ih fun last => apart ?_
      rw [List.getLast?_cons, List.getLast?_cons, last]
      rfl
  | case3 c rest double single ih =>
      have stays : ∀ tail : List Char,
          (rest = [] → c = '\\' → tail.head? ≠ some '"' ∧ tail.head? ≠ some '\'') →
            dropEscapedQuotes (c :: (rest ++ tail)) = c :: dropEscapedQuotes (rest ++ tail) := by
        intro tail start
        apply dropEscapedQuotes_cons
        intro escape
        cases rest with
        | nil => exact start rfl escape
        | cons next others =>
            have other : next ≠ '"' ∧ next ≠ '\'' :=
              ⟨fun same => double others escape (by rw [same]),
                fun same => single others escape (by rw [same])⟩
            simpa using other
      have whole := stays [] fun _ _ => by simp
      rw [List.append_nil] at whole
      rw [List.cons_append, whole, stays second, List.cons_append, ih]
      · intro last
        apply apart
        rw [List.getLast?_cons, last]
        rfl
      · rintro rfl rfl
        exact apart rfl
  | case4 => rfl

theorem dropEscapedQuotes_intercalate (texts : List (List Char)) :
    dropEscapedQuotes ([' '].intercalate texts) =
      [' '].intercalate (texts.map dropEscapedQuotes) := by
  refine intercalate_of_split rfl fun text _ rest => ?_
  have blank : dropEscapedQuotes ([' '] ++ rest) = [' '] ++ dropEscapedQuotes rest :=
    dropEscapedQuotes_cons fun escape => absurd escape (by decide)
  rw [List.append_assoc, dropEscapedQuotes_append fun _ => by simp, blank, List.append_assoc]

/-- Whether a backslash disappears or not, what follows loses at most one character. -/
theorem mem_of_dropEscapedQuotes_backslash {c : Char} {rest : List Char}
    (left : c ∈ dropEscapedQuotes ('\\' :: rest)) :
    c = '\\' ∨ c ∈ dropEscapedQuotes rest := by
  by_cases double : rest.head? = some '"'
  · obtain ⟨others, rfl⟩ := List.head?_eq_some_iff.1 double
    rw [dropEscapedQuotes] at left
    rw [dropEscapedQuotes_cons fun escape => absurd escape (by decide)]
    exact .inr (List.mem_cons_of_mem _ left)
  by_cases single : rest.head? = some '\''
  · obtain ⟨others, rfl⟩ := List.head?_eq_some_iff.1 single
    rw [dropEscapedQuotes] at left
    rw [dropEscapedQuotes_cons fun escape => absurd escape (by decide)]
    exact .inr (List.mem_cons_of_mem _ left)
  rwa [dropEscapedQuotes_cons fun _ => ⟨double, single⟩, List.mem_cons] at left

end EscapedQuotes

section Quoted

variable {quote : Char}

theorem dropQuoted_quote (rest : List Char) :
    dropQuoted quote none (quote :: rest) = dropQuoted quote (some [quote]) rest :=
  if_pos rfl

theorem dropQuoted_close (held rest : List Char) :
    dropQuoted quote (some held) (quote :: rest) = dropQuoted quote none rest :=
  if_pos rfl

theorem dropQuoted_outside {c : Char} (other : c ≠ quote) (rest : List Char) :
    dropQuoted quote none (c :: rest) = c :: dropQuoted quote none rest :=
  if_neg other

theorem dropQuoted_inside {c : Char} (other : c ≠ quote) (held rest : List Char) :
    dropQuoted quote (some held) (c :: rest) = dropQuoted quote (some (c :: held)) rest :=
  if_neg other

/-- A text without the quote stays, and so does what is pending. -/
theorem dropQuoted_fixed {text : List Char} (free : quote ∉ text)
    (pending : Option (List Char)) :
    dropQuoted quote pending text = (pending.getD []).reverse ++ text := by
  induction text generalizing pending with
  | nil => exact (List.append_nil _).symm
  | cons c rest ih =>
      rw [List.mem_cons, not_or] at free
      cases pending with
      | none => rw [dropQuoted_outside (Ne.symm free.1), ih free.2]; rfl
      | some held =>
          rw [dropQuoted_inside (Ne.symm free.1), ih free.2]
          simp

/-- A text without the quote also stays behind another text. -/
theorem dropQuoted_append_fixed {second : List Char} (free : quote ∉ second) (first : List Char)
    (pending : Option (List Char)) :
    dropQuoted quote pending (first ++ second) = dropQuoted quote pending first ++ second := by
  induction first generalizing pending with
  | nil => exact dropQuoted_fixed free pending
  | cons c rest ih =>
      rw [List.cons_append]
      by_cases same : c = quote
      · subst same
        cases pending with
        | none => rw [dropQuoted_quote, dropQuoted_quote, ih]
        | some held => rw [dropQuoted_close, dropQuoted_close, ih]
      · cases pending with
        | none => rw [dropQuoted_outside same, dropQuoted_outside same, ih, List.cons_append]
        | some held => rw [dropQuoted_inside same, dropQuoted_inside same, ih]

/-- Quotes that are all closed do not change what follows. -/
theorem dropQuoted_append_of_closed {first : List Char} {pending : Option (List Char)}
    (closed : pending.isSome = true ↔ Odd (first.count quote)) (second : List Char) :
    dropQuoted quote pending (first ++ second) =
      dropQuoted quote pending first ++ dropQuoted quote none second := by
  induction first generalizing pending with
  | nil =>
      cases pending with
      | none => rfl
      | some held => simp at closed
  | cons c rest ih =>
      by_cases same : c = quote
      · subst same
        rw [List.count_cons_self, Nat.odd_add_one] at closed
        cases pending with
        | none =>
            rw [List.cons_append, dropQuoted_quote, dropQuoted_quote]
            exact ih (by simpa using closed)
        | some held =>
            rw [List.cons_append, dropQuoted_close, dropQuoted_close]
            exact ih (by simpa using closed)
      · rw [List.count_cons_of_ne same] at closed
        cases pending with
        | none =>
            rw [List.cons_append, dropQuoted_outside same, dropQuoted_outside same, ih closed]
            rfl
        | some held =>
            rw [List.cons_append, dropQuoted_inside same, dropQuoted_inside same]
            exact ih closed

/-- Texts in which all quotes are closed lose their quoted texts one by one. -/
theorem dropQuoted_intercalate (other : ' ' ≠ quote) {texts : List (List Char)}
    (closed : ∀ text ∈ texts, Even (text.count quote)) :
    dropQuoted quote none ([' '].intercalate texts) =
      [' '].intercalate (texts.map (dropQuoted quote none)) := by
  refine intercalate_of_split rfl fun text inside rest => ?_
  rw [List.append_assoc, dropQuoted_append_of_closed (by simpa using closed text inside),
    List.singleton_append, dropQuoted_outside other, List.append_assoc]
  rfl

theorem dropQuoted_skip {inner : List Char} (free : quote ∉ inner) (held rest : List Char) :
    dropQuoted quote (some held) (inner ++ quote :: rest) = dropQuoted quote none rest := by
  induction inner generalizing held with
  | nil => exact dropQuoted_close held rest
  | cons c others ih =>
      rw [List.mem_cons, not_or] at free
      rw [List.cons_append, dropQuoted_inside (Ne.symm free.1)]
      exact ih free.2 _

/-- What follows an open quote disappears up to the next one. -/
theorem dropQuoted_opened {inner : List Char} (free : quote ∉ inner) (rest : List Char) :
    dropQuoted quote none (quote :: (inner ++ quote :: rest)) = dropQuoted quote none rest := by
  rw [dropQuoted_quote, dropQuoted_skip free]

theorem dropQuoted_enclosed {inner : List Char} (free : quote ∉ inner) :
    dropQuoted quote none (quote :: inner ++ [quote]) = [] :=
  dropQuoted_opened free []

/-- What stands between an open quote and the next one does not matter. -/
theorem dropQuoted_append_of_open {first : List Char} {pending : Option (List Char)}
    (opened : pending.isSome = true ↔ Even (first.count quote)) {inner : List Char}
    (free : quote ∉ inner) (rest : List Char) :
    dropQuoted quote pending (first ++ (inner ++ quote :: rest)) =
      dropQuoted quote pending (first ++ [quote]) ++ dropQuoted quote none rest := by
  induction first generalizing pending with
  | nil =>
      cases pending with
      | none => simp at opened
      | some held =>
          rw [List.nil_append, List.nil_append, dropQuoted_skip free, dropQuoted_close]
          rfl
  | cons c others ih =>
      by_cases same : c = quote
      · subst same
        rw [List.count_cons_self, Nat.even_add_one, Nat.not_even_iff_odd] at opened
        cases pending with
        | none =>
            rw [List.cons_append, List.cons_append, dropQuoted_quote, dropQuoted_quote]
            exact ih (by simpa using opened)
        | some held =>
            rw [List.cons_append, List.cons_append, dropQuoted_close, dropQuoted_close]
            exact ih (by simpa using opened)
      · rw [List.count_cons_of_ne same] at opened
        cases pending with
        | none =>
            rw [List.cons_append, List.cons_append, dropQuoted_outside same,
              dropQuoted_outside same, ih opened]
            rfl
        | some held =>
            rw [List.cons_append, List.cons_append, dropQuoted_inside same,
              dropQuoted_inside same]
            exact ih opened

/-- A pass over quoted texts leaves only characters that it was given. -/
theorem mem_of_dropQuoted {c : Char} {pending : Option (List Char)} {text : List Char}
    (left : c ∈ dropQuoted quote pending text) : c ∈ pending.getD [] ∨ c ∈ text := by
  induction text generalizing pending with
  | nil =>
      exact .inl (List.mem_reverse.1 left)
  | cons d rest ih =>
      rw [List.mem_cons]
      by_cases same : d = quote
      · subst same
        cases pending with
        | none =>
            rw [dropQuoted_quote] at left
            rcases ih left with pending | inside
            · exact .inr (.inl (List.mem_singleton.1 pending))
            · exact .inr (.inr inside)
        | some held =>
            rw [dropQuoted_close] at left
            exact (ih left).elim (fun pending => absurd pending List.not_mem_nil)
              fun inside => .inr (.inr inside)
      · cases pending with
        | none =>
            rw [dropQuoted_outside same, List.mem_cons] at left
            rcases left with rfl | left
            · exact .inr (.inl rfl)
            · exact (ih left).elim (fun pending => absurd pending List.not_mem_nil)
                fun inside => .inr (.inr inside)
        | some held =>
            rw [dropQuoted_inside same] at left
            rcases ih left with pending | inside
            · exact (List.mem_cons.1 pending).elim (fun same => .inr (.inl same)) .inl
            · exact .inr (.inr inside)

end Quoted

section Names

/-- The ASCII codes of the characters of a column name. -/
theorem toNat_of_isNamePart {c : Char} (part : isNamePart c = true) :
    (48 ≤ c.toNat ∧ c.toNat ≤ 57) ∨ c.toNat = 95 ∨ (97 ≤ c.toNat ∧ c.toNat ≤ 122) := by
  simp only [isNamePart, isLower, Char.isDigit, Bool.or_eq_true, Bool.and_eq_true,
    decide_eq_true_eq, beq_iff_eq, Char.le_def, UInt32.le_iff_toNat_le] at part
  rcases part with (lower | digit) | rfl
  · exact .inr (.inr lower)
  · exact .inl digit
  · exact .inr (.inl rfl)

theorem isNamePart_of_isLower {c : Char} (lower : isLower c = true) : isNamePart c = true := by
  rw [isNamePart, lower]
  rfl

/-- A blank ends a name between backticks whether it is closed or not. -/
theorem backtickPieces_blank (first second : List Char) (pending : Option (List Char)) :
    backtickPieces pending (first ++ ' ' :: second) =
      backtickPieces pending first ++ .plain ' ' :: backtickPieces none second := by
  have blank : ' ' ≠ backtick := by decide
  have apart : isLower ' ' = false ∧ isNamePart ' ' = false := by decide
  induction first generalizing pending with
  | nil =>
      cases pending with
      | none => simp [backtickPieces, blank]
      | some held => cases held <;> simp [backtickPieces, blank, apart]
  | cons c rest ih =>
      cases pending with
      | none =>
          simp only [List.cons_append, backtickPieces]
          split <;> simp [ih]
      | some held =>
          simp only [List.cons_append, backtickPieces]
          by_cases closes : c = backtick
          · rw [if_pos closes, if_pos closes]
            split <;> simp [ih]
          · rw [if_neg closes, if_neg closes]
            by_cases goes : (if held.isEmpty then isLower c else isNamePart c) = true
            · rw [if_pos goes, if_pos goes, ih]
            · rw [if_neg goes, if_neg goes, ih]
              simp

theorem backtickPieces_intercalate (texts : List (List Char)) :
    backtickPieces none ([' '].intercalate texts) =
      [Piece.plain ' '].intercalate (texts.map (backtickPieces none)) := by
  refine intercalate_of_split rfl fun text _ rest => ?_
  rw [List.append_assoc, List.append_assoc]
  exact backtickPieces_blank text rest none

theorem backtickPieces_fixed {text : List Char} (free : backtick ∉ text) :
    backtickPieces none text = text.map Piece.plain := by
  induction text with
  | nil => rfl
  | cons c rest ih =>
      rw [List.mem_cons, not_or] at free
      simp [backtickPieces, Ne.symm free.1, ih free.2]

/-- A name starts with a lower-case letter and goes on with name characters. -/
def isColumnName : List Char → Bool
  | [] => false
  | c :: rest => isLower c && rest.all isNamePart

theorem isColumnName_cons {c : Char} {rest : List Char} :
    isColumnName (c :: rest) = true ↔ isLower c = true ∧ ∀ d ∈ rest, isNamePart d = true := by
  simp [isColumnName]

theorem isNamePart_of_isColumnName {name : List Char} (named : isColumnName name = true) :
    ∀ c ∈ name, isNamePart c = true := by
  cases name with
  | nil => simp
  | cons c rest =>
      obtain ⟨lower, parts⟩ := isColumnName_cons.1 named
      exact List.forall_mem_cons.2 ⟨isNamePart_of_isLower lower, parts⟩

theorem backtickPieces_parts {rest held : List Char} (some' : held ≠ [])
    (parts : ∀ c ∈ rest, isNamePart c = true) :
    backtickPieces (some held) (rest ++ [backtick]) = [.name (held.reverse ++ rest)] := by
  induction rest generalizing held with
  | nil => simp [backtickPieces, some']
  | cons c others ih =>
      rw [List.forall_mem_cons] at parts
      have other : c ≠ backtick := by
        rintro rfl
        exact absurd parts.1 (by decide)
      simp [backtickPieces, other, some', parts.1, ih (List.cons_ne_nil c held) parts.2]

theorem backtickPieces_name {name : List Char} (named : isColumnName name = true) :
    backtickPieces none (backtick :: name ++ [backtick]) = [.name name] := by
  cases name with
  | nil => contradiction
  | cons c rest =>
      obtain ⟨lower, parts⟩ := isColumnName_cons.1 named
      have other : c ≠ backtick := by
        rintro rfl
        exact absurd lower (by decide)
      simp [backtickPieces, other, lower, backtickPieces_parts (List.cons_ne_nil c []) parts]

/-- Blanks stay where no parenthesis follows them. -/
theorem dropBlanksBeforeParentheses_solid {text : List Char}
    (solid : ∀ c ∈ text, isBlank c = false) (blanks rest : List Char)
    (start : ∃ c, text.head? = some c ∧ c ≠ '(') :
    dropBlanksBeforeParentheses blanks (text ++ rest) =
      blanks.reverse ++ text ++ dropBlanksBeforeParentheses [] rest := by
  have inside : ∀ others : List Char, (∀ c ∈ others, isBlank c = false) →
      dropBlanksBeforeParentheses [] (others ++ rest) =
        others ++ dropBlanksBeforeParentheses [] rest := by
    intro others solid
    induction others with
    | nil => rfl
    | cons c others ih =>
        rw [List.forall_mem_cons] at solid
        by_cases parenthesis : c = '('
        · simp [dropBlanksBeforeParentheses, parenthesis, ih solid.2]
        · simp [dropBlanksBeforeParentheses, parenthesis, solid.1, ih solid.2]
  obtain ⟨c, first, other⟩ := start
  obtain ⟨others, rfl⟩ := List.head?_eq_some_iff.1 first
  rw [List.forall_mem_cons] at solid
  simp [dropBlanksBeforeParentheses, other, solid.1, inside others solid.2]

/-- Blanks between texts stay if no text starts with a parenthesis. -/
theorem dropBlanksBeforeParentheses_intercalate {texts : List (List Char)}
    (solid : ∀ text ∈ texts, (∀ c ∈ text, isBlank c = false) ∧ text.head? ≠ some '(')
    (blanks : List Char) :
    dropBlanksBeforeParentheses blanks ([' '].intercalate texts) =
      blanks.reverse ++ [' '].intercalate texts := by
  have first : ∀ text rest, (∀ c ∈ text, isBlank c = false) ∧ text.head? ≠ some '(' →
      (∀ blanks, dropBlanksBeforeParentheses blanks rest = blanks.reverse ++ rest) →
        ∀ blanks, dropBlanksBeforeParentheses blanks (text ++ rest) =
          blanks.reverse ++ (text ++ rest) := by
    intro text rest solid stays blanks
    cases text with
    | nil => exact stays blanks
    | cons c others =>
        rw [dropBlanksBeforeParentheses_solid solid.1 blanks rest ⟨c, rfl, by simpa using solid.2⟩,
          stays []]
        simp
  have blank : ∀ rest,
      (∀ blanks, dropBlanksBeforeParentheses blanks rest = blanks.reverse ++ rest) →
        ∀ blanks, dropBlanksBeforeParentheses blanks (' ' :: rest) =
          blanks.reverse ++ ' ' :: rest := by
    intro rest stays blanks
    have white : isBlank ' ' = true := by decide
    simp [dropBlanksBeforeParentheses, white, stays]
  have nothing : ∀ blanks, dropBlanksBeforeParentheses blanks [] = blanks.reverse ++ [] := by
    intro blanks
    rw [dropBlanksBeforeParentheses, List.append_nil]
  induction texts generalizing blanks with
  | nil => exact nothing blanks
  | cons text rest ih =>
      rw [List.forall_mem_cons] at solid
      cases rest with
      | nil =>
          have alone := first text [] solid.1 nothing blanks
          simpa using alone
      | cons second others =>
          rw [List.intercalate_cons_cons, List.append_assoc]
          exact first text _ solid.1 (blank _ (ih solid.2)) blanks

theorem dropFunctions_blank (first second : List Char) (state : NameScan) :
    dropFunctions state (first ++ ' ' :: second) =
      dropFunctions state first ++ ' ' :: dropFunctions (.outside false) second := by
  have apart : isLower ' ' = false ∧ isNamePart ' ' = false ∧ isWord ' ' = false := by decide
  induction first generalizing state with
  | nil =>
      cases state <;> simp [dropFunctions, apart]
  | cons c rest ih =>
      cases state with
      | outside afterWord =>
          simp only [List.cons_append, dropFunctions]
          split <;> simp [ih]
      | inside held =>
          simp only [List.cons_append, dropFunctions]
          split
          · exact ih _
          · split <;> simp [ih]

theorem dropFunctions_intercalate (texts : List (List Char)) :
    dropFunctions (.outside false) ([' '].intercalate texts) =
      [' '].intercalate (texts.map (dropFunctions (.outside false))) := by
  refine intercalate_of_split rfl fun text _ rest => ?_
  rw [List.append_assoc, List.append_assoc]
  exact dropFunctions_blank text rest _

theorem wordNames_blank (first second : List Char) (state : NameScan) :
    wordNames state (first ++ ' ' :: second) =
      wordNames state first ++ wordNames (.outside false) second := by
  have apart : isLower ' ' = false ∧ isNamePart ' ' = false ∧ isWord ' ' = false := by decide
  induction first generalizing state with
  | nil =>
      cases state <;> simp [wordNames, apart]
  | cons c rest ih =>
      cases state with
      | outside afterWord =>
          simp only [List.cons_append, wordNames]
          split <;> simp [ih]
      | inside held =>
          simp only [List.cons_append, wordNames]
          split
          · exact ih _
          · split <;> simp [ih]

theorem wordNames_intercalate (texts : List (List Char)) :
    wordNames (.outside false) ([' '].intercalate texts) =
      texts.flatMap (wordNames (.outside false)) := by
  rw [List.flatMap_def, ← intercalate_nil_left]
  refine intercalate_of_split rfl fun text _ rest => ?_
  rw [List.append_assoc, List.append_nil]
  exact wordNames_blank text rest _

/-- Only lower-case letters start a name. -/
theorem dropFunctions_fixed {text : List Char} (none : ∀ c ∈ text, isLower c = false)
    (afterWord : Bool) : dropFunctions (.outside afterWord) text = text := by
  induction text generalizing afterWord with
  | nil => rfl
  | cons c rest ih =>
      rw [List.forall_mem_cons] at none
      simp [dropFunctions, none.1, ih none.2]

theorem wordNames_fixed {text : List Char} (none : ∀ c ∈ text, isLower c = false)
    (afterWord : Bool) : wordNames (.outside afterWord) text = [] := by
  induction text generalizing afterWord with
  | nil => rfl
  | cons c rest ih =>
      rw [List.forall_mem_cons] at none
      simp [wordNames, none.1, ih none.2]

theorem dropFunctions_parts {parts : List Char} (all : ∀ c ∈ parts, isNamePart c = true)
    (held rest : List Char) :
    dropFunctions (.inside held) (parts ++ rest) =
      dropFunctions (.inside (parts.reverse ++ held)) rest := by
  induction parts generalizing held with
  | nil => rfl
  | cons c others ih =>
      rw [List.forall_mem_cons] at all
      simp [dropFunctions, all.1, ih all.2]

theorem wordNames_parts {parts : List Char} (all : ∀ c ∈ parts, isNamePart c = true)
    (held : List Char) :
    wordNames (.inside held) parts = [String.ofList (held.reverse ++ parts)] := by
  induction parts generalizing held with
  | nil => simp [wordNames]
  | cons c others ih =>
      rw [List.forall_mem_cons] at all
      simp [wordNames, all.1, ih all.2]

variable {name : List Char}

theorem dropFunctions_name (named : isColumnName name = true) :
    dropFunctions (.outside false) name = name := by
  cases name with
  | nil => rfl
  | cons c rest =>
      obtain ⟨lower, parts⟩ := isColumnName_cons.1 named
      have whole := dropFunctions_parts parts [c] []
      simp [dropFunctions, lower] at whole ⊢
      exact whole

theorem dropFunctions_function (named : isColumnName name = true) :
    dropFunctions (.outside false) (name ++ ['(']) = ['('] := by
  cases name with
  | nil => contradiction
  | cons c rest =>
      obtain ⟨lower, parts⟩ := isColumnName_cons.1 named
      have apart : isNamePart '(' = false := by decide
      simp [dropFunctions, lower, dropFunctions_parts parts, apart]

theorem wordNames_name (named : isColumnName name = true) :
    wordNames (.outside false) name = [String.ofList name] := by
  cases name with
  | nil => contradiction
  | cons c rest =>
      obtain ⟨lower, parts⟩ := isColumnName_cons.1 named
      simp [wordNames, lower, wordNames_parts parts]

end Names

end QueryAlgebra
