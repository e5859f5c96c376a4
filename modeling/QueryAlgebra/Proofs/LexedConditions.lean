/-
This file reads conditions that are made of lexemes with single blanks between them.
It shows which quoted literals hide all that they contain and nothing else.
-/
import Mathlib.Data.List.Basic
import QueryAlgebra.Proofs.ScanPasses

namespace QueryAlgebra

structure ColumnName where
  chars : List Char
  wellFormed : isColumnName chars = true

def ColumnName.text (name : ColumnName) : String := String.ofList name.chars

inductive QuoteMark where
  | single
  | double
deriving DecidableEq

def QuoteMark.char : QuoteMark → Char
  | .single => '\''
  | .double => '"'

/-- A backslash and the mark around a literal are escaped inside it, and nothing else is. -/
inductive LiteralPart (mark : QuoteMark) where
  | plain (c : Char) (bare : c ≠ '\\' ∧ c ≠ mark.char)
  | backslash
  | mark
deriving DecidableEq

def LiteralPart.chars {mark : QuoteMark} : LiteralPart mark → List Char
  | .plain c _ => [c]
  | .backslash => ['\\', '\\']
  | .mark => ['\\', mark.char]

/-- A closed literal. -/
structure QuotedLiteral where
  mark : QuoteMark
  parts : List (LiteralPart mark)

def QuotedLiteral.content (literal : QuotedLiteral) : List Char :=
  literal.parts.flatMap LiteralPart.chars

def QuotedLiteral.chars (literal : QuotedLiteral) : List Char :=
  literal.mark.char :: literal.content ++ [literal.mark.char]

/-- The apostrophes of a text that stand behind no backslash. -/
def looseApostrophes : List Char → Nat
  | [] => 0
  | '\\' :: '\'' :: rest => looseApostrophes rest
  | '\'' :: rest => looseApostrophes rest + 1
  | _ :: rest => looseApostrophes rest

/-- The end of the literal is not taken for an escaped mark, and between double quotes its
apostrophes pair up. -/
structure QuotedLiteral.Contained (literal : QuotedLiteral) : Prop where
  closed : literal.parts.getLast? ≠ some .backslash
  paired : literal.mark = .double → Even (looseApostrophes literal.content)

def operatorSymbols : List Char := ['=', '<', '>', '!', '+', '-', '*', '/', '%']

/-- What a condition is made of. No lexeme starts with a parenthesis that opens, so a name that
stands alone is never that of a function. -/
inductive Lexeme where
  | identifier (name : ColumnName) (free : name.text ∉ reservedWords)
  | backticked (name : ColumnName)
  | reserved (word : String) (listed : word ∈ reservedWords)
  | integer (digits : List Char) (nonempty : digits ≠ [])
      (decimal : ∀ c ∈ digits, c.isDigit = true)
  | operator (symbols : List Char) (nonempty : symbols ≠ [])
      (listed : ∀ c ∈ symbols, c ∈ operatorSymbols)
  | comma
  | closing
  | function (name : ColumnName)
  | quoted (literal : QuotedLiteral)

def Lexeme.chars : Lexeme → List Char
  | .identifier name _ => name.chars
  | .backticked name => backtick :: name.chars ++ [backtick]
  | .reserved word _ => word.toList
  | .integer digits _ _ => digits
  | .operator symbols _ _ => symbols
  | .comma => [',']
  | .closing => [')']
  | .function name => name.chars ++ ['(']
  | .quoted literal => literal.chars

def Lexeme.text (lexeme : Lexeme) : String := String.ofList lexeme.chars

/-- Single blanks stand between the lexemes of a condition. -/
def spaced (lexemes : List Lexeme) : String := " ".intercalate (lexemes.map Lexeme.text)

def Lexeme.backticked? : Lexeme → Option String
  | .backticked name => some name.text
  | _ => none

def Lexeme.identifier? : Lexeme → Option String
  | .identifier name _ => some name.text
  | _ => none

/-- Names between backticks come first, and of equal names only the first counts. -/
def lexedColumns (lexemes : List Lexeme) : List String :=
  (lexemes.filterMap Lexeme.backticked? ++ lexemes.filterMap Lexeme.identifier?).eraseDups

def Lexeme.Contained : Lexeme → Prop
  | .quoted literal => literal.Contained
  | _ => True

section Literals

theorem QuoteMark.char_ne_backslash (mark : QuoteMark) : mark.char ≠ '\\' := by
  cases mark <;> decide

theorem dropEscapedQuotes_mark (mark : QuoteMark) (rest : List Char) :
    dropEscapedQuotes ('\\' :: mark.char :: rest) = dropEscapedQuotes rest := by
  cases mark <;> rw [QuoteMark.char, dropEscapedQuotes]

/-- No mark is left of the content once escaped quotes are gone. -/
theorem QuotedLiteral.mark_not_mem (literal : QuotedLiteral) :
    literal.mark.char ∉ dropEscapedQuotes literal.content := by
  obtain ⟨mark, parts⟩ := literal
  show mark.char ∉ dropEscapedQuotes (parts.flatMap LiteralPart.chars)
  induction parts with
  | nil => exact List.not_mem_nil
  | cons part rest ih =>
      rw [List.flatMap_cons]
      cases part with
      | plain c bare =>
          rw [LiteralPart.chars, List.singleton_append,
            dropEscapedQuotes_cons fun escape => absurd escape bare.1, List.mem_cons, not_or]
          exact ⟨bare.2.symm, ih⟩
      | backslash =>
          intro left
          rcases mem_of_dropEscapedQuotes_backslash left with same | left
          · exact mark.char_ne_backslash same
          rcases mem_of_dropEscapedQuotes_backslash left with same | left
          · exact mark.char_ne_backslash same
          · exact ih left
      | mark =>
          show mark.char ∉ dropEscapedQuotes ('\\' :: mark.char :: _)
          rw [dropEscapedQuotes_mark]
          exact ih

theorem count_dropEscapedQuotes (text : List Char) :
    (dropEscapedQuotes text).count '\'' = looseApostrophes text := by
  induction text using dropEscapedQuotes.induct with
  | case1 rest ih => simp [dropEscapedQuotes, looseApostrophes, ih]
  | case2 rest ih => simp [dropEscapedQuotes, looseApostrophes, ih]
  | case3 c rest double single ih =>
      rw [dropEscapedQuotes.eq_3 c rest double single]
      by_cases same : c = '\''
      · subst same
        rw [List.count_cons_self, ih, looseApostrophes]
      · rw [List.count_cons_of_ne same, ih, looseApostrophes]
        · exact single
        · exact same
  | case4 => rfl

/-- The last character of a content is a backslash only as an escaped one. -/
theorem QuotedLiteral.getLast?_content {literal : QuotedLiteral}
    (closed : literal.parts.getLast? ≠ some .backslash) :
    literal.content.getLast? ≠ some '\\' := by
  obtain ⟨mark, parts⟩ := literal
  rcases List.eq_nil_or_concat parts with rfl | ⟨front, last, rfl⟩
  · nofun
  · rw [content, List.concat_eq_append, List.flatMap_append, List.flatMap_singleton]
    cases last with
    | plain c bare => simpa [LiteralPart.chars] using bare.1
    | backslash => exact absurd (by simp) closed
    | mark => simpa [LiteralPart.chars] using mark.char_ne_backslash

/-- A literal that closes where it ends keeps both of its marks. -/
theorem QuotedLiteral.dropEscapedQuotes_chars {literal : QuotedLiteral}
    (closed : literal.parts.getLast? ≠ some .backslash) :
    dropEscapedQuotes literal.chars =
      literal.mark.char :: dropEscapedQuotes literal.content ++ [literal.mark.char] := by
  have other := literal.mark.char_ne_backslash
  have end' : dropEscapedQuotes [literal.mark.char] = [literal.mark.char] :=
    dropEscapedQuotes_fixed (by simpa using other.symm)
  rw [chars, List.cons_append, List.cons_append,
    dropEscapedQuotes_cons fun escape => absurd escape other,
    dropEscapedQuotes_append fun last => absurd last (getLast?_content closed), end']

end Literals

/-- Characters that are neither white space nor taken for a quote or an escape. -/
def isSolid (c : Char) : Bool := !isBlank c && c != '\\' && c != '\'' && c != '"'

/-- What passes over quoted texts leave of a lexeme. -/
def Lexeme.bare : Lexeme → List Char
  | .quoted _ => []
  | lexeme => lexeme.chars

/-- What is left of a lexeme without names between backticks. -/
def Lexeme.plain : Lexeme → List Char
  | .quoted _ | .backticked _ => []
  | lexeme => lexeme.chars

section Solid

theorem isSolid_of_isNamePart {c : Char} (part : isNamePart c = true) : isSolid c = true := by
  have code := toNat_of_isNamePart part
  have blank : isBlank c = false := by
    have other : c ≠ ' ' := by
      rintro rfl
      contradiction
    simp only [isBlank, Bool.or_eq_false_iff, beq_eq_false_iff_ne, Bool.and_eq_false_iff,
      decide_eq_false_iff_not, ne_eq, other, not_false_eq_true, true_and]
    omega
  have plain : c ≠ '\\' ∧ c ≠ '\'' ∧ c ≠ '"' := by
    refine ⟨?_, ?_, ?_⟩ <;> (rintro rfl; contradiction)
  simp [isSolid, blank, plain]

theorem isColumnName_of_reserved :
    ∀ word ∈ reservedWords, isColumnName word.toList = true := by decide

/-- The characters of everything but literals and names between backticks. -/
def isSymbol (c : Char) : Bool :=
  isNamePart c || (['(', ')', ','] ++ operatorSymbols).contains c

theorem isSymbol_of_isNamePart {c : Char} (part : isNamePart c = true) : isSymbol c = true := by
  rw [isSymbol, part]
  rfl

theorem isSymbol_of_contains {c : Char} (listed : c ∈ ['(', ')', ','] ++ operatorSymbols) :
    isSymbol c = true := by
  rw [isSymbol, List.contains_iff_mem.2 listed, Bool.or_true]

theorem isSolid_of_isSymbol {c : Char} (symbol : isSymbol c = true) : isSolid c = true := by
  rw [isSymbol, Bool.or_eq_true, List.contains_iff_mem] at symbol
  rcases symbol with part | listed
  · exact isSolid_of_isNamePart part
  · have solid : ∀ c ∈ ['(', ')', ','] ++ operatorSymbols, isSolid c = true :=
      List.all_eq_true.1 (by decide)
    exact solid c listed

theorem ColumnName.isSymbol (name : ColumnName) : ∀ c ∈ name.chars, isSymbol c = true :=
  fun c inside => isSymbol_of_isNamePart (isNamePart_of_isColumnName name.wellFormed c inside)

theorem Lexeme.isSymbol_of_plain (lexeme : Lexeme) : ∀ c ∈ lexeme.plain, isSymbol c = true := by
  cases lexeme with
  | identifier name free => exact name.isSymbol
  | backticked name => exact List.forall_mem_nil _
  | reserved word listed =>
      exact ColumnName.isSymbol ⟨word.toList, isColumnName_of_reserved word listed⟩
  | integer digits nonempty decimal =>
      intro c inside
      refine isSymbol_of_isNamePart ?_
      rw [isNamePart, decimal c inside, Bool.or_true]
      rfl
  | operator symbols nonempty listed =>
      exact fun c inside => isSymbol_of_contains (List.mem_append_right _ (listed c inside))
  | comma => exact List.forall_mem_singleton.2 (by decide)
  | closing => exact List.forall_mem_singleton.2 (by decide)
  | function name =>
      refine List.forall_mem_append.2 ⟨name.isSymbol, ?_⟩
      exact List.forall_mem_singleton.2 (by decide)
  | quoted literal => exact List.forall_mem_nil _

variable {text : List Char}

theorem not_mem_of_isSolid (solid : ∀ c ∈ text, isSolid c = true) :
    '\\' ∉ text ∧ '\'' ∉ text ∧ '"' ∉ text := by
  have other : ∀ {c}, isSolid c = false → c ∉ text := by
    intro c taken inside
    rw [solid c inside] at taken
    contradiction
  exact ⟨other (by decide), other (by decide), other (by decide)⟩

end Solid

/-- A text is left with the given one, and no pass over quoted texts goes beyond its end. -/
structure Unquotes (text left : List Char) : Prop where
  single : Even ((dropEscapedQuotes text).count '\'')
  double : Even ((dropQuoted '\'' none (dropEscapedQuotes text)).count '"')
  whole : unquoted text = left

theorem even_count_enclosed {quote : Char} {inner : List Char} (free : quote ∉ inner) :
    Even ((quote :: inner ++ [quote]).count quote) := by
  rw [List.count_append, List.count_cons_self, List.count_eq_zero.2 free,
    List.count_singleton_self]
  exact even_two

theorem QuotedLiteral.Contained.unquotes {literal : QuotedLiteral}
    (contained : literal.Contained) : Unquotes literal.chars [] := by
  have kept := dropEscapedQuotes_chars contained.closed
  have free := literal.mark_not_mem
  have even := contained.paired
  rw [← count_dropEscapedQuotes] at even
  obtain ⟨mark, parts⟩ := literal
  cases mark with
  | single =>
      have gone : dropQuoted '\'' none (dropEscapedQuotes (chars ⟨.single, parts⟩)) = [] := by
        rw [kept]
        exact dropQuoted_enclosed free
      constructor
      · rw [kept]
        exact even_count_enclosed free
      · rw [gone]
        exact .zero
      · rw [unquoted, gone]
        rfl
  | double =>
      have inside : '"' ∉ dropQuoted '\'' none (dropEscapedQuotes (content ⟨.double, parts⟩)) :=
        fun left => (mem_of_dropQuoted left).elim (absurd · List.not_mem_nil) free
      have paired := even rfl
      have apart : dropQuoted '\'' none (dropEscapedQuotes (chars ⟨.double, parts⟩)) =
          '"' :: dropQuoted '\'' none (dropEscapedQuotes (content ⟨.double, parts⟩)) ++ ['"'] := by
        rw [kept]
        simp only [QuoteMark.char, List.cons_append]
        rw [dropQuoted_outside (by decide),
          dropQuoted_append_of_closed (by simpa using paired)]
        rfl
      constructor
      · rw [kept]
        simp only [QuoteMark.char, List.cons_append]
        simpa using paired
      · rw [apart]
        exact even_count_enclosed inside
      · rw [unquoted, apart]
        exact dropQuoted_enclosed inside

/-- A text without quotes and escapes stays as it is. -/
theorem unquotes_of_isSolid {text : List Char} (solid : ∀ c ∈ text, isSolid c = true) :
    Unquotes text text := by
  obtain ⟨escape, single, double⟩ := not_mem_of_isSolid solid
  have first : dropQuoted '\'' none (dropEscapedQuotes text) = text := by
    rw [dropEscapedQuotes_fixed escape, dropQuoted_fixed single]
    rfl
  constructor
  · rw [dropEscapedQuotes_fixed escape, List.count_eq_zero.2 single]
    exact .zero
  · rw [first, List.count_eq_zero.2 double]
    exact .zero
  · rw [unquoted, first, dropQuoted_fixed double]
    rfl

theorem Lexeme.Contained.unquotes {lexeme : Lexeme} (contained : lexeme.Contained) :
    Unquotes lexeme.chars lexeme.bare := by
  have plain := unquotes_of_isSolid fun c inside =>
    isSolid_of_isSymbol (lexeme.isSymbol_of_plain c inside)
  cases lexeme with
  | quoted literal => exact QuotedLiteral.Contained.unquotes contained
  | backticked name =>
      refine unquotes_of_isSolid ?_
      simp only [chars, List.cons_append, List.forall_mem_cons, List.forall_mem_append]
      exact ⟨by decide, fun c inside => isSolid_of_isSymbol (name.isSymbol c inside),
        by decide, nofun⟩
  | _ => exact plain

/-- Texts that blanks separate lose their quoted texts one by one. -/
theorem unquoted_intercalate {texts : List (List Char)}
    (closed : ∀ text ∈ texts, ∃ left, Unquotes text left) :
    unquoted ([' '].intercalate texts) = [' '].intercalate (texts.map unquoted) := by
  rw [unquoted, dropEscapedQuotes_intercalate, dropQuoted_intercalate (by decide),
    dropQuoted_intercalate (by decide), List.map_map, List.map_map]
  · rfl
  · rw [List.map_map, List.forall_mem_map]
    intro text inside
    obtain ⟨left, unquotes⟩ := closed text inside
    exact unquotes.double
  · rw [List.forall_mem_map]
    intro text inside
    obtain ⟨left, unquotes⟩ := closed text inside
    exact unquotes.single

/-- The pieces of a lexeme. -/
def Lexeme.pieces : Lexeme → List Piece
  | .backticked name => [.name name.chars]
  | lexeme => lexeme.plain.map Piece.plain

theorem Lexeme.backtickPieces_bare (lexeme : Lexeme) :
    backtickPieces none lexeme.bare = lexeme.pieces := by
  have plain : backtickPieces none lexeme.plain = lexeme.plain.map Piece.plain :=
    backtickPieces_fixed fun inside =>
      absurd (lexeme.isSymbol_of_plain backtick inside) (by decide)
  cases lexeme with
  | backticked name => exact backtickPieces_name name.wellFormed
  | _ => exact plain

theorem Lexeme.name?_pieces (lexeme : Lexeme) :
    lexeme.pieces.filterMap Piece.name? = lexeme.backticked?.toList := by
  have none : ∀ text : List Char, (text.map Piece.plain).filterMap Piece.name? = [] := by
    intro text
    rw [List.filterMap_map]
    exact List.filterMap_eq_nil_iff.2 fun c _ => rfl
  cases lexeme with
  | backticked name => rfl
  | _ => exact none _

theorem Lexeme.plain?_pieces (lexeme : Lexeme) :
    lexeme.pieces.filterMap Piece.plain? = lexeme.plain := by
  have all : ∀ text : List Char, (text.map Piece.plain).filterMap Piece.plain? = text := by
    intro text
    rw [List.filterMap_map]
    exact List.filterMap_some
  cases lexeme with
  | backticked name => rfl
  | _ => exact all _

/-- What is left of a lexeme without names of functions. -/
def Lexeme.nameless : Lexeme → List Char
  | .function _ => ['(']
  | lexeme => lexeme.plain

/-- The words that are left. -/
def Lexeme.words : Lexeme → List String
  | .identifier name _ => [name.text]
  | .reserved word _ => [word]
  | _ => []

theorem not_isLower_of_isDigit {c : Char} (digit : c.isDigit = true) : isLower c = false := by
  simp only [Char.isDigit, ge_iff_le, Bool.and_eq_true, decide_eq_true_eq,
    UInt32.le_iff_toNat_le] at digit
  simp only [isLower, Bool.and_eq_false_iff, decide_eq_false_iff_not, Char.le_def,
    UInt32.le_iff_toNat_le]
  have small : c.val.toNat ≤ 57 := digit.2
  have large : 'a'.val.toNat = 97 := rfl
  omega

theorem not_isLower_of_operator : ∀ c ∈ operatorSymbols, isLower c = false := by
  simp only [operatorSymbols, List.forall_mem_cons]
  exact ⟨rfl, rfl, rfl, rfl, rfl, rfl, rfl, rfl, rfl, nofun⟩

theorem Lexeme.dropFunctions_plain (lexeme : Lexeme) :
    dropFunctions (.outside false) lexeme.plain = lexeme.nameless := by
  cases lexeme with
  | identifier name free => exact dropFunctions_name name.wellFormed
  | reserved word listed => exact dropFunctions_name (isColumnName_of_reserved word listed)
  | function name => exact dropFunctions_function name.wellFormed
  | integer digits nonempty decimal =>
      exact dropFunctions_fixed (fun c inside => not_isLower_of_isDigit (decimal c inside)) false
  | operator symbols nonempty listed =>
      exact dropFunctions_fixed (fun c inside => not_isLower_of_operator c (listed c inside)) false
  | _ => rfl

theorem Lexeme.wordNames_nameless (lexeme : Lexeme) :
    wordNames (.outside false) lexeme.nameless = lexeme.words := by
  cases lexeme with
  | identifier name free => exact wordNames_name name.wellFormed
  | reserved word listed =>
      have whole := wordNames_name (isColumnName_of_reserved word listed)
      rwa [String.ofList_toList] at whole
  | integer digits nonempty decimal =>
      exact wordNames_fixed (fun c inside => not_isLower_of_isDigit (decimal c inside)) false
  | operator symbols nonempty listed =>
      exact wordNames_fixed (fun c inside => not_isLower_of_operator c (listed c inside)) false
  | _ => rfl

theorem Lexeme.filter_words (lexeme : Lexeme) :
    lexeme.words.filter (!reservedWords.contains ·) = lexeme.identifier?.toList := by
  cases lexeme with
  | identifier name free => simp [words, identifier?, free]
  | reserved word listed => simp [words, identifier?, listed]
  | _ => rfl

theorem head?_ne_of_not_mem {c : Char} {text : List Char} (free : c ∉ text) :
    text.head? ≠ some c := fun first => free (List.mem_of_head? first)

/-- A lexeme has no blanks and does not start with a parenthesis that opens. -/
theorem Lexeme.solid_plain (lexeme : Lexeme) :
    (∀ c ∈ lexeme.plain, isBlank c = false) ∧ lexeme.plain.head? ≠ some '(' := by
  have named : ∀ {name : List Char}, isColumnName name = true → '(' ∉ name :=
    fun named inside => absurd (isNamePart_of_isColumnName named _ inside) (by decide)
  constructor
  · intro c inside
    have solid := isSolid_of_isSymbol (lexeme.isSymbol_of_plain c inside)
    simp only [isSolid, Bool.and_eq_true, Bool.not_eq_true'] at solid
    exact solid.1.1.1
  · cases lexeme with
    | identifier name free => exact head?_ne_of_not_mem (named name.wellFormed)
    | reserved word listed =>
        exact head?_ne_of_not_mem (named (isColumnName_of_reserved word listed))
    | integer digits nonempty decimal =>
        exact head?_ne_of_not_mem fun inside => absurd (decimal _ inside) (by decide)
    | operator symbols nonempty listed =>
        exact head?_ne_of_not_mem fun inside => absurd (listed _ inside) (by decide)
    | function name =>
        obtain ⟨name, wellFormed⟩ := name
        cases name with
        | nil => contradiction
        | cons c rest =>
            exact fun first =>
              named wellFormed (List.mem_cons.2 (.inl (Option.some.inj first).symm))
    | comma => simp [plain, chars]
    | closing => simp [plain, chars]
    | backticked name => simp [plain]
    | quoted literal => simp [plain]

theorem toList_spaced (lexemes : List Lexeme) :
    (spaced lexemes).toList = [' '].intercalate (lexemes.map Lexeme.chars) := by
  rw [spaced, String.toList_intercalate, List.map_map]
  exact congrArg _ (List.map_congr_left fun lexeme _ => String.toList_ofList)

/-- Contained literals disappear and leave the blanks around them. -/
theorem unquoted_spaced {lexemes : List Lexeme}
    (contained : ∀ lexeme ∈ lexemes, lexeme.Contained) :
    unquoted (spaced lexemes).toList = [' '].intercalate (lexemes.map Lexeme.bare) := by
  rw [toList_spaced, unquoted_intercalate, List.map_map]
  · refine congrArg _ (List.map_congr_left fun lexeme inside => ?_)
    exact (contained lexeme inside).unquotes.whole
  · rw [List.forall_mem_map]
    exact fun lexeme inside => ⟨_, (contained lexeme inside).unquotes⟩

/-- The words that are no names of functions and not reserved are the identifiers. -/
theorem wordNames_spaced (lexemes : List Lexeme) :
    (wordNames (.outside false) (dropFunctions (.outside false)
      (dropBlanksBeforeParentheses [] ([' '].intercalate (lexemes.map Lexeme.plain))))).filter
        (!reservedWords.contains ·) = lexemes.filterMap Lexeme.identifier? := by
  have solid : ∀ text ∈ lexemes.map Lexeme.plain,
      (∀ c ∈ text, isBlank c = false) ∧ text.head? ≠ some '(' :=
    List.forall_mem_map.2 fun lexeme _ => lexeme.solid_plain
  rw [dropBlanksBeforeParentheses_intercalate solid, List.reverse_nil, List.nil_append,
    dropFunctions_intercalate, wordNames_intercalate, List.map_map, List.flatMap_map,
    List.filter_flatMap, List.filterMap_eq_flatMap_toList]
  refine List.flatMap_congr fun lexeme _ => ?_
  rw [Function.comp, lexeme.dropFunctions_plain, lexeme.wordNames_nameless, lexeme.filter_words]

/-- A condition of lexemes whose literals are contained mentions exactly its columns. -/
theorem mentionedColumns_spaced {lexemes : List Lexeme}
    (contained : ∀ lexeme ∈ lexemes, lexeme.Contained) :
    (mentionedColumns (spaced lexemes)).toList = lexedColumns lexemes := by
  have pieces : backtickPieces none (unquoted (spaced lexemes).toList) =
      [Piece.plain ' '].intercalate (lexemes.map Lexeme.pieces) := by
    rw [unquoted_spaced contained, backtickPieces_intercalate, List.map_map]
    exact congrArg _ (List.map_congr_left fun lexeme _ => lexeme.backtickPieces_bare)
  have quoted : (backtickPieces none (unquoted (spaced lexemes).toList)).filterMap Piece.name? =
      lexemes.filterMap Lexeme.backticked? := by
    rw [pieces, filterMap_intercalate, List.map_map, List.filterMap_eq_flatMap_toList _ lexemes]
    show List.intercalate [] _ = _
    rw [intercalate_nil_left, List.flatMap_def]
    exact congrArg _ (List.map_congr_left fun lexeme _ => lexeme.name?_pieces)
  have plain : (backtickPieces none (unquoted (spaced lexemes).toList)).filterMap Piece.plain? =
      [' '].intercalate (lexemes.map Lexeme.plain) := by
    rw [pieces, filterMap_intercalate, List.map_map]
    exact congrArg _ (List.map_congr_left fun lexeme _ => lexeme.plain?_pieces)
  rw [lexedColumns, ← quoted, ← wordNames_spaced, ← plain, ← NameSet.toList_ofList]
  rfl

section Leaking

variable {literal : QuotedLiteral}

/-- The literal that holds a single letter. -/
def letterLiteral (mark : QuoteMark) : QuotedLiteral :=
  ⟨mark, [.plain 'b' (by cases mark <;> decide)]⟩

theorem contained_letterLiteral (mark : QuoteMark) : (letterLiteral mark).Contained where
  closed := by simp [letterLiteral]
  paired := by
    rintro rfl
    decide

/-- A name and the literal of a letter, each behind a blank. -/
def nameAndLetter (name : ColumnName) (mark : QuoteMark) : List Char :=
  ' ' :: name.chars ++ ' ' :: (letterLiteral mark).chars

theorem nameAndLetter_eq_append (name : ColumnName) (mark : QuoteMark) :
    nameAndLetter name mark = (' ' :: name.chars ++ [' ']) ++ mark.char :: ['b', mark.char] := by
  simp [nameAndLetter, letterLiteral, QuotedLiteral.chars, QuotedLiteral.content,
    LiteralPart.chars]

theorem quote_not_mem_beforeLetter (name : ColumnName) (mark : QuoteMark) :
    mark.char ∉ ' ' :: name.chars ++ [' '] := by
  obtain ⟨_, single, double⟩ := not_mem_of_isSolid fun c inside =>
    isSolid_of_isSymbol (name.isSymbol c inside)
  cases mark
  · simpa [QuoteMark.char] using single
  · simpa [QuoteMark.char] using double

theorem backslash_not_mem_nameAndLetter (name : ColumnName) (mark : QuoteMark) :
    '\\' ∉ nameAndLetter name mark := by
  obtain ⟨escape, _, _⟩ := not_mem_of_isSolid fun c inside =>
    isSolid_of_isSymbol (name.isSymbol c inside)
  rw [nameAndLetter_eq_append]
  cases mark <;> simpa [QuoteMark.char] using escape

/-- An escaped backslash at the end takes the closing mark with it. -/
theorem QuotedLiteral.dropEscapedQuotes_of_open
    (ends : literal.parts.getLast? = some .backslash) :
    ∃ inner, literal.mark.char ∉ inner ∧ ∀ name : ColumnName,
      dropEscapedQuotes (literal.chars ++ nameAndLetter name literal.mark) =
        literal.mark.char :: (inner ++ nameAndLetter name literal.mark) := by
  have free := literal.mark_not_mem
  obtain ⟨mark, parts⟩ := literal
  change parts.getLast? = some (.backslash : LiteralPart mark) at ends
  obtain ⟨front, rfl⟩ := List.getLast?_eq_some_iff.1 ends
  have content' : content ⟨mark, front ++ [.backslash]⟩ =
      front.flatMap LiteralPart.chars ++ ['\\'] ++ ['\\'] := by
    simp [content, LiteralPart.chars]
  refine ⟨dropEscapedQuotes (front.flatMap LiteralPart.chars ++ ['\\']), ?_, fun name => ?_⟩
  · rw [content', dropEscapedQuotes_append fun _ => by simp] at free
    exact fun left => free (List.mem_append_left _ left)
  · have whole : chars ⟨mark, front ++ [.backslash]⟩ ++ nameAndLetter name mark =
        mark.char :: ((front.flatMap LiteralPart.chars ++ ['\\']) ++
          '\\' :: mark.char :: nameAndLetter name mark) := by
      simp [chars, content']
    rw [whole, dropEscapedQuotes_cons fun escape => absurd escape mark.char_ne_backslash,
      dropEscapedQuotes_append fun _ => by simp, dropEscapedQuotes_mark,
      dropEscapedQuotes_fixed (backslash_not_mem_nameAndLetter name mark)]

/-- A literal that hides its own end hides the name behind it. -/
theorem QuotedLiteral.unquoted_of_open (ends : literal.parts.getLast? = some .backslash)
    (name : ColumnName) :
    unquoted (literal.chars ++ nameAndLetter name literal.mark) = ['b', literal.mark.char] := by
  obtain ⟨inner, apart, escaped⟩ := dropEscapedQuotes_of_open ends
  rw [unquoted, escaped name]
  cases kind : literal.mark with
  | single =>
      rw [kind] at apart
      have hidden : '\'' ∉ inner ++ (' ' :: name.chars ++ [' ']) := by
        rw [List.mem_append, not_or]
        exact ⟨apart, quote_not_mem_beforeLetter name .single⟩
      rw [nameAndLetter_eq_append, ← List.append_assoc]
      exact congrArg _ (dropQuoted_opened hidden _)
  | double =>
      rw [kind] at apart
      have hidden : '"' ∉ dropQuoted '\'' none inner ++ (' ' :: name.chars ++ [' ']) := by
        rw [List.mem_append, not_or]
        refine ⟨fun left => ?_, quote_not_mem_beforeLetter name .double⟩
        exact (mem_of_dropQuoted left).elim (absurd · List.not_mem_nil) apart
      have letter : '\'' ∉ nameAndLetter name .double := by
        rw [nameAndLetter_eq_append, List.mem_append, not_or]
        exact ⟨quote_not_mem_beforeLetter name .single, by decide⟩
      have kept : dropQuoted '\'' none ('"' :: (inner ++ nameAndLetter name .double)) =
          '"' :: (dropQuoted '\'' none inner ++ nameAndLetter name .double) := by
        rw [dropQuoted_outside (by decide), dropQuoted_append_fixed letter]
      rw [QuoteMark.char, kept, nameAndLetter_eq_append, ← List.append_assoc]
      exact dropQuoted_opened hidden _

/-- A literal with an apostrophe too many hides the name behind it. -/
theorem QuotedLiteral.unquoted_of_odd (closed : literal.parts.getLast? ≠ some .backslash)
    (double : literal.mark = .double) (odd : ¬ Even (looseApostrophes literal.content))
    (name : ColumnName) :
    unquoted (literal.chars ++ nameAndLetter name .single) =
      dropQuoted '"' none (dropQuoted '\'' none ('"' :: dropEscapedQuotes literal.content ++ ['\''])
        ++ ['b', '\'']) := by
  have kept := dropEscapedQuotes_chars closed
  rw [double] at kept
  rw [← count_dropEscapedQuotes] at odd
  have last : literal.chars.getLast? = some '"' := by
    rw [chars, List.getLast?_concat, double]
    rfl
  have escaped : dropEscapedQuotes (literal.chars ++ nameAndLetter name .single) =
      ('"' :: dropEscapedQuotes literal.content) ++
        (('"' :: (' ' :: name.chars ++ [' '])) ++ '\'' :: ['b', '\'']) := by
    rw [dropEscapedQuotes_append fun same => absurd (last.symm.trans same) (by decide), kept,
      dropEscapedQuotes_fixed (backslash_not_mem_nameAndLetter name .single),
      nameAndLetter_eq_append]
    simp [QuoteMark.char]
  have free : '\'' ∉ '"' :: (' ' :: name.chars ++ [' ']) := by
    rw [List.mem_cons, not_or]
    exact ⟨by decide, quote_not_mem_beforeLetter name .single⟩
  rw [unquoted, escaped, dropQuoted_append_of_open (by simpa using odd) free]
  rfl

/-- A literal that is not contained makes the condition mention the same columns whatever name
stands behind it. -/
theorem QuotedLiteral.exists_unquoted_of_not_contained (leaks : ¬ literal.Contained) :
    ∃ mark left, ∀ name : ColumnName,
      unquoted (literal.chars ++ nameAndLetter name mark) = left := by
  by_cases closed : literal.parts.getLast? = some .backslash
  · exact ⟨_, _, unquoted_of_open closed⟩
  by_cases double : literal.mark = .double
  · by_cases even : Even (looseApostrophes literal.content)
    · exact absurd ⟨closed, fun _ => even⟩ leaks
    · exact ⟨_, _, unquoted_of_odd closed double even⟩
  · exact absurd ⟨closed, fun same => absurd same double⟩ leaks

end Leaking

/-- A name and the literal of a letter. -/
def letterLexemes (name : ColumnName) (free : name.text ∉ reservedWords) (mark : QuoteMark) :
    List Lexeme :=
  [.identifier name free, .quoted (letterLiteral mark)]

theorem toList_spaced_letters (literal : QuotedLiteral) (name : ColumnName)
    (free : name.text ∉ reservedWords) (mark : QuoteMark) :
    (spaced (.quoted literal :: letterLexemes name free mark)).toList =
      literal.chars ++ nameAndLetter name mark := by
  rw [toList_spaced]
  simp [letterLexemes, Lexeme.chars, nameAndLetter, List.intercalate_cons_cons]

theorem mentionedColumns_congr {first second : String}
    (same : unquoted first.toList = unquoted second.toList) :
    mentionedColumns first = mentionedColumns second := by
  rw [mentionedColumns, mentionedColumns, same]

/-- Behind a literal that is not contained a condition can miss a column. -/
theorem QuotedLiteral.exists_missed_of_not_contained {literal : QuotedLiteral}
    (leaks : ¬ literal.Contained) :
    ∃ lexemes : List Lexeme, (∀ lexeme ∈ lexemes, lexeme.Contained) ∧
      (mentionedColumns (spaced (.quoted literal :: lexemes))).toList ≠
        lexedColumns (.quoted literal :: lexemes) := by
  obtain ⟨mark, left, hidden⟩ := exists_unquoted_of_not_contained leaks
  have columns : ∀ name free,
      lexedColumns (.quoted literal :: letterLexemes name free mark) = [name.text] :=
    fun _ _ => rfl
  have contained : ∀ name free, ∀ lexeme ∈ letterLexemes name free mark, lexeme.Contained := by
    intro name free
    simp only [letterLexemes, List.forall_mem_cons]
    exact ⟨trivial, contained_letterLiteral mark, nofun⟩
  have same : ∀ first free second other,
      mentionedColumns (spaced (.quoted literal :: letterLexemes first free mark)) =
        mentionedColumns (spaced (.quoted literal :: letterLexemes second other mark)) := by
    intro first free second other
    apply mentionedColumns_congr
    rw [toList_spaced_letters, toList_spaced_letters, hidden, hidden]
  by_cases found : (mentionedColumns (spaced
      (.quoted literal :: letterLexemes ⟨['a'], rfl⟩ (by decide) mark))).toList = ["a"]
  · refine ⟨letterLexemes ⟨['c'], rfl⟩ (by decide) mark, contained _ _, ?_⟩
    rw [columns, same _ _ ⟨['a'], rfl⟩ (by decide), found]
    decide
  · refine ⟨letterLexemes ⟨['a'], rfl⟩ (by decide) mark, contained _ _, ?_⟩
    rw [columns]
    exact found

/-- All lexemes of a condition are contained exactly when every condition that is made of them,
and of contained ones besides, mentions its columns and nothing else. -/
theorem mentionedColumns_exact_iff (lexemes : List Lexeme) :
    (∀ lexeme ∈ lexemes, lexeme.Contained) ↔
      ∀ chosen : List Lexeme, (∀ lexeme ∈ chosen, lexeme ∈ lexemes ∨ lexeme.Contained) →
        (mentionedColumns (spaced chosen)).toList = lexedColumns chosen := by
  constructor
  · intro contained chosen given
    exact mentionedColumns_spaced fun lexeme inside =>
      (given lexeme inside).elim (contained lexeme) id
  · intro exact' lexeme inside
    cases lexeme with
    | quoted literal =>
        by_contra leaks
        obtain ⟨others, contained, missed⟩ := literal.exists_missed_of_not_contained leaks
        refine missed (exact' _ ?_)
        rw [List.forall_mem_cons]
        exact ⟨.inl inside, fun other listed => .inr (contained other listed)⟩
    | _ => trivial

def noteName : ColumnName := ⟨['n', 'o', 't', 'e'], by decide⟩

/-- A literal with words, an escaped mark, a backslash and the other mark inside. -/
def noteLiteral : QuotedLiteral where
  mark := .single
  parts := [.plain 'b' (by decide), .mark, .backslash, .plain '"' (by decide),
    .plain ' ' (by decide), .plain 'x' (by decide)]

def noteCondition : List Lexeme :=
  [.function ⟨['u', 'p'], by decide⟩, .identifier noteName (by decide), .closing,
    .operator ['='] (by decide) (by simp [operatorSymbols]), .quoted noteLiteral,
    .reserved "and" (by decide), .backticked ⟨['y', 'e', 'a', 'r'], by decide⟩,
    .operator ['>', '='] (by decide) (by simp [operatorSymbols]),
    .integer ['2', '0'] (by decide) (by simp)]

/-- A function, a reserved word, a literal and a number are skipped. -/
theorem mentionedColumns_exact_iff_of_note :
    (∀ lexeme ∈ noteCondition, lexeme.Contained) ∧
    spaced noteCondition = "up( note ) = 'b\\'\\\\\" x' and `year` >= 20" ∧
    (mentionedColumns (spaced noteCondition)).toList = ["year", "note"] := by
  have contained : ∀ lexeme ∈ noteCondition, lexeme.Contained := by
    simp only [noteCondition, List.forall_mem_cons]
    refine ⟨trivial, trivial, trivial, trivial, ⟨by decide, nofun⟩, trivial, trivial, trivial,
      trivial, nofun⟩
  refine ⟨contained, by decide, ?_⟩
  rw [(mentionedColumns_exact_iff noteCondition).1 contained noteCondition fun _ => .inl]
  decide

/-- The content is a letter and an escaped backslash. -/
def backslashLiteral : QuotedLiteral := ⟨.single, [.plain 'a' (by decide), .backslash]⟩

def backslashCondition : List Lexeme :=
  [.identifier noteName (by decide), .operator ['='] (by decide) (by simp [operatorSymbols]),
    .quoted backslashLiteral, .reserved "and" (by decide),
    .identifier ⟨['x'], by decide⟩ (by decide),
    .operator ['='] (by decide) (by simp [operatorSymbols]), .quoted (letterLiteral .single)]

/-- A literal that ends in an escaped backslash hides a column and shows its own words. -/
theorem mentionedColumns_misses_column :
    spaced backslashCondition = "note = 'a\\\\' and x = 'b'" ∧
    lexedColumns backslashCondition = ["note", "x"] ∧
    (mentionedColumns (spaced backslashCondition)).toList = ["note", "b"] := by
  refine ⟨by decide, by decide, by decide +kernel⟩

end QueryAlgebra
