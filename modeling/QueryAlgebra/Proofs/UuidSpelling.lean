/-
This file shows that a UUID attribute is compared by value. Each spelling of a UUID gives the
literal of its 128 bits, other values have another literal, and everything else is refused. All
that is asked of the reader is that it reads the four spellings and no other text.
-/
import Mathlib.Data.List.Forall2
import Mathlib.Data.Nat.Digits.Lemmas
import Mathlib.Tactic.IntervalCases
import QueryAlgebra.Comparison

namespace QueryAlgebra

/-- A hexadecimal digit of either case stands for a number below sixteen. -/
def IsHexDigit (letter : Char) (digit : Nat) : Prop :=
  digit < 16 ∧ (letter = Nat.digitChar digit ∨ letter = (Nat.digitChar digit).toUpper)

instance (letter : Char) (digit : Nat) : Decidable (IsHexDigit letter digit) :=
  inferInstanceAs (Decidable (_ ∧ _))

/-- The letters are 32 digits, the most significant first, of the number that the UUID is. -/
def Uuid.HasDigits (uuid : Uuid) (letters : List Char) : Prop :=
  ∃ digits, List.Forall₂ IsHexDigit letters digits ∧ digits.length = 32 ∧
    Nat.ofDigits 16 digits.reverse = uuid.value.toNat

/-- A UUID is spelled by its digits alone, by groups of them, by groups in braces or as a URN. -/
inductive Uuid.Spells (uuid : Uuid) : List Char → Prop
  | simple {letters : List Char} (written : uuid.HasDigits letters) : uuid.Spells letters
  | grouped {letters : List Char} (written : uuid.HasDigits letters) :
      uuid.Spells (hyphenated letters)
  | braced {letters : List Char} (written : uuid.HasDigits letters) :
      uuid.Spells (Char.ofNat 0x7b :: hyphenated letters ++ [Char.ofNat 0x7d])
  | urn {letters : List Char} (written : uuid.HasDigits letters) :
      uuid.Spells ("urn:uuid:".toList ++ hyphenated letters)

/-- The reader finds the UUID of every spelling, and none in another text. -/
def UuidReader.ReadsSpellings (read : UuidReader) : Prop :=
  ∀ (uuid : Uuid) (text : List Char), read text = some uuid ↔ uuid.Spells text

/-- White space can stand around a spelling. -/
def Uuid.Written (uuid : Uuid) (text : String) : Prop :=
  ∃ before spelling after, text.toList = before ++ spelling ++ after ∧ uuid.Spells spelling ∧
    (∀ c ∈ before, isBlank c = true) ∧ ∀ c ∈ after, isBlank c = true

section Digits

variable {uuid : Uuid} {letters : List Char} {digits : List Nat}

theorem hexValue?_eq_some {letter : Char} {digit : Nat} :
    hexValue? letter = some digit ↔ IsHexDigit letter digit := by
  constructor
  · intro read
    have numeral : ∀ code < 58, 48 ≤ code → IsHexDigit (Char.ofNat code) (code - 48) := by
      decide
    have small : ∀ code < 103, 97 ≤ code → IsHexDigit (Char.ofNat code) (code - 97 + 10) := by
      decide
    have capital : ∀ code < 71, 65 ≤ code → IsHexDigit (Char.ofNat code) (code - 65 + 10) := by
      decide
    rw [← Char.ofNat_toNat letter]
    unfold hexValue? at read
    split at read
    · next bounds =>
        exact Option.some.inj read ▸ numeral _ (Nat.lt_succ_of_le bounds.2) bounds.1
    split at read
    · next bounds =>
        exact Option.some.inj read ▸ small _ (Nat.lt_succ_of_le bounds.2) bounds.1
    split at read
    · next bounds =>
        exact Option.some.inj read ▸ capital _ (Nat.lt_succ_of_le bounds.2) bounds.1
    · cases read
  · rintro ⟨small, either⟩
    interval_cases digit <;> rcases either with rfl | rfl <;> decide

theorem mapM_hexValue? :
    letters.mapM hexValue? = some digits ↔ List.Forall₂ IsHexDigit letters digits := by
  induction letters generalizing digits with
  | nil =>
      rw [List.mapM_nil, List.forall₂_nil_left_iff]
      exact ⟨fun same => (Option.some.inj same).symm, fun same => congrArg some same.symm⟩
  | cons letter rest ih =>
      rw [List.mapM_cons, List.forall₂_cons_left_iff]
      simp only [Option.bind_eq_bind, Option.bind_eq_some_iff, hexValue?_eq_some, ih,
        Option.pure_def, Option.some.injEq]
      constructor
      · rintro ⟨digit, read, others, tail, rfl⟩
        exact ⟨digit, others, read, tail, rfl⟩
      · rintro ⟨digit, others, read, tail, rfl⟩
        exact ⟨digit, read, others, tail, rfl⟩

theorem foldl_digits (digits : List Nat) :
    digits.foldl (fun value digit => 16 * value + digit) 0 = Nat.ofDigits 16 digits.reverse := by
  rw [Nat.ofDigits_eq_foldr, List.foldr_reverse]
  congr 1
  funext value digit
  exact Nat.add_comm _ _

theorem ofDigits_lt (each : List.Forall₂ IsHexDigit letters digits) (length : digits.length = 32) :
    Nat.ofDigits 16 digits.reverse < 2 ^ 128 := by
  have small : ∀ digit ∈ digits, digit < 16 :=
    ((List.forall₂_and_left (R := fun digit letter =>
      letter = Nat.digitChar digit ∨ letter = (Nat.digitChar digit).toUpper) _ _).1 each.flip).1
  have bound := Nat.ofDigits_lt_base_pow_length (by decide : 1 < 16)
    fun digit inside => small digit (List.mem_reverse.1 inside)
  rw [List.length_reverse, length] at bound
  exact bound

theorem Uuid.HasDigits.length_eq (written : uuid.HasDigits letters) : letters.length = 32 := by
  obtain ⟨digits, each, length, _⟩ := written
  exact each.length_eq.trans length

/-- The same digits do not stand for two values. -/
theorem Uuid.HasDigits.unique {other : Uuid} (written : uuid.HasDigits letters)
    (written' : other.HasDigits letters) : uuid = other := by
  obtain ⟨digits, each, _, value⟩ := written
  obtain ⟨digits', each', _, value'⟩ := written'
  rw [← mapM_hexValue?] at each each'
  have same : digits = digits' := Option.some.inj (each.symm.trans each')
  obtain ⟨bits⟩ := uuid
  obtain ⟨bits'⟩ := other
  exact congrArg Uuid.mk (BitVec.eq_of_toNat_eq (value.symm.trans (same ▸ value')))

theorem ofDigits_places (value count : Nat) :
    Nat.ofDigits 16 ((List.range count).map fun place => value / 16 ^ place % 16) =
      value % 16 ^ count := by
  induction count with
  | zero => rw [pow_zero, Nat.mod_one]; rfl
  | succ count ih =>
      rw [List.range_succ, List.map_append, List.map_singleton, Nat.ofDigits_append,
        Nat.ofDigits_singleton, ih, List.length_map, List.length_range, Nat.mod_pow_succ]

theorem Uuid.hasDigits_hexDigits (uuid : Uuid) : uuid.HasDigits uuid.hexDigits := by
  refine ⟨(List.range 32).map fun index => uuid.value.toNat / 16 ^ (31 - index) % 16, ?_, ?_, ?_⟩
  · rw [hexDigits, List.forall₂_map_left_iff, List.forall₂_map_right_iff, List.forall₂_same]
    exact fun index _ => ⟨Nat.mod_lt _ (by decide), .inl rfl⟩
  · rw [List.length_map, List.length_range]
  · have reversed : ((List.range 32).map fun index =>
        uuid.value.toNat / 16 ^ (31 - index) % 16).reverse =
        (List.range 32).map fun place => uuid.value.toNat / 16 ^ place % 16 := rfl
    rw [reversed, ofDigits_places]
    exact Nat.mod_eq_of_lt uuid.value.isLt

theorem Uuid.isUpper_of_mem_hexDigits {letter : Char} (inside : letter ∈ uuid.hexDigits) :
    letter.isUpper = false := by
  obtain ⟨index, _, rfl⟩ := List.mem_map.1 inside
  have small : uuid.value.toNat / Nat.pow 16 (31 - index) % 16 < 16 := Nat.mod_lt _ (by decide)
  generalize uuid.value.toNat / Nat.pow 16 (31 - index) % 16 = digit at small
  interval_cases digit <;> decide

end Digits

section Groups

variable {letters : List Char}

theorem length_hyphenated (length : letters.length = 32) : (hyphenated letters).length = 36 := by
  simp only [hyphenated, List.length_append, List.length_cons, List.length_take, List.length_drop,
    length]
  rfl

/-- What stands between the hyphens is read in order. -/
theorem groups_append {first second third fourth last : List Char} (eight : first.length = 8)
    (four : second.length = 4) (four' : third.length = 4) (four'' : fourth.length = 4) :
    let text := first ++ '-' :: second ++ '-' :: third ++ '-' :: fourth ++ '-' :: last
    text.take 8 ++ (text.drop 9).take 4 ++ (text.drop 14).take 4 ++ (text.drop 19).take 4 ++
      text.drop 24 = first ++ second ++ third ++ fourth ++ last := by
  simp [List.drop_append, List.drop_of_length_le, eight, four, four', four'']

theorem groups_hyphenated (length : letters.length = 32) :
    (hyphenated letters).take 8 ++ ((hyphenated letters).drop 9).take 4 ++
      ((hyphenated letters).drop 14).take 4 ++ ((hyphenated letters).drop 19).take 4 ++
      (hyphenated letters).drop 24 = letters := by
  have joined (place : Nat) :
      (letters.drop place).take 4 ++ letters.drop (place + 4) = letters.drop place := by
    rw [← List.drop_drop, List.take_append_drop]
  refine (groups_append ?_ ?_ ?_ ?_).trans ?_
  iterate 4 simp [length]
  simp only [List.append_assoc]
  rw [joined 16, joined 12, joined 8, List.take_append_drop]

end Groups

section Reading

variable {uuid : Uuid}

theorem Uuid.ofSimple?_eq_some {letters : List Char} :
    Uuid.ofSimple? letters = some uuid ↔ uuid.HasDigits letters := by
  constructor
  · intro read
    unfold ofSimple? at read
    split at read
    · next length =>
        obtain ⟨digits, each, built⟩ := Option.bind_eq_some_iff.1 read
        rw [mapM_hexValue?] at each
        rw [each.length_eq] at length
        refine ⟨digits, each, length, ?_⟩
        rw [← Option.some.inj built, foldl_digits, BitVec.toNat_ofNat,
          Nat.mod_eq_of_lt (ofDigits_lt each length)]
    · cases read
  · rintro ⟨digits, each, length, value⟩
    rw [ofSimple?, if_pos (each.length_eq.trans length), mapM_hexValue?.2 each]
    refine congrArg some (congrArg Uuid.mk ?_)
    rw [foldl_digits, value, BitVec.ofNat_toNat, BitVec.setWidth_eq]

theorem Uuid.ofHyphenated?_eq_some {text : List Char} :
    Uuid.ofHyphenated? text = some uuid ↔
      ∃ letters, uuid.HasDigits letters ∧ text = hyphenated letters := by
  constructor
  · intro read
    simp only [ofHyphenated?] at read
    split at read
    · next same => exact ⟨_, ofSimple?_eq_some.1 read, same⟩
    · cases read
  · rintro ⟨letters, written, rfl⟩
    rw [ofHyphenated?, groups_hyphenated written.length_eq, if_pos rfl]
    exact ofSimple?_eq_some.2 written

theorem Uuid.ofText?_of_spells {text : List Char} (spelled : uuid.Spells text) :
    Uuid.ofText? text = some uuid := by
  cases spelled with
  | simple written =>
      rw [ofText?, if_pos written.length_eq]
      exact ofSimple?_eq_some.2 written
  | grouped written =>
      have length := length_hyphenated written.length_eq
      rw [ofText?, length, if_neg (by decide), if_pos rfl]
      exact ofHyphenated?_eq_some.2 ⟨_, written, rfl⟩
  | @braced letters written =>
      have length : (Char.ofNat 0x7b :: hyphenated letters ++ [Char.ofNat 0x7d]).length = 38 := by
        rw [List.length_append, List.length_cons, length_hyphenated written.length_eq]
        rfl
      rw [ofText?, length, if_neg (by decide), if_neg (by decide),
        if_pos ⟨rfl, rfl, List.getLast?_concat⟩, List.cons_append, List.tail_cons,
        List.dropLast_concat]
      exact ofHyphenated?_eq_some.2 ⟨letters, written, rfl⟩
  | @urn letters written =>
      have nine : "urn:uuid:".toList.length = 9 := rfl
      have length : ("urn:uuid:".toList ++ hyphenated letters).length = 45 := by
        rw [List.length_append, nine, length_hyphenated written.length_eq]
      rw [ofText?, length, List.take_left' nine, List.drop_left' nine, if_neg (by decide),
        if_neg (by decide), if_neg fun braced => absurd braced.1 (by decide), if_pos ⟨rfl, rfl⟩]
      exact ofHyphenated?_eq_some.2 ⟨letters, written, rfl⟩

/-- A text is read as a UUID when it is one of its spellings, and not otherwise. -/
theorem Uuid.ofText?_eq_some {text : List Char} :
    Uuid.ofText? text = some uuid ↔ uuid.Spells text := by
  refine ⟨fun read => ?_, ofText?_of_spells⟩
  -- The length selects the only spelling that the text can be.
  unfold ofText? at read
  split at read
  · exact .simple (ofSimple?_eq_some.1 read)
  split at read
  · obtain ⟨letters, written, rfl⟩ := ofHyphenated?_eq_some.1 read
    exact .grouped written
  split at read
  · next bounds =>
      obtain ⟨length, opened, closed⟩ := bounds
      obtain ⟨letters, written, inner⟩ := ofHyphenated?_eq_some.1 read
      obtain ⟨front, rfl⟩ := List.getLast?_eq_some_iff.1 closed
      cases front with
      | nil => contradiction
      | cons first rest =>
          rw [List.cons_append, List.tail_cons, List.dropLast_concat] at inner
          rw [Option.some.inj opened, inner]
          exact .braced written
  split at read
  · next bounds =>
      obtain ⟨letters, written, inner⟩ := ofHyphenated?_eq_some.1 read
      rw [← List.take_append_drop 9 text, bounds.2, inner]
      exact .urn written
  · cases read

theorem UuidReader.readsSpellings_ofText? : ReadsSpellings Uuid.ofText? :=
  fun _ _ => Uuid.ofText?_eq_some

/-- The digits keep their values in small letters. -/
theorem Uuid.HasDigits.toLower {letters : List Char} (written : uuid.HasDigits letters) :
    uuid.HasDigits (letters.map Char.toLower) := by
  obtain ⟨digits, each, length, value⟩ := written
  refine ⟨digits, ?_, length, value⟩
  rw [List.forall₂_map_left_iff]
  refine each.imp fun letter digit ⟨small, either⟩ => ?_
  interval_cases digit <;> rcases either with rfl | rfl <;> decide

theorem map_hyphenated {letters : List Char} :
    (hyphenated letters).map Char.toLower = hyphenated (letters.map Char.toLower) := by
  simp only [hyphenated, List.map_append, List.map_cons, List.map_take, List.map_drop]
  rfl

theorem Uuid.Spells.toLower {text : List Char} (spelled : uuid.Spells text) :
    uuid.Spells (text.map Char.toLower) := by
  cases spelled with
  | simple written => exact .simple written.toLower
  | grouped written =>
      rw [map_hyphenated]
      exact .grouped written.toLower
  | braced written =>
      rw [List.map_append, List.map_cons, map_hyphenated]
      exact .braced written.toLower
  | urn written =>
      rw [List.map_append, map_hyphenated]
      exact .urn written.toLower

/-- The reader that takes every scheme in either case reads each spelling too. -/
theorem Uuid.ofTextInAnyCase?_of_spells {text : List Char} (spelled : uuid.Spells text) :
    Uuid.ofTextInAnyCase? text = some uuid :=
  ofText?_of_spells spelled.toLower

end Reading

section Blanks

variable {uuid : Uuid} {letters : List Char}

theorem IsHexDigit.visible {letter : Char} {digit : Nat} (read : IsHexDigit letter digit) :
    isBlank letter = false := by
  obtain ⟨small, either⟩ := read
  interval_cases digit <;> rcases either with rfl | rfl <;> decide

theorem Uuid.HasDigits.visible (written : uuid.HasDigits letters) :
    ∀ letter ∈ letters, isBlank letter = false := by
  obtain ⟨digits, each, -, -⟩ := written
  induction each with
  | nil => simp
  | cons read _ ih => exact List.forall_mem_cons.2 ⟨read.visible, ih⟩

theorem mem_hyphenated {c : Char} (inside : c ∈ hyphenated letters) : c ∈ letters ∨ c = '-' := by
  simp only [hyphenated, List.mem_append, List.mem_cons] at inside
  have taken {count place : Nat} (within : c ∈ (letters.drop place).take count) : c ∈ letters :=
    List.mem_of_mem_drop (List.mem_of_mem_take within)
  rcases inside with (((first | hyphen | second) | hyphen | third) | hyphen | fourth) |
    hyphen | last
  · exact .inl (List.mem_of_mem_take first)
  · exact .inr hyphen
  · exact .inl (taken second)
  · exact .inr hyphen
  · exact .inl (taken third)
  · exact .inr hyphen
  · exact .inl (taken fourth)
  · exact .inr hyphen
  · exact .inl (List.mem_of_mem_drop last)

theorem Uuid.HasDigits.visible_hyphenated (written : uuid.HasDigits letters) :
    ∀ c ∈ hyphenated letters, isBlank c = false := by
  intro c inside
  rcases mem_hyphenated inside with within | rfl
  · exact written.visible c within
  · decide

/-- No white space is inside a spelling. -/
theorem Uuid.Spells.visible {text : List Char} (spelled : uuid.Spells text) :
    ∀ c ∈ text, isBlank c = false := by
  cases spelled with
  | simple written => exact written.visible
  | grouped written => exact written.visible_hyphenated
  | braced written =>
      intro c inside
      rcases List.mem_append.1 inside with inside | closed
      · rcases List.mem_cons.1 inside with rfl | within
        · decide
        · exact written.visible_hyphenated c within
      · rw [List.mem_singleton.1 closed]
        decide
  | urn written =>
      have scheme : "urn:uuid:".toList.all (fun c => !isBlank c) = true := by decide
      refine List.forall_mem_append.2 ⟨fun c inside => ?_, written.visible_hyphenated⟩
      simpa using List.all_eq_true.1 scheme c inside

/-- What is left of a text without the white space around it is a spelling when the text writes
a UUID, and not otherwise. -/
theorem Uuid.spells_trimBlanks {text : String} :
    uuid.Spells (trimBlanks text.toList) ↔ uuid.Written text := by
  constructor
  · intro spelled
    obtain ⟨before, after, whole, blank, blank'⟩ := exists_append_trimBlanks text.toList
    exact ⟨before, _, after, whole, spelled, blank, blank'⟩
  · rintro ⟨before, spelling, after, whole, spelled, blank, blank'⟩
    rw [whole, trimBlanks_append blank blank', trimBlanks_of_dark spelled.visible]
    exact spelled

theorem UuidReader.ReadsSpellings.trimBlanks {read : UuidReader} (reads : read.ReadsSpellings)
    {text : String} : read (QueryAlgebra.trimBlanks text.toList) = some uuid ↔ uuid.Written text :=
  (reads uuid _).trans Uuid.spells_trimBlanks

end Blanks

/-- A UUID attribute is compared with values and not with texts. -/
structure Heading.ComparesUuids (heading : Heading) (read : UuidReader) (key : String)
    (attr : Attribute) : Prop where
  /-- The literal of a value has its 32 digits, none of them a capital letter. -/
  literal : ∀ uuid : Uuid, ∃ comparison letters,
    heading.compare? key (.uuid uuid) read = .ok comparison ∧
      comparison.text = "`" ++ attr.name ++ "`=X'" ++ String.ofList letters ++ "'" ∧
      uuid.HasDigits letters ∧ ∀ letter ∈ letters, letter.isUpper = false
  /-- A text that writes a value is compared like the value. -/
  spelled : ∀ (uuid : Uuid) (text : String), uuid.Written text →
    heading.compare? key (.string text) read = heading.compare? key (.uuid uuid) read
  /-- Comparisons with different values have different texts. -/
  faithful : ∀ (uuid other : Uuid) (comparison comparison' : Comparison),
    heading.compare? key (.uuid uuid) read = .ok comparison →
      heading.compare? key (.uuid other) read = .ok comparison' →
      comparison.text = comparison'.text → uuid = other
  /-- A text that writes no value is refused, and the fault holds it as it was given. -/
  misspelled : ∀ text : String, (∀ uuid : Uuid, ¬ uuid.Written text) →
    heading.compare? key (.string text) read = .error (.uuid attr.name text)
  /-- A value of another kind is refused by its text. -/
  foreign : ∀ value : Literal, value.isNull = false → (∀ text, value ≠ .string text) →
    (∀ uuid, value ≠ .uuid uuid) →
    heading.compare? key value read = .error (.uuid attr.name value.text)
  /-- An infinity counts as null, since it has no SQL spelling. -/
  absent : ∀ value : Literal, value.isNull = true → ∃ comparison,
    heading.compare? key value read = .ok comparison ∧
      comparison.text = "`" ++ attr.name ++ "` IS NULL"

section Compared

variable {heading : Heading} {key : String} {attr : Attribute} {uuid : Uuid} {read : UuidReader}

theorem Uuid.hexText_injective {other : Uuid} (same : uuid.hexText = other.hexText) :
    uuid = other := by
  have digits : uuid.hexDigits = other.hexDigits := String.ofList_injective same
  exact uuid.hasDigits_hexDigits.unique (digits ▸ other.hasDigits_hexDigits)

theorem Comparison.text_bytes (name : String) (uuid : Uuid) :
    Comparison.text ⟨.column name, .bytes uuid⟩ = "`" ++ name ++ "`=X'" ++ uuid.hexText ++ "'" := by
  simp only [Comparison.text, Operand.text, quoteName, Comparand.text, String.append_assoc]
  rfl

theorem Comparison.text_absent (name : String) :
    Comparison.text ⟨.column name, .absent⟩ = "`" ++ name ++ "` IS NULL" := by
  simp only [Comparison.text, Operand.text, quoteName, Comparand.text, String.append_assoc]
  rfl

theorem Attribute.uuidComparand?_of_read {text : String}
    (found : read (trimBlanks text.toList) = some uuid) :
    attr.uuidComparand? (.string text) read = .ok (.bytes uuid) := by
  simp only [uuidComparand?, found]

theorem Attribute.uuidComparand?_of_unread {text : String}
    (missing : read (trimBlanks text.toList) = none) :
    attr.uuidComparand? (.string text) read = .error (.uuid attr.name text) := by
  simp only [uuidComparand?, missing]

theorem Attribute.uuidComparand?_of_foreign {value : Literal}
    (text : ∀ text, value ≠ .string text) (uuid : ∀ uuid, value ≠ .uuid uuid) :
    attr.uuidComparand? value read = .error (.uuid attr.name value.text) := by
  unfold uuidComparand?
  split
  · exact absurd rfl (uuid _)
  · exact absurd rfl (text _)
  · rfl

/-- A value that is not null goes to the comparison of UUIDs. -/
theorem Heading.compare?_uuid (found : heading.get? (splitPath key).1 = some attr)
    (typed : attr.domain = .uuid) (whole : (splitPath key).2 = none) (value : Literal)
    (read : UuidReader) :
    heading.compare? key value read =
      if value.isNull then .ok ⟨.column attr.name, .absent⟩
      else (attr.uuidComparand? value read).map (Comparison.mk (.column attr.name)) := by
  simp only [compare?, found, whole, Attribute.operand?, Attribute.comparand?, typed, if_true,
    Option.isSome_none, Bool.false_and, Bool.false_eq_true, if_false]
  cases value.isNull with
  | true => rfl
  | false => rfl

/-- A UUID has no places inside it. -/
theorem Heading.compare?_uuid_path (found : heading.get? (splitPath key).1 = some attr)
    (typed : attr.domain = .uuid) {path : String} (inside : (splitPath key).2 = some path)
    (value : Literal) :
    heading.compare? key value read = .error (.restriction (.notDocument attr.name)) := by
  simp only [compare?, found, inside, Attribute.operand?, typed, reduceCtorEq, if_false]
  rfl

/-- A text in which the reader finds a UUID is compared like the UUID. -/
theorem Heading.compare?_of_read (found : heading.get? (splitPath key).1 = some attr)
    (typed : attr.domain = .uuid) (whole : (splitPath key).2 = none) {text : String}
    (known : read (trimBlanks text.toList) = some uuid) :
    heading.compare? key (.string text) read = heading.compare? key (.uuid uuid) read := by
  rw [compare?_uuid found typed whole, compare?_uuid found typed whole,
    Attribute.uuidComparand?_of_read known]
  rfl

/-- Schemes in either case take no spelling away. -/
theorem Heading.compare?_of_written (found : heading.get? (splitPath key).1 = some attr)
    (typed : attr.domain = .uuid) (whole : (splitPath key).2 = none) {text : String}
    (written : uuid.Written text) :
    heading.compare? key (.string text) = heading.compare? key (.uuid uuid) :=
  compare?_of_read found typed whole
    (Uuid.ofTextInAnyCase?_of_spells (Uuid.spells_trimBlanks.2 written))

/-- A key that names a UUID attribute compares it with values, whatever their spelling. A key that
asks for a place inside the attribute is refused. -/
theorem Heading.uuid_equality (reads : read.ReadsSpellings)
    (found : heading.get? (splitPath key).1 = some attr) (typed : attr.domain = .uuid) :
    ((splitPath key).2 = none → heading.ComparesUuids read key attr) ∧
      ∀ path, (splitPath key).2 = some path → ∀ value,
        heading.compare? key value read = .error (.restriction (.notDocument attr.name)) := by
  refine ⟨fun whole => ?_, fun path inside => compare?_uuid_path found typed inside⟩
  have compared (value : Literal) := compare?_uuid found typed whole value read
  have value (uuid : Uuid) :
      heading.compare? key (.uuid uuid) read = .ok ⟨.column attr.name, .bytes uuid⟩ :=
    compared (.uuid uuid)
  constructor
  case literal =>
    intro uuid
    exact ⟨_, uuid.hexDigits, value uuid, Comparison.text_bytes attr.name uuid,
      uuid.hasDigits_hexDigits, fun _ => uuid.isUpper_of_mem_hexDigits⟩
  case spelled =>
    intro uuid text written
    exact compare?_of_read found typed whole (reads.trimBlanks.2 written)
  case faithful =>
    intro uuid other comparison comparison' made made' same
    obtain rfl := Except.ok.inj ((value uuid).symm.trans made)
    obtain rfl := Except.ok.inj ((value other).symm.trans made')
    rw [Comparison.text_bytes, Comparison.text_bytes] at same
    exact Uuid.hexText_injective (by simpa using same)
  case misspelled =>
    intro text unwritten
    have missing : read (trimBlanks text.toList) = none :=
      Option.eq_none_iff_forall_ne_some.2 fun uuid known =>
        unwritten uuid (reads.trimBlanks.1 known)
    rw [compared, Attribute.uuidComparand?_of_unread missing]
    rfl
  case foreign =>
    intro value present text uuid
    rw [compared, present, Attribute.uuidComparand?_of_foreign text uuid]
    rfl
  case absent =>
    intro value absent
    rw [compared, if_pos absent]
    exact ⟨_, rfl, Comparison.text_absent attr.name⟩

end Compared

/-- A visitor carries a token. -/
def visitorHeading : Heading where
  attributes := [{ Attribute.plain "visitor_id" .int with inKey := true },
    Attribute.plain "token" .uuid]
  nodup := by decide
  visibleKey := by decide
  keyFirst := by decide

def visitorToken : Uuid := ⟨0x67e5504410b1426f9247bb680e5fe0c8⟩

/-- The token is found in a URN between an em space and a line feed. A scheme in capital letters
and a text with a digit less are refused, and so is a place inside the token. -/
theorem Heading.uuid_equality_of_visitor :
    UuidReader.ReadsSpellings Uuid.ofText? ∧
      visitorHeading.get? (splitPath "token").1 = some (Attribute.plain "token" .uuid) ∧
      visitorHeading.compare? "token"
          (.string "\u2003urn:uuid:67E55044-10b1-426F-9247-bb680e5fe0c8\n") Uuid.ofText? =
        visitorHeading.compare? "token" (.uuid visitorToken) Uuid.ofText? ∧
      visitorHeading.compare? "token"
          (.string "URN:uuid:67e55044-10b1-426f-9247-bb680e5fe0c8") Uuid.ofText? =
        .error (.uuid "token" "URN:uuid:67e55044-10b1-426f-9247-bb680e5fe0c8") ∧
      visitorHeading.compare? "token" (.string " 67e5504410b1426f9247bb680e5fe0c") Uuid.ofText? =
        .error (.uuid "token" " 67e5504410b1426f9247bb680e5fe0c") ∧
      visitorHeading.compare? "token.high" (.uuid visitorToken) Uuid.ofText? =
        .error (.restriction (.notDocument "token")) := by
  have reads := UuidReader.readsSpellings_ofText?
  have found : visitorHeading.get? (splitPath "token").1 =
      some (Attribute.plain "token" .uuid) := by decide +kernel
  have found' : visitorHeading.get? (splitPath "token.high").1 =
      some (Attribute.plain "token" .uuid) := by decide +kernel
  have compares := (uuid_equality reads found rfl).1 (by decide +kernel)
  have refused {text : String} (missing : Uuid.ofText? (trimBlanks text.toList) = none) :
      visitorHeading.compare? "token" (.string text) Uuid.ofText? =
        .error (.uuid "token" text) := by
    refine compares.misspelled text fun uuid written => ?_
    rw [← reads.trimBlanks, missing] at written
    contradiction
  exact ⟨reads, found, compares.spelled _ _ (reads.trimBlanks.1 (by decide +kernel)),
    refused (by decide +kernel), refused (by decide +kernel),
    (uuid_equality reads found' rfl).2 "high" (by decide +kernel) _⟩

end QueryAlgebra
