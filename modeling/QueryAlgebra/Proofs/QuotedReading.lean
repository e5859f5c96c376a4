/-
This file reads quoted texts back. A quoted value comes back as the text of the value, and a
document path comes back exactly where nothing in it needs an escape other than that of quotes.
-/
import QueryAlgebra.Proofs.LexedConditions
import QueryAlgebra.Proofs.MarkedConditions

namespace QueryAlgebra

/-- A character that was read comes before what is read after it. -/
def consRead (c : Char) (read : Option (List Char × List Char)) :
    Option (List Char × List Char) :=
  read.map (Prod.map (c :: ·) id)

/-- The content of a quoted text and what follows the quote that closes it.
A backslash takes the next character as it is, two percent signs stand for one, and between
single quotes two quotes stand for one. -/
def readQuoted : QuoteMark → List Char → Option (List Char × List Char)
  | _, [] => none
  | mark, '\\' :: c :: rest => consRead c (readQuoted mark rest)
  | mark, '%' :: '%' :: rest => consRead '%' (readQuoted mark rest)
  | .single, '\'' :: '\'' :: rest => consRead '\'' (readQuoted .single rest)
  | mark, c :: rest =>
      if c = mark.char then some ([], rest) else consRead c (readQuoted mark rest)

/-- What follows a quoted text. -/
def afterQuoted (mark : QuoteMark) (text : List Char) : Option (List Char) :=
  (readQuoted mark text).map Prod.snd

theorem consRead_eq_some {c : Char} {read : Option (List Char × List Char)}
    {content rest : List Char} :
    consRead c read = some (content, rest) ↔
      ∃ inner, read = some (inner, rest) ∧ content = c :: inner := by
  rw [consRead, Option.map_eq_some_iff]
  constructor
  · intro found
    obtain ⟨⟨inner, left⟩, read, same⟩ := found
    cases same
    exact ⟨inner, read, rfl⟩
  · intro found
    obtain ⟨inner, read, same⟩ := found
    exact ⟨(inner, rest), read, by rw [same]; rfl⟩

section Steps

variable {mark : QuoteMark} {c : Char} {rest : List Char}

theorem readQuoted_backslash (mark : QuoteMark) (c : Char) (rest : List Char) :
    readQuoted mark ('\\' :: c :: rest) = consRead c (readQuoted mark rest) := by
  rw [readQuoted]

theorem readQuoted_markers (mark : QuoteMark) (rest : List Char) :
    readQuoted mark ('%' :: '%' :: rest) = consRead '%' (readQuoted mark rest) := by
  rw [readQuoted]

theorem readQuoted_quotes (rest : List Char) :
    readQuoted .single ('\'' :: '\'' :: rest) = consRead '\'' (readQuoted .single rest) := by
  rw [readQuoted]

theorem readQuoted_cons (escape : ∀ next others, c = '\\' → rest = next :: others → False)
    (marker : ∀ others, c = '%' → rest = '%' :: others → False)
    (quote : ∀ others, mark = .single → c = '\'' → rest = '\'' :: others → False) :
    readQuoted mark (c :: rest) =
      if c = mark.char then some ([], rest) else consRead c (readQuoted mark rest) := by
  rw [readQuoted] <;> assumption

/-- A quote closes the text unless it is the first of two single quotes. -/
theorem readQuoted_close (mark : QuoteMark) (alone : mark = .single → rest.head? ≠ some '\'') :
    readQuoted mark (mark.char :: rest) = some ([], rest) := by
  rw [readQuoted_cons, if_pos rfl]
  · intro _ _ same
    cases mark <;> contradiction
  · intro _ same
    cases mark <;> contradiction
  · intro others single _ pair
    exact alone single (by rw [pair]; rfl)

/-- A character without a meaning of its own is read as it is. -/
theorem readQuoted_plain (mark : QuoteMark) (bare : c ≠ '\\' ∧ c ≠ mark.char)
    (single : c = '%' → rest.head? ≠ some '%') :
    readQuoted mark (c :: rest) = consRead c (readQuoted mark rest) := by
  rw [readQuoted_cons, if_neg bare.2]
  · intro _ _ same
    exact absurd same bare.1
  · intro others marker same
    exact single marker (by rw [same]; rfl)
  · intro others chosen quote _
    exact bare.2 (by rw [chosen, quote]; rfl)

end Steps

section Values

/-- The escape for values between the quotes of a kind. -/
def QuoteMark.escape : QuoteMark → Char → List Char
  | .single => escapeSingle
  | .double => escapeDouble

theorem QuoteMark.escape_other (mark : QuoteMark) {c : Char} (marker : c ≠ '%')
    (backslash : c ≠ '\\') (quote : c ≠ mark.char) : mark.escape c = [c] := by
  cases mark with
  | single => rw [escape, escapeSingle] <;> assumption
  | double => rw [escape, escapeDouble] <;> assumption

/-- An escaped character is read as that character. -/
theorem readQuoted_escape (mark : QuoteMark) (c : Char) (rest : List Char) :
    readQuoted mark (mark.escape c ++ rest) = consRead c (readQuoted mark rest) := by
  by_cases marker : c = '%'
  · rw [marker]
    cases mark <;> exact readQuoted_markers _ rest
  by_cases backslash : c = '\\'
  · rw [backslash]
    cases mark <;> exact readQuoted_backslash _ _ rest
  by_cases quote : c = mark.char
  · rw [quote]
    cases mark with
    | single => exact readQuoted_quotes rest
    | double => exact readQuoted_backslash _ _ rest
  rw [mark.escape_other marker backslash quote]
  exact readQuoted_plain mark ⟨backslash, quote⟩ fun same => absurd same marker

/-- An escaped text comes back, and reading stops at the quote written after it. -/
theorem readQuoted_escaped (mark : QuoteMark) (text rest : List Char)
    (alone : mark = .single → rest.head? ≠ some '\'') :
    readQuoted mark (text.flatMap mark.escape ++ mark.char :: rest) = some (text, rest) := by
  induction text with
  | nil => exact readQuoted_close mark alone
  | cons c text ih =>
      rw [List.flatMap_cons, List.append_assoc, readQuoted_escape, ih]
      rfl

/-- Values of these kinds are written between quotes. -/
def Literal.isQuoted : Literal → Bool
  | .null | .infinity _ | .bool _ | .int _ | .float _ => false
  | _ => true

/-- An object at the end of a path stands between single quotes. -/
def Literal.mark (value : Literal) (path : Option String) : QuoteMark :=
  if path.isSome && value.isObject then .single else .double

def QuoteMark.comparand : QuoteMark → String → Comparand
  | .single => .singleQuoted
  | .double => .doubleQuoted

theorem QuoteMark.text_comparand (mark : QuoteMark) (text : String) :
    (mark.comparand text).text.toList =
      '=' :: mark.char :: (text.toList.flatMap mark.escape ++ [mark.char]) := by
  cases mark with
  | single => simp [comparand, Comparand.text, quoteSingle_eq, toList_escapeWith, char, escape]
  | double => simp [comparand, Comparand.text, quoteDouble_eq, toList_escapeWith, char, escape]

/-- A quoted value is compared as its text unless the attribute holds UUIDs. -/
theorem Attribute.comparand?_of_quoted {attr : Attribute} {path : Option String} {value : Literal}
    (quoted : value.isQuoted = true) (foreign : attr.domain ≠ .uuid) :
    attr.comparand? path value = .ok ((value.mark path).comparand value.text) := by
  rw [comparand?, Literal.mark]
  by_cases object : (path.isSome && value.isObject) = true
  · rw [if_pos object, if_pos object]
    rfl
  · rw [if_neg object, if_neg object, if_neg foreign]
    cases value with
    | null | infinity | bool | int | float => contradiction
    | _ => rfl

/-- A comparison of an attribute that holds no UUIDs with a value that is written between
quotes. -/
structure Heading.Quotes (heading : Heading) (key : String) (value : Literal)
    (comparison : Comparison) : Prop where
  compared : heading.compare? key value = .ok comparison
  quoted : value.isQuoted = true
  foreign : ∀ attr, heading.get? (splitPath key).1 = some attr → attr.domain ≠ .uuid

theorem Heading.Quotes.comparand {heading : Heading} {key : String} {value : Literal}
    {comparison : Comparison} (quotes : heading.Quotes key value comparison) :
    comparison.comparand = (value.mark (splitPath key).2).comparand value.text := by
  obtain ⟨attr, found, _, given⟩ := Heading.compare?_eq_ok.1 quotes.compared
  rw [Attribute.comparand?_of_quoted quotes.quoted (quotes.foreign attr found)] at given
  exact (Except.ok.inj given).symm

/-- A comparison with a quoted value ends in the quote that closes the value, reading from the
opening quote gives the text of the value, and no other text is written in the same way. -/
theorem Heading.Quotes.reads_back {heading : Heading} {key : String} {value : Literal}
    {comparison : Comparison} (quotes : heading.Quotes key value comparison) :
    (∃ content,
      comparison.text.toList = comparison.operand.text.toList ++
        '=' :: (value.mark (splitPath key).2).char ::
          (content ++ [(value.mark (splitPath key).2).char]) ∧
      readQuoted (value.mark (splitPath key).2)
        (content ++ [(value.mark (splitPath key).2).char]) = some (value.text.toList, [])) ∧
      ∀ {heading' : Heading} {key' : String} {value' : Literal} {comparison' : Comparison},
        heading'.Quotes key' value' comparison' →
          comparison'.comparand.text = comparison.comparand.text → value'.text = value.text := by
  constructor
  · refine ⟨value.text.toList.flatMap (value.mark (splitPath key).2).escape, ?_, ?_⟩
    · rw [Comparison.text, String.toList_append, quotes.comparand, QuoteMark.text_comparand]
    · exact readQuoted_escaped _ _ [] (by simp)
  · intro heading' key' value' comparison' quotes' same
    rw [quotes.comparand, quotes'.comparand, ← String.toList_inj, QuoteMark.text_comparand,
      QuoteMark.text_comparand, List.cons_inj_right, List.cons.injEq] at same
    have mark : value'.mark (splitPath key').2 = value.mark (splitPath key).2 := by
      revert same
      cases value'.mark (splitPath key').2 <;> cases value.mark (splitPath key).2 <;>
        simp [QuoteMark.char]
    have read := readQuoted_escaped (value'.mark (splitPath key').2) value'.text.toList []
      (by simp)
    rw [same.2, mark, readQuoted_escaped _ _ [] (by simp), Option.some.injEq, Prod.mk.injEq] at read
    rw [← String.toList_inj]
    exact read.1.symm

/-- The owner of a run, whose name needs every escape between single quotes. -/
def ownerDocument : Literal :=
  .document (.object [("who", .string "O'Brien \\ 5%")])

/-- The same document with a doubled quote, doubled backslashes and a doubled percent sign. -/
def ownerContent : String := "\x7b\"who\":\"O''Brien \\\\\\\\ 5%%\"\x7d"

/-- A document under a path is written between single quotes and comes back. -/
theorem Heading.Quotes.reads_back_of_owner :
    ∃ comparison,
      runHeading.Quotes "params.owner" ownerDocument comparison ∧
      comparison.text = "JSON_VALUE(`params`, '$.owner')" ++ ("='" ++ ownerContent ++ "'") ∧
      readQuoted .single (ownerContent.toList ++ ['\'']) =
        some (ownerDocument.text.toList, []) := by
  obtain ⟨comparison, compared, shown, operand⟩ : ∃ comparison,
      runHeading.compare? "params.owner" ownerDocument = .ok comparison ∧
      comparison.text = "JSON_VALUE(`params`, '$.owner')" ++ ("='" ++ ownerContent ++ "'") ∧
      comparison.operand.text = "JSON_VALUE(`params`, '$.owner')" :=
    ⟨_, rfl, by decide +kernel, by decide +kernel⟩
  have found : runHeading.get? (splitPath "params.owner").1 =
      some (Attribute.plain "params" .json) := by decide +kernel
  have quotes : runHeading.Quotes "params.owner" ownerDocument comparison := by
    refine ⟨compared, rfl, fun attr named => ?_⟩
    rw [found] at named
    cases named
    decide
  obtain ⟨⟨content, whole, read⟩, _⟩ := reads_back quotes
  have mark : ownerDocument.mark (splitPath "params.owner").2 = .single := by decide +kernel
  have spelled : ("='" ++ ownerContent ++ "'").toList =
      '=' :: '\'' :: (ownerContent.toList ++ ['\'']) := by simp
  rw [shown, operand, mark, String.toList_append, spelled, QuoteMark.char] at whole
  rw [mark, QuoteMark.char] at read
  have same := List.append_cancel_left whole
  rw [List.cons_inj_right, List.cons_inj_right] at same
  rw [same]
  exact ⟨comparison, quotes, shown, read⟩

end Values

section Ends

variable {mark : QuoteMark}

theorem map_consRead (c : Char) (read : Option (List Char × List Char)) :
    (consRead c read).map Prod.snd = read.map Prod.snd := by
  cases read <;> rfl

/-- What follows a quoted text is shorter than the text. -/
theorem length_afterQuoted {text rest : List Char} (read : afterQuoted mark text = some rest) :
    rest.length < text.length := by
  rw [afterQuoted] at read
  induction mark, text using readQuoted.induct with
  | case1 => contradiction
  | case2 mark c others ih =>
      rw [readQuoted_backslash, map_consRead] at read
      have shorter := ih read
      simp only [List.length_cons]
      omega
  | case3 mark others ih =>
      rw [readQuoted_markers, map_consRead] at read
      have shorter := ih read
      simp only [List.length_cons]
      omega
  | case4 others ih =>
      rw [readQuoted_quotes, map_consRead] at read
      have shorter := ih read
      simp only [List.length_cons]
      omega
  | case5 mark others escape marker quote =>
      rw [readQuoted_cons escape marker quote, if_pos rfl] at read
      cases read
      exact Nat.lt_succ_self _
  | case6 mark c others escape marker quote other ih =>
      rw [readQuoted_cons escape marker quote, if_neg other, map_consRead] at read
      have shorter := ih read
      simp only [List.length_cons]
      omega

/-- A backslash in the content takes two backslashes of the text. -/
theorem count_readQuoted {text content rest : List Char}
    (read : readQuoted mark text = some (content, rest)) :
    2 * content.count '\\' + rest.count '\\' ≤ text.count '\\' := by
  induction mark, text using readQuoted.induct generalizing content with
  | case1 => contradiction
  | case2 mark c others ih =>
      rw [readQuoted_backslash, consRead_eq_some] at read
      obtain ⟨inner, read, same⟩ := read
      have fewer := ih read
      rw [same]
      simp only [List.count_cons]
      split <;> simp <;> omega
  | case3 mark others ih =>
      rw [readQuoted_markers, consRead_eq_some] at read
      obtain ⟨inner, read, same⟩ := read
      have fewer := ih read
      rw [same]
      simpa using fewer
  | case4 others ih =>
      rw [readQuoted_quotes, consRead_eq_some] at read
      obtain ⟨inner, read, same⟩ := read
      have fewer := ih read
      rw [same]
      simpa using fewer
  | case5 mark others escape marker quote =>
      rw [readQuoted_cons escape marker quote, if_pos rfl] at read
      cases read
      rw [List.count_cons]
      simp
  | case6 mark c others escape marker quote other ih =>
      rw [readQuoted_cons escape marker quote, if_neg other, consRead_eq_some] at read
      obtain ⟨inner, read, same⟩ := read
      have fewer := ih read
      have plain : c ≠ '\\' := by
        intro backslash
        cases others with
        | nil => contradiction
        | cons next others => exact escape next others backslash rfl
      rw [same, List.count_cons_of_ne plain, List.count_cons_of_ne plain]
      exact fewer

/-- A percent sign never decides where a quoted text ends. -/
theorem afterQuoted_marker (text : List Char) :
    afterQuoted mark ('%' :: text) = afterQuoted mark text := by
  have other : '%' ≠ mark.char := by cases mark <;> decide
  induction text with
  | nil =>
      rw [afterQuoted, readQuoted_plain mark ⟨by decide, other⟩ (by simp), map_consRead, afterQuoted]
  | cons c rest ih =>
      by_cases marker : c = '%'
      · rw [marker, ih, afterQuoted, readQuoted_markers, map_consRead, afterQuoted]
      · rw [afterQuoted, readQuoted_plain mark ⟨by decide, other⟩ (by simpa using marker),
          map_consRead, afterQuoted]

end Ends

section Paths

/-- No backslash takes a quote, or the end of the path, as its next character. -/
def pathContained : List Char → Bool
  | [] => true
  | ['\\'] => false
  | '\\' :: '\'' :: _ => false
  | '\\' :: _ :: rest => pathContained rest
  | _ :: rest => pathContained rest

/-- Two percent signs in a row become one. -/
def mergeMarkers : List Char → List Char
  | [] => []
  | '%' :: '%' :: rest => '%' :: mergeMarkers rest
  | c :: rest => c :: mergeMarkers rest

/-- A single quote before an escaped path and its closing quote is never read as part of the
content up to that closing quote. -/
theorem afterQuoted_opened (path : List Char) (c : Char) (after : List Char) :
    afterQuoted .single ('\'' :: (path.flatMap escapePath ++ '\'' :: c :: after)) ≠
      some (c :: after) := by
  induction path with
  | nil =>
      rw [List.flatMap_nil, List.nil_append, afterQuoted, readQuoted_quotes, map_consRead]
      intro read
      have shorter := length_afterQuoted read
      omega
  | cons d path ih =>
      by_cases quote : d = '\''
      · rw [quote]
        show afterQuoted .single ('\'' :: '\'' :: '\'' :: _) ≠ _
        rw [afterQuoted, readQuoted_quotes, map_consRead]
        exact ih
      · rw [List.flatMap_cons, escapePath_other quote, List.append_assoc, List.singleton_append,
          afterQuoted]
        have closed : readQuoted .single ('\'' :: d :: (path.flatMap escapePath ++ '\'' :: c :: after)) =
            some ([], d :: (path.flatMap escapePath ++ '\'' :: c :: after)) :=
          readQuoted_close .single (by simpa using quote)
        rw [closed]
        intro same
        have longer := congrArg List.length (Option.some.inj same)
        simp only [List.length_cons, List.length_append] at longer
        omega

/-- A path ends at the quote written after it exactly when it is contained. -/
theorem afterQuoted_path (path : List Char) {c : Char} (other : c ≠ '\'') (after : List Char) :
    afterQuoted .single (path.flatMap escapePath ++ '\'' :: c :: after) = some (c :: after) ↔
      pathContained path = true := by
  induction path using pathContained.induct with
  | case1 =>
      have closed : readQuoted .single ('\'' :: c :: after) = some ([], c :: after) :=
        readQuoted_close .single (by simpa using other)
      rw [List.flatMap_nil, List.nil_append, afterQuoted, closed]
      simp [pathContained]
  | case2 =>
      show afterQuoted .single ('\\' :: '\'' :: c :: after) = _ ↔ _
      rw [afterQuoted, readQuoted_backslash, map_consRead]
      refine iff_of_false (fun read => ?_) (by simp [pathContained])
      have shorter := length_afterQuoted read
      omega
  | case3 path =>
      show afterQuoted .single ('\\' :: '\'' :: '\'' :: _) = _ ↔ _
      rw [afterQuoted, readQuoted_backslash, map_consRead]
      exact iff_of_false (afterQuoted_opened path c after) (by simp [pathContained])
  | case4 d path quote ih =>
      have plain : d ≠ '\'' := quote
      rw [List.flatMap_cons, List.flatMap_cons, escapePath_other plain]
      show afterQuoted .single ('\\' :: d :: _) = _ ↔ _
      rw [afterQuoted, readQuoted_backslash, map_consRead]
      rw [pathContained]
      · exact ih
      · exact quote
  | case5 d path last quote escape ih =>
      have plain : d ≠ '\\' := by
        intro backslash
        cases path with
        | nil => exact last backslash rfl
        | cons next path => exact escape next path backslash rfl
      rw [pathContained.eq_5 _ _ last quote escape, ← ih, List.flatMap_cons, List.append_assoc]
      by_cases single : d = '\''
      · rw [single, escapePath_quote, List.cons_append, List.singleton_append, afterQuoted,
          readQuoted_quotes, map_consRead, afterQuoted]
      rw [escapePath_other single, List.singleton_append]
      by_cases marker : d = '%'
      · rw [marker, afterQuoted_marker]
      · rw [afterQuoted, readQuoted_plain .single ⟨plain, single⟩
          (fun same => absurd same marker), map_consRead, afterQuoted]

theorem length_mergeMarkers (path : List Char) : (mergeMarkers path).length ≤ path.length := by
  induction path using mergeMarkers.induct with
  | case1 => exact Nat.le_refl _
  | case2 rest ih =>
      rw [mergeMarkers]
      simp only [List.length_cons]
      omega
  | case3 c rest single ih =>
      rw [mergeMarkers.eq_3 _ _ single]
      simp only [List.length_cons]
      omega

/-- Merging changes a path exactly where two percent signs stand in a row. -/
theorem mergeMarkers_eq_self (path : List Char) :
    mergeMarkers path = path ↔ ¬ ['%', '%'] <:+: path := by
  induction path using mergeMarkers.induct with
  | case1 => simp [mergeMarkers]
  | case2 rest ih =>
      rw [mergeMarkers]
      refine iff_of_false (fun same => ?_) (fun apart => apart (List.infix_append [] _ rest))
      have longer := congrArg List.length (List.cons.inj same).2
      have merged := length_mergeMarkers rest
      rw [List.length_cons] at longer
      omega
  | case3 c rest single ih =>
      have apart : ¬ ['%', '%'] <+: c :: rest := by
        intro first
        obtain ⟨others, whole⟩ := first
        obtain ⟨marker, second⟩ := List.cons.inj whole
        exact single others marker.symm second.symm
      rw [mergeMarkers.eq_3 _ _ single, List.cons_inj_right, ih, List.infix_cons_iff]
      exact not_congr (or_iff_right apart).symm

/-- A path without backslashes is read with its percent signs merged. -/
theorem readQuoted_path (path : List Char) (free : '\\' ∉ path) {c : Char} (other : c ≠ '\'')
    (after : List Char) :
    readQuoted .single (path.flatMap escapePath ++ '\'' :: c :: after) =
      some (mergeMarkers path, c :: after) := by
  induction path using mergeMarkers.induct with
  | case1 => exact readQuoted_close .single (by simpa using other)
  | case2 rest ih =>
      rw [List.mem_cons, List.mem_cons, not_or, not_or] at free
      rw [List.flatMap_cons, List.flatMap_cons, escapePath_other (by decide), List.append_assoc,
        List.append_assoc, List.singleton_append, List.singleton_append, readQuoted_markers,
        ih free.2.2, mergeMarkers]
      rfl
  | case3 d rest single ih =>
      rw [List.mem_cons, not_or] at free
      rw [mergeMarkers.eq_3 _ _ single, List.flatMap_cons, List.append_assoc]
      by_cases quote : d = '\''
      · rw [quote, escapePath_quote, List.cons_append, List.singleton_append, readQuoted_quotes,
          ih free.2]
        rfl
      · rw [escapePath_other quote, List.singleton_append,
          readQuoted_plain .single ⟨Ne.symm free.1, quote⟩, ih free.2]
        · rfl
        · intro marker first
          rw [List.head?_append, head?_escapePath] at first
          cases rest with
          | nil => simp at first
          | cons next others => exact single others marker (by simpa using first)

/-- The text of a path follows the dollar sign and the dot of its root. -/
theorem readQuoted_root (text : List Char) :
    readQuoted .single ("$.".toList ++ text) =
      consRead '$' (consRead '.' (readQuoted .single text)) := by
  show readQuoted .single ('$' :: '.' :: text) = _
  rw [readQuoted_plain .single (by decide) (by simp),
    readQuoted_plain .single (by decide) (by simp)]

theorem consRead_root_eq_some {read : Option (List Char × List Char)}
    {content rest : List Char} :
    consRead '$' (consRead '.' read) = some ("$.".toList ++ content, rest) ↔
      read = some (content, rest) := by
  constructor
  · intro whole
    obtain ⟨afterDollar, read, dollar⟩ := consRead_eq_some.1 whole
    obtain ⟨inner, read, dot⟩ := consRead_eq_some.1 read
    have same : content = inner := by
      rw [dot] at dollar
      exact (List.cons.inj (List.cons.inj dollar).2).2
    rw [same]
    exact read
  · intro read
    rw [read]
    rfl

end Paths

/-- A comparison with a place in a document names the attribute and quotes the path. -/
theorem Comparison.toList_text_of_path {heading : Heading} {key : String} {value : Literal}
    {comparison : Comparison} {path : String} (compared : heading.compare? key value = .ok comparison)
    (leads : (splitPath key).2 = some path) :
    comparison.text.toList =
      ("JSON_VALUE(" ++ quoteName (splitPath key).1 ++ ", '").toList ++
        ("$.".toList ++ (path.toList.flatMap escapePath ++
          '\'' :: ')' :: comparison.comparand.text.toList)) := by
  obtain ⟨attr, found, named, _⟩ := Heading.compare?_eq_ok.1 compared
  have same : attr.name = (splitPath key).1 := (Heading.get?_eq_some.1 found).2
  rw [Comparison.text, Attribute.operand?_eq_ok named, leads, Option.elim, same, Operand.text]
  simp [toList_escapeWith]

/-- The path of a comparison ends at the quote written after it exactly when no backslash in it
takes a quote or the end, and it comes back exactly when it has no backslash at all and no two
percent signs in a row. -/
theorem Comparison.path_reads_back_iff {heading : Heading} {key : String} {value : Literal}
    {comparison : Comparison} {path : String} (compared : heading.compare? key value = .ok comparison)
    (leads : (splitPath key).2 = some path) :
    ∃ text,
      comparison.text.toList =
        ("JSON_VALUE(" ++ quoteName (splitPath key).1 ++ ", '").toList ++ text ∧
      (afterQuoted .single text = some (')' :: comparison.comparand.text.toList) ↔
        pathContained path.toList = true) ∧
      (readQuoted .single text =
          some ("$.".toList ++ path.toList, ')' :: comparison.comparand.text.toList) ↔
        '\\' ∉ path.toList ∧ ¬ ['%', '%'] <:+: path.toList) := by
  refine ⟨_, toList_text_of_path compared leads, ?_, ?_⟩
  · rw [afterQuoted, readQuoted_root, map_consRead, map_consRead]
    exact afterQuoted_path path.toList (by decide) _
  rw [readQuoted_root, consRead_root_eq_some]
  have back : '\\' ∉ path.toList →
      (readQuoted .single (path.toList.flatMap escapePath ++
          '\'' :: ')' :: comparison.comparand.text.toList) =
        some (path.toList, ')' :: comparison.comparand.text.toList) ↔
        ¬ ['%', '%'] <:+: path.toList) := by
    intro free
    rw [readQuoted_path path.toList free (by decide), ← mergeMarkers_eq_self]
    simp
  constructor
  · intro read
    have free : '\\' ∉ path.toList := by
      have closing : ('\'' :: ')' :: comparison.comparand.text.toList).count '\\' =
          (')' :: comparison.comparand.text.toList).count '\\' :=
        List.count_cons_of_ne (by decide)
      have halved := count_readQuoted read
      rw [List.count_append, count_escapePath (by decide), closing] at halved
      rw [← List.count_eq_zero]
      omega
    exact ⟨free, (back free).1 read⟩
  · intro plain
    exact (back plain.1).2 plain.2

/-- A path with a quote and a single percent sign comes back. -/
theorem Comparison.path_reads_back_of_owner :
    ∃ comparison,
      runHeading.compare? "params.O'Brien 5%" (.string "it's") = .ok comparison ∧
      (splitPath "params.O'Brien 5%").2 = some "O'Brien 5%" ∧
      comparison.text = "JSON_VALUE(`params`, '$.O''Brien 5%')=\"it's\"" ∧
      readQuoted .single "$.O''Brien 5%')=\"it's\"".toList =
        some ("$.O'Brien 5%".toList, ")=\"it's\"".toList) := by
  obtain ⟨comparison, compared, shown, following⟩ : ∃ comparison,
      runHeading.compare? "params.O'Brien 5%" (.string "it's") = .ok comparison ∧
      comparison.text = "JSON_VALUE(`params`, '$.O''Brien 5%')=\"it's\"" ∧
      ')' :: comparison.comparand.text.toList = ")=\"it's\"".toList :=
    ⟨_, rfl, by decide +kernel, by decide +kernel⟩
  have leads : (splitPath "params.O'Brien 5%").2 = some "O'Brien 5%" := by decide +kernel
  obtain ⟨text, whole, _, comes⟩ := path_reads_back_iff compared leads
  have split : "JSON_VALUE(`params`, '$.O''Brien 5%')=\"it's\"".toList =
      ("JSON_VALUE(" ++ quoteName (splitPath "params.O'Brien 5%").1 ++ ", '").toList ++
        "$.O''Brien 5%')=\"it's\"".toList := by decide +kernel
  rw [shown, split] at whole
  have same := List.append_cancel_left whole
  have back := comes.2 (by decide +kernel)
  rw [← same, following] at back
  refine ⟨comparison, compared, leads, shown, back.trans ?_⟩
  decide +kernel

/-- A backslash at the end of a path takes the quote that should close it, and the text of the
condition after it is read as part of the path. -/
theorem Comparison.path_swallows_quote :
    ∃ comparison,
      runHeading.compare? "params.a\\" (.int 1) = .ok comparison ∧
      comparison.text = "JSON_VALUE(`params`, '" ++ "$.a\\')=1" ∧
      readQuoted .single "$.a\\')=1".toList ≠
        some ("$.a\\".toList, ")=1".toList) ∧
      readQuoted .single "$.a\\')=1".toList = none :=
  ⟨_, rfl, by decide +kernel, by decide +kernel, by decide +kernel⟩

end QueryAlgebra
