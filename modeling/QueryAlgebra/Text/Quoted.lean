/-
This file defines how names and values are quoted inside SQL text.
-/
namespace QueryAlgebra

/-- A name stands between backticks and is not changed. -/
def quoteName (name : String) : String := "`" ++ name ++ "`"

/-- Quoted names are separated by commas alone. -/
def quoteNames (names : List String) : String := ",".intercalate (names.map quoteName)

/-- A percent sign is doubled, because a later stage fills placeholders. -/
def escapeMarker : Char → List Char
  | '%' => ['%', '%']
  | c => [c]

/-- Between double quotes a backslash stands before a backslash and a double quote. -/
def escapeDouble : Char → List Char
  | '%' => ['%', '%']
  | '\\' => ['\\', '\\']
  | '"' => ['\\', '"']
  | c => [c]

/-- Between single quotes a single quote is doubled. -/
def escapeSingle : Char → List Char
  | '%' => ['%', '%']
  | '\\' => ['\\', '\\']
  | '\'' => ['\'', '\'']
  | c => [c]

/-- A document path doubles single quotes and escapes nothing else. -/
def escapePath : Char → List Char
  | '\'' => ['\'', '\'']
  | c => [c]

/-- Every character of the text is replaced by its escaped form. -/
def escapeWith (escape : Char → List Char) (text : String) : String :=
  String.ofList (text.toList.flatMap escape)

theorem toList_escapeWith (escape : Char → List Char) (text : String) :
    (escapeWith escape text).toList = text.toList.flatMap escape :=
  String.toList_ofList

/-- Each character that is replaced gives way wherever it stands. The replacements are made one
after another, and a later one sees what an earlier one wrote. -/
def replaceInTurn (replacements : List (Char × List Char)) (text : List Char) : List Char :=
  replacements.foldl (fun text entry =>
    text.flatMap fun c => if c = entry.1 then entry.2 else [c]) text

/-- Placeholders come first, then backslashes, and the quotes get new backslashes last. -/
def doubleReplacements : List (Char × List Char) :=
  [('%', ['%', '%']), ('\\', ['\\', '\\']), ('"', ['\\', '"'])]

def singleReplacements : List (Char × List Char) :=
  [('%', ['%', '%']), ('\\', ['\\', '\\']), ('\'', ['\'', '\''])]

def quoteDouble (text : String) : String :=
  "\"" ++ String.ofList (replaceInTurn doubleReplacements text.toList) ++ "\""

def quoteSingle (text : String) : String :=
  "'" ++ String.ofList (replaceInTurn singleReplacements text.toList) ++ "'"

section Passes

variable {replacements : List (Char × List Char)}

theorem replaceInTurn_cons (entry : Char × List Char) (text : List Char) :
    replaceInTurn (entry :: replacements) text =
      replaceInTurn replacements (text.flatMap fun c => if c = entry.1 then entry.2 else [c]) :=
  rfl

/-- Replacements in turn do to a text what they do to each of its characters. -/
theorem replaceInTurn_eq_flatMap (replacements : List (Char × List Char)) (text : List Char) :
    replaceInTurn replacements text = text.flatMap fun c => replaceInTurn replacements [c] := by
  induction replacements generalizing text with
  | nil => exact (List.flatMap_singleton' text).symm
  | cons entry rest ih =>
      have step (text : List Char) : replaceInTurn (entry :: rest) text =
          (text.flatMap fun c => if c = entry.1 then entry.2 else [c]).flatMap fun c =>
            replaceInTurn rest [c] := ih _
      simp only [step, List.flatMap_assoc, List.flatMap_singleton]

/-- A text without the characters that are replaced stays. -/
theorem replaceInTurn_fixed {text : List Char}
    (free : ∀ entry ∈ replacements, entry.1 ∉ text) : replaceInTurn replacements text = text := by
  induction replacements with
  | nil => rfl
  | cons entry rest ih =>
      obtain ⟨missing, later⟩ := List.forall_mem_cons.1 free
      have kept : ∀ c ∈ text, (if c = entry.1 then entry.2 else [c]) = [c] := by
        intro c inside
        apply if_neg
        rintro rfl
        exact missing inside
      rw [replaceInTurn_cons, List.flatMap_def, List.map_congr_left kept, ← List.flatMap_def,
        List.flatMap_singleton']
      exact ih later

/-- Where no replacement touches what an earlier one wrote, a character meets at most one. -/
theorem replaceInTurn_char (apart : replacements.Pairwise fun first later => later.1 ∉ first.2)
    (c : Char) :
    replaceInTurn replacements [c] = ((replacements.find? (c = ·.1)).map Prod.snd).getD [c] := by
  induction replacements with
  | nil => rfl
  | cons entry rest ih =>
      obtain ⟨untouched, others⟩ := List.pairwise_cons.1 apart
      rw [replaceInTurn_cons, List.flatMap_singleton]
      by_cases same : c = entry.1
      · simp [same, replaceInTurn_fixed untouched]
      · simp [same, ih others]

theorem replaceInTurn_double (c : Char) :
    replaceInTurn doubleReplacements [c] = escapeDouble c := by
  rw [replaceInTurn_char (by decide)]
  unfold escapeDouble
  split
  · rfl
  · rfl
  · rfl
  · next marker backslash quote =>
      have kept : c ≠ '%' ∧ c ≠ '\\' ∧ c ≠ '"' := ⟨marker, backslash, quote⟩
      simp [doubleReplacements, kept]

theorem replaceInTurn_single (c : Char) :
    replaceInTurn singleReplacements [c] = escapeSingle c := by
  rw [replaceInTurn_char (by decide)]
  unfold escapeSingle
  split
  · rfl
  · rfl
  · rfl
  · next marker backslash quote =>
      have kept : c ≠ '%' ∧ c ≠ '\\' ∧ c ≠ '\'' := ⟨marker, backslash, quote⟩
      simp [singleReplacements, kept]

/-- One pass does the same as the replacements in turn. -/
theorem quoteDouble_eq (text : String) :
    quoteDouble text = "\"" ++ escapeWith escapeDouble text ++ "\"" := by
  rw [quoteDouble, escapeWith, replaceInTurn_eq_flatMap]
  simp only [replaceInTurn_double]

theorem quoteSingle_eq (text : String) :
    quoteSingle text = "'" ++ escapeWith escapeSingle text ++ "'" := by
  rw [quoteSingle, escapeWith, replaceInTurn_eq_flatMap]
  simp only [replaceInTurn_single]

end Passes

end QueryAlgebra
