/-
This file reads the values of new names by a grammar of its own. A name moves its attribute, a name
in parentheses copies it, and every other value is an expression without the white space around it.
What a value means depends neither on that white space nor on hidden or derived attributes.
-/
import QueryAlgebra.Proofs.Relabelling

namespace QueryAlgebra

/-- White space or nothing stands before and after the body. -/
def Padded (body text : List Char) : Prop :=
  ∃ before after, text = before ++ body ++ after ∧
    (∀ c ∈ before, isBlank c = true) ∧ ∀ c ∈ after, isBlank c = true

/-- The body is the text without the white space at its ends. -/
structure Trimmed (text body : List Char) : Prop where
  padded : Padded body text
  first : ∀ c ∈ body.head?, isBlank c = false
  last : ∀ c ∈ body.getLast?, isBlank c = false

/-- A letter of ASCII or the underscore. -/
def IsNameLetter (c : Char) : Prop := ('a' ≤ c ∧ c ≤ 'z') ∨ ('A' ≤ c ∧ c ≤ 'Z') ∨ c = '_'

/-- A name for a shown attribute has letters and, after the first of them, digits of ASCII.
Whatever the case of its letters, it is not the name of a constant. -/
structure Heading.RefersTo (heading : Heading) (name : String) : Prop where
  spelled : ∃ first rest, name.toList = first :: rest ∧ IsNameLetter first ∧
    ∀ c ∈ rest, IsNameLetter c ∨ ('0' ≤ c ∧ c ≤ '9')
  ordinary : name.toLower ∉ ["null", "true", "false", "current_timestamp", "current_date"]
  shown : name ∈ heading.names

/-- The values that move or copy a shown attribute. -/
inductive Renaming.Written (heading : Heading) : Renaming → List Char → Prop
  | move {name : String} {value : List Char} (refers : heading.RefersTo name)
      (padded : Padded name.toList value) : Renaming.Written heading (.move name) value
  | copy {name : String} {inner value : List Char} (refers : heading.RefersTo name)
      (inside : Padded name.toList inner) (padded : Padded ('(' :: inner ++ [')']) value) :
      Renaming.Written heading (.copy name) value

section Trimming

variable {text body : List Char}

/-- A text that trimming leaves alone is found by trimming, whatever white space is around it. -/
theorem padded_iff (closed : trimBlanks body = body) :
    Padded body text ↔ trimBlanks text = body := by
  constructor
  · rintro ⟨before, after, rfl, blank, blank'⟩
    rw [trimBlanks_append blank blank', closed]
  · rintro rfl
    exact exists_append_trimBlanks text

theorem trimBlanks_eq_iff : trimBlanks text = body ↔ Trimmed text body := by
  constructor
  · rintro rfl
    exact ⟨exists_append_trimBlanks text, fun _ => isBlank_of_head?_trimBlanks,
      fun _ => isBlank_of_getLast?_trimBlanks⟩
  · intro trimmed
    exact (padded_iff (trimBlanks_of_ends trimmed.first trimmed.last)).1 trimmed.padded

theorem trimBlanks_parentheses (inner : List Char) :
    trimBlanks ('(' :: inner ++ [')']) = '(' :: inner ++ [')'] := by
  apply trimBlanks_of_ends
  · intro c first
    cases first
    decide
  · intro c last
    rw [List.getLast?_concat] at last
    cases last
    decide

end Trimming

section Names

theorem isIdentifierStart_iff {c : Char} : isIdentifierStart c = true ↔ IsNameLetter c := by
  have upper : c.isUpper = true ↔ 'A' ≤ c ∧ c ≤ 'Z' := decide_eq_true_iff
  have lower : c.isLower = true ↔ 'a' ≤ c ∧ c ≤ 'z' :=
    Bool.and_eq_true_iff.trans (and_congr decide_eq_true_iff decide_eq_true_iff)
  have letter : c.isAlpha = true ↔ ('a' ≤ c ∧ c ≤ 'z') ∨ ('A' ≤ c ∧ c ≤ 'Z') :=
    Bool.or_eq_true_iff.trans ((or_congr upper lower).trans or_comm)
  rw [isIdentifierStart, Bool.or_eq_true, letter, beq_iff_eq, or_assoc, IsNameLetter]

theorem isIdentifierPart_iff {c : Char} :
    isIdentifierPart c = true ↔ IsNameLetter c ∨ ('0' ≤ c ∧ c ≤ '9') := by
  have digit : c.isDigit = true ↔ '0' ≤ c ∧ c ≤ '9' :=
    Bool.and_eq_true_iff.trans (and_congr decide_eq_true_iff decide_eq_true_iff)
  have word : c.isAlphanum = true ↔ c.isAlpha = true ∨ ('0' ≤ c ∧ c ≤ '9') :=
    Bool.or_eq_true_iff.trans (or_congr_right digit)
  rw [← isIdentifierStart_iff, isIdentifierPart, isIdentifierStart, Bool.or_eq_true,
    Bool.or_eq_true, word, or_right_comm]

theorem isIdentifier_iff {text : List Char} : isIdentifier text = true ↔
    ∃ first rest, text = first :: rest ∧ IsNameLetter first ∧
      ∀ c ∈ rest, IsNameLetter c ∨ ('0' ≤ c ∧ c ≤ '9') := by
  cases text with
  | nil => simp [isIdentifier]
  | cons first rest =>
      simp only [isIdentifier, Bool.and_eq_true, List.all_eq_true, isIdentifierStart_iff,
        isIdentifierPart_iff, List.cons.injEq]
      constructor
      · rintro ⟨start, parts⟩
        exact ⟨first, rest, ⟨rfl, rfl⟩, start, parts⟩
      · rintro ⟨_, _, ⟨rfl, rfl⟩, start, parts⟩
        exact ⟨start, parts⟩

theorem Heading.RefersTo.referable {heading : Heading} {name : String}
    (refers : heading.RefersTo name) : Referable name :=
  ⟨isIdentifier_iff.2 refers.spelled, refers.ordinary⟩

theorem Heading.refersTo_iff {heading : Heading} {text : List Char} :
    heading.refersTo text = true ↔ heading.RefersTo (String.ofList text) := by
  rw [refersTo, Bool.and_eq_true, Bool.and_eq_true, Bool.not_eq_true', List.contains_eq_mem,
    decide_eq_false_iff_not, heading.contains_iff, isIdentifier_iff]
  constructor
  · rintro ⟨⟨spelled, other⟩, shown⟩
    exact ⟨by rwa [String.toList_ofList], other, shown⟩
  · intro refers
    exact ⟨⟨by simpa only [String.toList_ofList] using refers.spelled, refers.ordinary⟩,
      refers.shown⟩

end Names

section Classified

variable {heading : Heading} {meaning : Renaming} {value : String}

/-- Only what trimming leaves of a value counts. -/
theorem Heading.classify_of_trimBlanks {other : String}
    (same : trimBlanks value.toList = trimBlanks other.toList) :
    heading.classify value = heading.classify other := by
  unfold classify
  rw [same]

theorem Heading.classify_of_written (written : Renaming.Written heading meaning value.toList) :
    heading.classify value = meaning := by
  cases written with
  | @move name _ refers padded =>
      -- trimming leaves a name alone, so the value means what the bare name means
      have closed := trimBlanks_of_identifier refers.referable.1
      have trimmed := (padded_iff closed).1 padded
      rw [classify_of_trimBlanks (trimmed.trans closed.symm)]
      exact classify_of_referable refers.referable refers.shown
  | @copy name inner _ refers inside padded =>
      have within := (padded_iff (trimBlanks_of_identifier refers.referable.1)).1 inside
      have whole := (padded_iff (trimBlanks_parentheses inner)).1 padded
      have stripped : parenthesised? (trimBlanks value.toList) = some name.toList :=
        parenthesised?_eq_some.2 ⟨inner, whole, within⟩
      have named : heading.refersTo name.toList = true :=
        refersTo_iff.2 (by rwa [String.ofList_toList])
      unfold classify
      simp only [stripped, named, if_pos, String.ofList_toList]

/-- A value is written as what it means, or it is computed without the white space around it. -/
theorem Heading.written_or_computed (heading : Heading) (value : String) :
    Renaming.Written heading (heading.classify value) value.toList ∨
      heading.classify value = .compute (trim value) := by
  have outside := exists_append_trimBlanks value.toList
  unfold classify
  dsimp only
  split
  · next name stripped =>
      split
      · next refers =>
          obtain ⟨inner, enclosed, rfl⟩ := parenthesised?_eq_some.1 stripped
          have inside : Padded (String.ofList (trimBlanks inner)).toList inner := by
            rw [String.toList_ofList]
            exact exists_append_trimBlanks inner
          exact .inl (.copy (refersTo_iff.1 refers) inside (enclosed ▸ outside))
      · exact .inr rfl
  · split
    · next refers =>
        refine .inl (.move (refersTo_iff.1 refers) ?_)
        rw [String.toList_ofList]
        exact outside
    · exact .inr rfl

/-- A value moves or copies an attribute if and only if it is written so. -/
theorem Heading.classify_eq_iff_written {source : String}
    (referring : meaning.source? = some source) :
    heading.classify value = meaning ↔ Renaming.Written heading meaning value.toList := by
  refine ⟨?_, classify_of_written⟩
  rintro rfl
  rcases heading.written_or_computed value with written | computed
  · exact written
  · rw [computed] at referring
    contradiction

/-- A value that is written neither as a move nor as a copy is an expression. -/
theorem Heading.classify_eq_compute {expression : String} :
    heading.classify value = .compute expression ↔
      (∀ meaning, ¬ Renaming.Written heading meaning value.toList) ∧
        Trimmed value.toList expression.toList := by
  constructor
  · intro computed
    have unwritten (meaning : Renaming) : ¬ Renaming.Written heading meaning value.toList := by
      intro written
      obtain rfl := (classify_of_written written).symm.trans computed
      cases written
    refine ⟨unwritten, trimBlanks_eq_iff.1 ?_⟩
    have whole := (heading.written_or_computed value).resolve_left (unwritten _)
    rw [← toList_trim, Renaming.compute.inj (whole.symm.trans computed)]
  · rintro ⟨unwritten, trimmed⟩
    rw [(heading.written_or_computed value).resolve_left (unwritten _), Renaming.compute.injEq]
    exact String.toList_injective ((toList_trim value).trans (trimBlanks_eq_iff.2 trimmed))

theorem Heading.classify_append {before after : String}
    (blank : ∀ c ∈ before.toList, isBlank c = true) (blank' : ∀ c ∈ after.toList, isBlank c = true) :
    heading.classify (before ++ value ++ after) = heading.classify value := by
  apply classify_of_trimBlanks
  rw [String.toList_append, String.toList_append, trimBlanks_append blank blank']

end Classified

theorem Heading.classify_asColumns (heading : Heading) (value : String) :
    heading.asColumns.classify value = heading.classify value := by
  have shown : heading.asColumns.visible = heading.visible.map Attribute.asColumn :=
    heading.visible_asColumns
  have names : heading.asColumns.names = heading.names := by
    rw [Heading.names, shown, List.map_map]
    rfl
  exact classify_congr (fun name => by rw [names]) value

theorem Heading.classify_visiblePart (heading : Heading) (value : String) :
    heading.visiblePart.classify value = heading.classify value := by
  have names : heading.visiblePart.names = heading.names :=
    congrArg (List.map Attribute.name) heading.visible_visiblePart
  exact classify_congr (fun name => by rw [names]) value

/-- A value moves or copies exactly the attribute that it is written to move or to copy, and any
other value is computed without the white space around it. More white space at its ends changes
nothing, nor does a subquery that shows all attributes as columns and drops the hidden ones. -/
theorem Heading.classify_grammar (heading : Heading) (value : String) :
    (∀ name, heading.classify value = .move name ↔
      Renaming.Written heading (.move name) value.toList) ∧
    (∀ name, heading.classify value = .copy name ↔
      Renaming.Written heading (.copy name) value.toList) ∧
    (∀ expression, heading.classify value = .compute expression ↔
      (∀ meaning, ¬ Renaming.Written heading meaning value.toList) ∧
        Trimmed value.toList expression.toList) ∧
    (∀ before after : String, (∀ c ∈ before.toList, isBlank c = true) →
      (∀ c ∈ after.toList, isBlank c = true) →
      heading.classify (before ++ value ++ after) = heading.classify value) ∧
    heading.asColumns.classify value = heading.classify value ∧
    heading.visiblePart.classify value = heading.classify value :=
  ⟨fun _ => classify_eq_iff_written rfl, fun _ => classify_eq_iff_written rfl,
    fun _ => classify_eq_compute,
    fun _ _ blank blank' => classify_append blank blank', heading.classify_asColumns value,
    heading.classify_visiblePart value⟩

/-- A sample has a species, an attribute that is named like a constant and a tag that is not
shown. -/
def sampleHeading : Heading where
  attributes := [{ Attribute.plain "sample_id" .int with inKey := true },
    Attribute.plain "species" .string, Attribute.plain "Null" .int,
    { Attribute.plain "tag" .string with hidden := true }]
  nodup := by decide
  visibleKey := by decide
  keyFirst := by decide

/-- The species is copied, with an em space in front and a line feed inside the parentheses too.
Neither the attribute that is named like a constant nor the tag moves. -/
theorem Heading.classify_grammar_of_species :
    Renaming.Written sampleHeading (.copy "species") "( species\n)".toList ∧
      sampleHeading.classify ("\u2003" ++ "( species\n)" ++ "\t") = .copy "species" ∧
      Trimmed " Null".toList "Null".toList ∧
      (∀ meaning, ¬ Renaming.Written sampleHeading meaning " Null".toList) ∧
      sampleHeading.visiblePart.classify "tag" = .compute "tag" := by
  obtain ⟨_, copied, _, padded, _⟩ := classify_grammar sampleHeading "( species\n)"
  obtain ⟨_, _, computed, _⟩ := classify_grammar sampleHeading " Null"
  obtain ⟨_, _, _, _, _, visible⟩ := classify_grammar sampleHeading "tag"
  have species : sampleHeading.classify "( species\n)" = .copy "species" := by decide +kernel
  obtain ⟨unwritten, trimmed⟩ := (computed "Null").1 (by decide +kernel)
  have space : ∀ c ∈ "\u2003".toList, isBlank c = true := List.all_eq_true.1 (by decide)
  have tab : ∀ c ∈ "\t".toList, isBlank c = true := List.all_eq_true.1 (by decide)
  exact ⟨(copied "species").1 species, (padded "\u2003" "\t" space tab).trans species, trimmed,
    unwritten, visible.trans (by decide +kernel)⟩

end QueryAlgebra
