/-
This file defines how a FROM clause is read. Table names and derived tables are units, the joins
associate to the left and parentheses group them. A clause has at most one reading.
-/
import QueryAlgebra.Text.ColumnScan
import QueryAlgebra.Text.Quoted

namespace QueryAlgebra

/-- Joins over units of any kind. -/
inductive JoinTree (α : Type) where
  | unit (value : α)
  | join (left right : JoinTree α) (keepAll : Bool)
deriving DecidableEq, Repr

/-- The units from left to right. -/
def JoinTree.leaves {α : Type} : JoinTree α → List α
  | .unit value => [value]
  | .join left right _ => left.leaves ++ right.leaves

def JoinTree.map {α β : Type} (f : α → β) : JoinTree α → JoinTree β
  | .unit value => .unit (f value)
  | .join left right keepAll => .join (left.map f) (right.map f) keepAll

/-- A derived table is seen as a whole, and everything else character by character. -/
inductive FromSymbol where
  | char (c : Char)
  | derived (text : String)
deriving DecidableEq, Repr

def FromSymbol.chars : FromSymbol → List Char
  | .char c => [c]
  | .derived text => text.toList

/-- A word outside quotes, a name between backticks, a mark or a derived table. -/
inductive FromToken where
  | word (text : String)
  | quoted (name : String)
  | dot
  | opening
  | closing
  | derived (text : String)
deriving DecidableEq, Repr

section Scanning

/-- What is read of a token that has not ended. -/
inductive PartialToken where
  | outside (letters : List Char)
  | inside (name : List Char)
deriving DecidableEq, Repr

/-- The tokens that have ended and the beginning of the next one. -/
structure FromScan where
  tokens : List FromToken
  current : PartialToken
deriving DecidableEq, Repr

/-- No letters make no word. -/
def wordTokens : List Char → List FromToken
  | [] => []
  | c :: rest => [.word (String.ofList (c :: rest))]

/-- Marks end a word, and a blank does no more than that. -/
def markTokens? : Char → Option (List FromToken)
  | ' ' => some []
  | '.' => some [.dot]
  | '(' => some [.opening]
  | ')' => some [.closing]
  | _ => none

/-- Between backticks every character belongs to the name. -/
def FromScan.step : FromScan → FromSymbol → Option FromScan
  | ⟨tokens, .outside letters⟩, .derived text =>
      some ⟨tokens ++ (wordTokens letters ++ [.derived text]), .outside []⟩
  | ⟨tokens, .outside letters⟩, .char c =>
      if c = backtick then some ⟨tokens ++ wordTokens letters, .inside []⟩
      else
        match markTokens? c with
        | some marks => some ⟨tokens ++ (wordTokens letters ++ marks), .outside []⟩
        | none => some ⟨tokens, .outside (letters ++ [c])⟩
  | ⟨_, .inside _⟩, .derived _ => none
  | ⟨tokens, .inside name⟩, .char c =>
      if c = backtick then some ⟨tokens ++ [.quoted (String.ofList name)], .outside []⟩
      else some ⟨tokens, .inside (name ++ [c])⟩

/-- A name that is never closed is no token. -/
def FromScan.end? : FromScan → Option (List FromToken)
  | ⟨tokens, .outside letters⟩ => some (tokens ++ wordTokens letters)
  | ⟨_, .inside _⟩ => none

def scanFrom (symbols : List FromSymbol) : Option (List FromToken) :=
  symbols.foldlM FromScan.step ⟨[], .outside []⟩ >>= FromScan.end?

/-- Between other tokens the symbols are the given tokens. -/
def Scans (symbols : List FromSymbol) (tokens : List FromToken) : Prop :=
  ∀ before, symbols.foldlM FromScan.step ⟨before, .outside []⟩ =
    some ⟨before ++ tokens, .outside []⟩

theorem Scans.append {first second : List FromSymbol} {tokens tokens' : List FromToken}
    (head : Scans first tokens) (tail : Scans second tokens') :
    Scans (first ++ second) (tokens ++ tokens') := by
  intro before
  rw [List.foldlM_append, head before, ← List.append_assoc]
  exact tail (before ++ tokens)

theorem Scans.scanFrom {symbols : List FromSymbol} {tokens : List FromToken}
    (scans : Scans symbols tokens) : scanFrom symbols = some tokens := by
  unfold QueryAlgebra.scanFrom
  rw [scans []]
  simp [FromScan.end?, wordTokens]

theorem scans_derived (text : String) : Scans [.derived text] [.derived text] := fun _ => rfl

theorem scans_opening : Scans [.char '('] [.opening] := fun _ => rfl

theorem scans_closing : Scans [.char ')'] [.closing] := fun _ => rfl

theorem scans_dot : Scans [.char '.'] [.dot] := fun _ => rfl

/-- Every character up to the next backtick belongs to the name. -/
theorem foldlM_step_inside {name : List Char} (free : backtick ∉ name) (before : List FromToken)
    (held : List Char) :
    (name.map FromSymbol.char).foldlM FromScan.step ⟨before, .inside held⟩ =
      some ⟨before, .inside (held ++ name)⟩ := by
  induction name generalizing held with
  | nil => simp
  | cons c rest ih =>
      obtain ⟨other, free⟩ := List.ne_and_not_mem_of_not_mem_cons free
      rw [List.map_cons, List.foldlM_cons, FromScan.step, if_neg (Ne.symm other)]
      show (rest.map FromSymbol.char).foldlM FromScan.step ⟨before, .inside (held ++ [c])⟩ = _
      rw [ih free, List.append_assoc, List.singleton_append]

def characters (text : String) : List FromSymbol := text.toList.map FromSymbol.char

theorem scans_quoteName {name : String} (free : backtick ∉ name.toList) :
    Scans (characters (quoteName name)) [.quoted name] := by
  intro before
  have quoted : (quoteName name).toList = backtick :: (name.toList ++ [backtick]) := by
    rw [quoteName, String.toList_append, String.toList_append]
    rfl
  rw [characters, quoted, List.map_cons, List.map_append, List.foldlM_cons]
  show List.foldlM _ (⟨before ++ [], .inside []⟩ : FromScan) _ = _
  rw [List.foldlM_append, foldlM_step_inside free]
  simp [FromScan.step]

/-- The words between the operands of a join. -/
def joinWords (keepAll : Bool) : List FromToken :=
  if keepAll then [.word "NATURAL", .word "LEFT", .word "JOIN"]
  else [.word "NATURAL", .word "JOIN"]

def joinText (keepAll : Bool) : String :=
  if keepAll then " NATURAL LEFT JOIN " else " NATURAL JOIN "

def isWordPart (c : Char) : Bool := c != backtick && (markTokens? c).isNone

/-- Letters that are no marks go on with a word. -/
theorem foldlM_step_outside {letters : List Char} (plain : letters.all isWordPart = true)
    (before : List FromToken) (held : List Char) :
    (letters.map FromSymbol.char).foldlM FromScan.step ⟨before, .outside held⟩ =
      some ⟨before, .outside (held ++ letters)⟩ := by
  induction letters generalizing held with
  | nil => simp
  | cons c rest ih =>
      rw [List.all_cons, Bool.and_eq_true, isWordPart, Bool.and_eq_true, bne_iff_ne,
        Option.isNone_iff_eq_none] at plain
      obtain ⟨⟨other, unmarked⟩, plain⟩ := plain
      rw [List.map_cons, List.foldlM_cons, FromScan.step, if_neg other, unmarked]
      show (rest.map FromSymbol.char).foldlM FromScan.step ⟨before, .outside (held ++ [c])⟩ = _
      rw [ih plain, List.append_assoc, List.singleton_append]

theorem scans_blank : Scans [.char ' '] [] := fun _ => rfl

/-- A blank ends a word. -/
theorem scans_word (c : Char) (rest : List Char)
    (plain : (c :: rest).all isWordPart = true) :
    Scans ((c :: rest).map FromSymbol.char ++ [.char ' ']) [.word (String.ofList (c :: rest))] := by
  intro before
  rw [List.foldlM_append, foldlM_step_outside plain]
  rfl

theorem scans_joinText (keepAll : Bool) :
    Scans (characters (joinText keepAll)) (joinWords keepAll) := by
  have natural := scans_word 'N' ['A', 'T', 'U', 'R', 'A', 'L'] rfl
  have left := scans_word 'L' ['E', 'F', 'T'] rfl
  have join := scans_word 'J' ['O', 'I', 'N'] rfl
  cases keepAll with
  | false => exact (scans_blank.append natural).append join
  | true => exact ((scans_blank.append natural).append left).append join

end Scanning

section Reading

inductive FromLevel where
  | clause
  | operand
deriving DecidableEq, Repr

/-- The right side of a join is an operand: a unit or a clause between parentheses.
The left side is any clause, so that joins without parentheses associate to the left. -/
inductive ReadsAs : FromLevel → List FromToken → JoinTree String → Prop where
  | table (schema table : String) :
      ReadsAs .operand [.quoted schema, .dot, .quoted table]
        (.unit (quoteName schema ++ "." ++ quoteName table))
  | derived (text : String) : ReadsAs .operand [.derived text] (.unit text)
  | parenthesised {tokens : List FromToken} {tree : JoinTree String}
      (inner : ReadsAs .clause tokens tree) :
      ReadsAs .operand ([.opening] ++ tokens ++ [.closing]) tree
  | operand {tokens : List FromToken} {tree : JoinTree String}
      (alone : ReadsAs .operand tokens tree) : ReadsAs .clause tokens tree
  | join {first second : List FromToken} {left right : JoinTree String} (keepAll : Bool)
      (head : ReadsAs .clause first left) (tail : ReadsAs .operand second right) :
      ReadsAs .clause (first ++ joinWords keepAll ++ second) (.join left right keepAll)

/-- The left side and the kind of a join that waits for its right side. -/
abbrev AwaitedJoin := Option (JoinTree String × Bool)

def completeJoin : AwaitedJoin → JoinTree String → JoinTree String
  | none, tree => tree
  | some (left, keepAll), tree => .join left tree keepAll

mutual

/-- The reader is before an operand. The enclosing parentheses stand with the joins that they
interrupt. -/
def readOperand (enclosing : List AwaitedJoin) (awaited : AwaitedJoin) :
    List FromToken → Option (JoinTree String)
  | .quoted schema :: .dot :: .quoted table :: rest =>
      readAfter enclosing
        (completeJoin awaited (.unit (quoteName schema ++ "." ++ quoteName table))) rest
  | .derived text :: rest => readAfter enclosing (completeJoin awaited (.unit text)) rest
  | .opening :: rest => readOperand (awaited :: enclosing) none rest
  | _ => none

/-- The reader is behind an operand that completes the given tree. -/
def readAfter (enclosing : List AwaitedJoin) (tree : JoinTree String) :
    List FromToken → Option (JoinTree String)
  | [] => if enclosing.isEmpty then some tree else none
  | .closing :: rest =>
      match enclosing with
      | [] => none
      | awaited :: enclosing => readAfter enclosing (completeJoin awaited tree) rest
  | .word "NATURAL" :: .word "JOIN" :: rest => readOperand enclosing (some (tree, false)) rest
  | .word "NATURAL" :: .word "LEFT" :: .word "JOIN" :: rest =>
      readOperand enclosing (some (tree, true)) rest
  | _ => none

end

theorem readAfter_joinWords (enclosing : List AwaitedJoin) (tree : JoinTree String)
    (keepAll : Bool) (rest : List FromToken) :
    readAfter enclosing tree (joinWords keepAll ++ rest) =
      readOperand enclosing (some (tree, keepAll)) rest := by
  cases keepAll <;> simp [joinWords, readAfter]

/-- What a level expects to be read: an operand completes the join that awaits it. -/
def FromLevel.Reads (level : FromLevel) (tokens : List FromToken) (tree : JoinTree String) : Prop :=
  ∀ enclosing rest,
    match level with
    | .clause => readOperand enclosing none (tokens ++ rest) = readAfter enclosing tree rest
    | .operand => ∀ awaited, readOperand enclosing awaited (tokens ++ rest) =
        readAfter enclosing (completeJoin awaited tree) rest

/-- The reader follows every reading. -/
theorem ReadsAs.reads {level : FromLevel} {tokens : List FromToken} {tree : JoinTree String}
    (reads : ReadsAs level tokens tree) : level.Reads tokens tree := by
  induction reads with
  | table schema table => exact fun enclosing rest awaited => by simp [readOperand]
  | derived text => exact fun enclosing rest awaited => by simp [readOperand]
  | @parenthesised tokens tree _ ih =>
      intro enclosing rest awaited
      have inner : readOperand (awaited :: enclosing) none (tokens ++ (.closing :: rest)) = _ :=
        ih (awaited :: enclosing) (.closing :: rest)
      rw [List.append_assoc, List.append_assoc, List.singleton_append, List.singleton_append,
        readOperand, inner, readAfter]
  | operand _ ih => exact fun enclosing rest => ih enclosing rest none
  | @join first second left right keepAll _ _ before behind =>
      intro enclosing rest
      have head :
          readOperand enclosing none (first ++ (joinWords keepAll ++ (second ++ rest))) = _ :=
        before enclosing (joinWords keepAll ++ (second ++ rest))
      have tail := behind enclosing rest (some (left, keepAll))
      show readOperand enclosing none (first ++ joinWords keepAll ++ second ++ rest) = _
      rw [List.append_assoc, List.append_assoc, head, readAfter_joinWords, tail]
      rfl

/-- A clause has one reading at most. -/
theorem ReadsAs.unique {tokens : List FromToken} {tree other : JoinTree String}
    (reads : ReadsAs .clause tokens tree) (again : ReadsAs .clause tokens other) :
    other = tree := by
  have first : readOperand [] none (tokens ++ []) = some tree := reads.reads [] []
  have second : readOperand [] none (tokens ++ []) = some other := again.reads [] []
  exact Option.some.inj (second.symm.trans first)

end Reading

end QueryAlgebra
