/-!
Taking C-family source text apart into pieces: white space, comments, preprocessor directives and
tokens. `join_pieces` says that the pieces are the text, so nothing is lost and nothing is read
twice. The reader of a piece never fails: a literal that is not closed ends with its line, a comment
or raw string that is not closed ends with the text.
-/

namespace Graft.Code

/-- What a token is, as far as finding functions needs it. -/
inductive Kind where
  | word
  | number
  | literal
  | mark (c : Char)
  deriving Repr, DecidableEq, Inhabited

inductive Role where
  | lineEnd
  | blank
  | directive
  | comment
  | token (kind : Kind)
  deriving Repr, DecidableEq, Inhabited

structure Piece where
  role : Role
  text : List Char
  deriving Repr, DecidableEq, Inhabited

def isGap (c : Char) : Bool :=
  c == ' ' || c == '\t' || c == '\r' || c == '\x0b' || c == '\x0c'

/-- A character that can start a word; everything outside ASCII counts as a letter. -/
def startsWord (c : Char) : Bool :=
  c.isAlpha || c == '_' || c == '$' || 0x80 ≤ c.toNat

def isWordChar (c : Char) : Bool := startsWord c || c.isDigit

def takeWhile (kind : Char → Bool) : List Char → List Char × List Char
  | [] => ([], [])
  | c :: rest =>
      if kind c then
        let (taken, rest) := takeWhile kind rest
        (c :: taken, rest)
      else ([], c :: rest)

/-- A block comment after its opening, up to and with its closing or the end of the text. -/
def takeBlock : List Char → List Char × List Char
  | [] => ([], [])
  | '*' :: '/' :: rest => (['*', '/'], rest)
  | c :: rest =>
      let (taken, rest) := takeBlock rest
      (c :: taken, rest)

/-- A preprocessor directive up to its line end. A line end after a backslash continues it, and so
does one inside a block comment, which `inComment` says the reader is in. -/
def takeDirective (inComment : Bool) : List Char → List Char × List Char
  | [] => ([], [])
  | c :: rest =>
      if inComment then
        match c, rest with
        | '*', '/' :: rest =>
            let (taken, rest) := takeDirective false rest
            ('*' :: '/' :: taken, rest)
        | c, rest =>
            let (taken, rest) := takeDirective true rest
            (c :: taken, rest)
      else
        match c, rest with
        | '\\', '\n' :: rest =>
            let (taken, rest) := takeDirective false rest
            ('\\' :: '\n' :: taken, rest)
        | '\\', '\r' :: '\n' :: rest =>
            let (taken, rest) := takeDirective false rest
            ('\\' :: '\r' :: '\n' :: taken, rest)
        | '\n', rest => ([], '\n' :: rest)
        | '/', '*' :: rest =>
            let (taken, rest) := takeDirective true rest
            ('/' :: '*' :: taken, rest)
        | c, rest =>
            let (taken, rest) := takeDirective false rest
            (c :: taken, rest)
termination_by text => text.length

/-- A quoted literal after its opening quote, up to and with its closing quote. A backslash takes
the next character with it; without a closing quote the literal ends before the line does. -/
def takeQuoted (quote : Char) : List Char → List Char × List Char
  | [] => ([], [])
  | ['\\'] => (['\\'], [])
  | '\\' :: c :: rest =>
      let (taken, rest) := takeQuoted quote rest
      ('\\' :: c :: taken, rest)
  | c :: rest =>
      if c = '\n' then ([], c :: rest)
      else if c = quote then ([c], rest)
      else
        let (taken, rest) := takeQuoted quote rest
        (c :: taken, rest)

/-- Everything up to and with the first occurrence of `closing`, or the whole text. -/
def takeThrough (closing : List Char) : List Char → List Char × List Char
  | [] => ([], [])
  | c :: rest =>
      if closing.isPrefixOf (c :: rest) then
        ((c :: rest).take closing.length, (c :: rest).drop closing.length)
      else
        let (taken, rest) := takeThrough closing rest
        (c :: taken, rest)

/-- A raw string literal after its opening quote: a delimiter, an opening parenthesis, and then
everything up to a closing parenthesis, the same delimiter and a quote. -/
def takeRaw (text : List Char) : List Char × List Char :=
  match takeWhile (· != '(') text with
  | (delimiter, '(' :: rest) =>
      let (taken, rest) := takeThrough (')' :: delimiter ++ ['"']) rest
      (delimiter ++ '(' :: taken, rest)
  | (delimiter, rest) => (delimiter, rest)

/-- The words that make a literal of the quoted text behind them, as far as it is raw. -/
def rawHeads : List String := ["R", "u8R", "uR", "UR", "LR"]

/-- The words that make a literal of the quoted text behind them, as far as it is not raw. -/
def encodingHeads : List String := ["u8", "u", "U", "L"]

/-- A word, or the literal whose encoding it announces, with the kind of the token. -/
def takeWord (text : List Char) : Kind × List Char × List Char :=
  match takeWhile isWordChar text with
  | (word, quote :: rest) =>
      let name := String.ofList word
      if quote = '"' ∧ name ∈ rawHeads then
        let (taken, rest) := takeRaw rest
        (.literal, word ++ quote :: taken, rest)
      else if (quote = '"' ∨ quote = '\'') ∧ name ∈ encodingHeads then
        let (taken, rest) := takeQuoted quote rest
        (.literal, word ++ quote :: taken, rest)
      else (.word, word, quote :: rest)
  | (word, []) => (.word, word, [])

/-- Whether a quote stands in front of a letter or digit, so that it separates digits. -/
def separatesDigits (c : Char) (rest : List Char) : Bool :=
  c == '\'' && rest.head?.any Char.isAlphanum

/-- A number: letters, digits, points and underscores, and quotes that separate digits. -/
def takeNumber : List Char → List Char × List Char
  | [] => ([], [])
  | c :: rest =>
      if c.isAlphanum || c == '.' || c == '_' || separatesDigits c rest then
        let (taken, rest) := takeNumber rest
        (c :: taken, rest)
      else ([], c :: rest)

/-- The first piece of a text whose first character is given, and the rest. At the start of a line
a hash opens a directive. -/
def firstPiece (lineStart : Bool) (c : Char) (rest : List Char) : Piece × List Char :=
  if c = '\n' then (⟨.lineEnd, [c]⟩, rest)
  else if isGap c then (⟨.blank, [c]⟩, rest)
  else if c = '#' ∧ lineStart then
    let (taken, rest) := takeDirective false rest
    (⟨.directive, c :: taken⟩, rest)
  else if c = '/' ∧ rest.head? = some '/' then
    let (taken, rest) := takeWhile (· != '\n') rest
    (⟨.comment, c :: taken⟩, rest)
  else if c = '/' ∧ rest.head? = some '*' then
    let (taken, rest) := takeBlock (rest.drop 1)
    (⟨.comment, c :: '*' :: taken⟩, rest)
  else if c = '"' ∨ c = '\'' then
    let (taken, rest) := takeQuoted c rest
    (⟨.token .literal, c :: taken⟩, rest)
  else if startsWord c then
    let (kind, taken, rest) := takeWord (c :: rest)
    (⟨.token kind, taken⟩, rest)
  else if c.isDigit then
    let (taken, rest) := takeNumber (c :: rest)
    (⟨.token .number, taken⟩, rest)
  else (⟨.token (.mark c), [c]⟩, rest)

theorem takeWhile_append (kind : Char → Bool) (text : List Char) :
    (takeWhile kind text).1 ++ (takeWhile kind text).2 = text := by
  fun_induction takeWhile kind text <;> simp_all

theorem takeBlock_append (text : List Char) : (takeBlock text).1 ++ (takeBlock text).2 = text := by
  fun_induction takeBlock text <;> simp_all

theorem takeDirective_append (inComment : Bool) (text : List Char) :
    (takeDirective inComment text).1 ++ (takeDirective inComment text).2 = text := by
  fun_induction takeDirective inComment text <;> simp_all

theorem takeQuoted_append (quote : Char) (text : List Char) :
    (takeQuoted quote text).1 ++ (takeQuoted quote text).2 = text := by
  fun_induction takeQuoted quote text <;> simp_all

theorem takeThrough_append (closing text : List Char) :
    (takeThrough closing text).1 ++ (takeThrough closing text).2 = text := by
  induction text with
  | nil => rfl
  | cons c rest ih =>
      unfold takeThrough
      split
      · exact List.take_append_drop _ _
      · simp [ih]

theorem takeRaw_append (text : List Char) : (takeRaw text).1 ++ (takeRaw text).2 = text := by
  have whole := takeWhile_append (· != '(') text
  unfold takeRaw
  split
  · next delimiter rest heq =>
      rw [heq] at whole
      simp only at whole ⊢
      rw [← whole, List.append_assoc, List.cons_append, takeThrough_append]
  · next delimiter rest _ heq =>
      rw [heq] at whole
      simpa using whole

theorem takeWord_append (text : List Char) :
    (takeWord text).2.1 ++ (takeWord text).2.2 = text := by
  have whole := takeWhile_append isWordChar text
  unfold takeWord
  split
  · next word quote rest heq =>
      rw [heq] at whole
      simp only at whole ⊢
      split
      · simp [takeRaw_append, whole]
      · split
        · simp [takeQuoted_append, whole]
        · simpa using whole
  · next word heq =>
      rw [heq] at whole
      simpa using whole

theorem takeNumber_append (text : List Char) :
    (takeNumber text).1 ++ (takeNumber text).2 = text := by
  induction text with
  | nil => rfl
  | cons c rest ih =>
      unfold takeNumber
      split <;> simp_all

/-- The first piece and the rest are the text. -/
theorem firstPiece_append (lineStart : Bool) (c : Char) (rest : List Char) :
    (firstPiece lineStart c rest).1.text ++ (firstPiece lineStart c rest).2 = c :: rest := by
  unfold firstPiece
  split
  · rfl
  split
  · rfl
  split
  · simp [takeDirective_append]
  split
  · simp [takeWhile_append]
  split
  · next _ h =>
      cases rest with
      | nil => simp at h
      | cons d rest =>
          simp only [List.head?_cons, Option.some.injEq] at h
          simp [h.2, takeBlock_append]
  split
  · simp [takeQuoted_append]
  split
  · exact takeWord_append (c :: rest)
  split
  · exact takeNumber_append (c :: rest)
  · rfl

/-- A piece holds at least one character. -/
theorem firstPiece_ne_nil (lineStart : Bool) (c : Char) (rest : List Char) :
    (firstPiece lineStart c rest).1.text ≠ [] := by
  unfold firstPiece
  split
  · simp
  split
  · simp
  split
  · simp
  split
  · simp
  split
  · simp
  split
  · simp
  split
  · next _ _ _ _ _ _ h =>
      have word : isWordChar c = true := by simp [isWordChar, h]
      simp only [takeWord, takeWhile, word, ↓reduceIte]
      split
      · split
        · simp_all
        · split
          · simp_all
          · rename_i heq _ _
            simp only [Prod.mk.injEq] at heq
            simp [← heq.1]
      · rename_i heq
        simp only [Prod.mk.injEq] at heq
        simp [← heq.1]
  split
  · next h =>
      have digit : c.isAlphanum = true := by simp [Char.isAlphanum, h]
      simp [takeNumber, digit]
  · simp

theorem length_firstPiece_lt (lineStart : Bool) (c : Char) (rest : List Char) :
    (firstPiece lineStart c rest).2.length < (c :: rest).length := by
  have whole := congrArg List.length (firstPiece_append lineStart c rest)
  have some := List.length_pos_iff.2 (firstPiece_ne_nil lineStart c rest)
  rw [List.length_append] at whole
  omega

/-- Whether the text after a piece is at the start of a line, as directives see it: white space and
comments change nothing, and a token ends it. -/
def Role.atLineStart (before : Bool) : Role → Bool
  | .lineEnd => true
  | .token _ => false
  | _ => before

/-- The pieces of a text, which starts a line or goes on with one. -/
def piecesFrom (lineStart : Bool) : List Char → List Piece
  | [] => []
  | c :: rest =>
      let first := firstPiece lineStart c rest
      first.1 :: piecesFrom (first.1.role.atLineStart lineStart) first.2
termination_by text => text.length
decreasing_by exact length_firstPiece_lt lineStart c rest

def pieces (text : List Char) : List Piece := piecesFrom true text

/-- The pieces are the text. -/
theorem join_piecesFrom (lineStart : Bool) (text : List Char) :
    (piecesFrom lineStart text).flatMap Piece.text = text := by
  fun_induction piecesFrom lineStart text with
  | case1 => rfl
  | case2 lineStart c rest first ih =>
      rw [List.flatMap_cons, ih]
      exact firstPiece_append lineStart c rest

theorem join_pieces (text : List Char) : (pieces text).flatMap Piece.text = text :=
  join_piecesFrom true text

end Graft.Code
