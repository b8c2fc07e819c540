import Graft.Proofs.Code.Lookahead
import Graft.Proofs.Code.Placed
import Graft.Proofs.Code.Relocation

/-!
The contents of comments and literals. What stands inside a comment or a quoted literal can be replaced
by other contents of as many bytes and lines that leave it open up to its end: every token stays in
its place and the same definitions are found (`discover_of_refilled`). One literal is told apart by its
contents: directly behind a number a quote in front of a letter or digit separates digits.
-/

namespace Graft.Code

open Graft.Text

/-! Frames -/

/-- What is around the contents of a comment or a quoted literal. A literal can stand behind the word
that announces its encoding; `closed` says whether the end of the comment or literal is written. -/
inductive Frame where
  | line
  | block (closed : Bool)
  | quoted (head : List Char) (known : head = [] ∨ String.ofList head ∈ encodingHeads) (quote : Char)
      (isQuote : quote = '"' ∨ quote = '\'') (closed : Bool)

namespace Frame

def role : Frame → Role
  | .line | .block _ => .comment
  | .quoted .. => .token .literal

def opening : Frame → List Char
  | .line => ['/', '/']
  | .block _ => ['/', '*']
  | .quoted head _ quote _ _ => head ++ [quote]

def closing : Frame → List Char
  | .line | .block false | .quoted _ _ _ _ false => []
  | .block true => ['*', '/']
  | .quoted _ _ quote _ true => [quote]

def piece (frame : Frame) (contents : List Char) : Piece :=
  ⟨frame.role, frame.opening ++ contents ++ frame.closing⟩

/-- Whether contents stand in the frame: in a comment without its end, in a literal in one line and so
that a quote behind them is still read as a part of it. -/
def Holds (contents : List Char) : Frame → Prop
  | .line => '\n' ∉ contents
  | .block _ => ¬ ['*', '/'] <:+: contents
  | .quoted _ _ quote _ _ =>
      '\n' ∉ contents ∧ (takeQuoted quote (contents ++ [quote])).2 = []

/-- Contents that can be put into the frame: in a comment those without its end, in a literal those
without line end, backslash and quote. -/
def Admits (contents : List Char) : Frame → Prop
  | .line => '\n' ∉ contents
  | .block _ => ¬ ['*', '/'] <:+: contents
  | .quoted _ _ quote _ _ => '\n' ∉ contents ∧ '\\' ∉ contents ∧ quote ∉ contents

instance (contents : List Char) : (frame : Frame) → Decidable (frame.Holds contents)
  | .line => inferInstanceAs (Decidable (_ ∉ _))
  | .block _ => inferInstanceAs (Decidable (¬ _))
  | .quoted .. => inferInstanceAs (Decidable (_ ∧ _))

instance (contents : List Char) : (frame : Frame) → Decidable (frame.Admits contents)
  | .line => inferInstanceAs (Decidable (_ ∉ _))
  | .block _ => inferInstanceAs (Decidable (¬ _))
  | .quoted .. => inferInstanceAs (Decidable (_ ∧ _ ∧ _))

def EndsBefore (after : List Char) : Frame → Prop
  | .line | .quoted _ _ _ _ false => after = [] ∨ after.head? = some '\n'
  | .block false => after = []
  | .block true | .quoted _ _ _ _ true => True

end Frame

/-! Comments -/

theorem takeWhile_line {contents after : List Char} (inLine : '\n' ∉ contents)
    (ends : after = [] ∨ after.head? = some '\n') :
    takeWhile (· != '\n') (contents ++ after) = (contents, after) := by
  have all : ∀ c ∈ contents, (c != '\n') = true := by
    intro c mem
    simpa using ne_of_mem_of_not_mem mem inLine
  obtain rfl | ends := ends
  · rw [List.append_nil]
    clear inLine
    induction contents with
    | nil => rfl
    | cons c contents ih =>
        rw [List.forall_mem_cons] at all
        rw [takeWhile, if_pos all.1, ih all.2]
  · obtain ⟨rest, rfl⟩ := List.head?_eq_some_iff.1 ends
    exact takeWhile_append_cons all rfl rest

theorem takeBlock_cons {c : Char} {rest : List Char} (other : ¬ (c = '*' ∧ rest.head? = some '/')) :
    takeBlock (c :: rest) = (c :: (takeBlock rest).1, (takeBlock rest).2) := by
  rw [takeBlock.eq_def]
  split
  · next same => cases same
  · next behind same =>
      obtain ⟨rfl, rfl⟩ := List.cons.inj same
      exact absurd ⟨rfl, rfl⟩ other
  · next same =>
      obtain ⟨rfl, rfl⟩ := List.cons.inj same
      rfl

/-- Where no end of a comment begins with the first character of some contents, none does when more
follows that begins no such end either. -/
theorem not_closed_of_free {c : Char} {contents after : List Char}
    (inner : ¬ ['*', '/'] <:+: c :: contents) (open_ : after.head? ≠ some '/') :
    ¬ (c = '*' ∧ (contents ++ after).head? = some '/') := by
  rintro ⟨rfl, second⟩
  cases contents with
  | nil => exact open_ second
  | cons d contents =>
      obtain rfl : d = '/' := by simpa using second
      exact inner ⟨[], contents, rfl⟩

theorem takeBlock_of_not_infix {contents : List Char} (inner : ¬ ['*', '/'] <:+: contents)
    {after : List Char} (open_ : after.head? ≠ some '/') :
    takeBlock (contents ++ after) = (contents ++ (takeBlock after).1, (takeBlock after).2) := by
  induction contents with
  | nil => rfl
  | cons c contents ih =>
      have later : ¬ ['*', '/'] <:+: contents := fun found => inner (List.infix_cons found)
      rw [List.cons_append, takeBlock_cons (not_closed_of_free inner open_), ih later]
      rfl

/-- A block comment behind its opening is its contents, and its end where that is written. -/
theorem exists_contents_of_takeBlock (text : List Char) :
    ∃ contents closed, (takeBlock text).1 = contents ++ (Frame.block closed).closing ∧
      ¬ ['*', '/'] <:+: contents := by
  fun_induction takeBlock text with
  | case1 => exact ⟨[], false, rfl, by decide⟩
  | case2 rest => exact ⟨[], true, rfl, by decide⟩
  | case3 c rest other inner behind same ih =>
      rw [same] at ih
      obtain ⟨contents, closed, rfl, within⟩ := ih
      refine ⟨c :: contents, closed, rfl, ?_⟩
      rw [List.infix_cons_iff]
      rintro (⟨others, starts⟩ | found)
      · obtain ⟨rfl, rfl⟩ := List.cons.inj starts
        have whole := takeBlock_append rest
        rw [same] at whole
        exact other _ rfl whole.symm
      · exact within found

/-! Literals -/

theorem takeQuoted_cons {quote c : Char} (noSlash : c ≠ '\\') (rest : List Char) :
    takeQuoted quote (c :: rest) =
      if c = '\n' then ([], c :: rest)
      else if c = quote then ([c], rest)
      else (c :: (takeQuoted quote rest).1, (takeQuoted quote rest).2) :=
  takeQuoted.eq_4 quote c rest (fun same => absurd same noSlash) fun _ _ same => absurd same noSlash

theorem takeQuoted_of_plain {quote : Char} {contents : List Char} (inLine : '\n' ∉ contents)
    (plain : '\\' ∉ contents) (open_ : quote ∉ contents) (after : List Char) :
    takeQuoted quote (contents ++ after) =
      (contents ++ (takeQuoted quote after).1, (takeQuoted quote after).2) := by
  induction contents with
  | nil => rfl
  | cons c contents ih =>
      simp only [List.mem_cons, not_or] at inLine plain open_
      rw [List.cons_append, takeQuoted_cons (Ne.symm plain.1), if_neg (Ne.symm inLine.1),
        if_neg (Ne.symm open_.1), ih inLine.2 plain.2 open_.2]
      rfl

/-- A literal that ends without its quote stands in front of a line end. -/
theorem ends_of_takeQuoted {quote : Char} {text contents after : List Char}
    (read : takeQuoted quote text = (contents, after))
    (open_ : (takeQuoted quote (contents ++ [quote])).2 = []) :
    after = [] ∨ after.head? = some '\n' := by
  fun_induction takeQuoted quote text generalizing contents with
  | case1 | case2 =>
      obtain ⟨-, rfl⟩ := Prod.mk.inj read
      exact .inl rfl
  | case3 c rest inner behind same ih =>
      obtain ⟨rfl, rfl⟩ := Prod.mk.inj read
      exact ih same (by simpa [takeQuoted] using open_)
  | case4 rest =>
      obtain ⟨-, rfl⟩ := Prod.mk.inj read
      exact .inr rfl
  | case5 rest notLast noEscape inLine =>
      obtain ⟨rfl, rfl⟩ := Prod.mk.inj read
      have noSlash := ne_backslash notLast noEscape
      simp [takeQuoted_cons noSlash, inLine] at open_
  | case6 c rest notLast noEscape inLine other inner behind same ih =>
      obtain ⟨rfl, rfl⟩ := Prod.mk.inj read
      have noSlash := ne_backslash notLast noEscape
      exact ih same (by simpa [takeQuoted_cons noSlash, inLine, other] using open_)

/-- A literal behind its opening quote is its contents, and its closing quote where that is written. -/
theorem exists_contents_of_takeQuoted {quote : Char} (isQuote : quote = '"' ∨ quote = '\'')
    (text : List Char) (inLine : '\n' ∉ (takeQuoted quote text).1) :
    ∃ contents, ((takeQuoted quote text).1 = contents ∨ (takeQuoted quote text).1 = contents ++ [quote]) ∧
      (takeQuoted quote (contents ++ [quote])).2 = [] := by
  have alone : (takeQuoted quote [quote]).2 = [] := by
    obtain rfl | rfl := isQuote <;> simp [takeQuoted]
  fun_induction takeQuoted quote text with
  | case1 | case4 => exact ⟨[], .inl rfl, alone⟩
  | case2 => exact ⟨['\\'], .inl rfl, by simp [takeQuoted]⟩
  | case3 c rest inner behind same ih =>
      rw [same] at ih
      obtain ⟨contents, shape, open_⟩ := ih fun mem => inLine (by simp [mem])
      exact ⟨'\\' :: c :: contents, by simpa using shape, by simpa [takeQuoted] using open_⟩
  | case5 => exact ⟨[], .inr rfl, alone⟩
  | case6 c rest notLast noEscape inner' other inner behind same ih =>
      have noSlash := ne_backslash notLast noEscape
      rw [same] at ih
      obtain ⟨contents, shape, open_⟩ := ih fun mem => inLine (by simp [mem])
      refine ⟨c :: contents, by simpa using shape, ?_⟩
      simpa [takeQuoted_cons noSlash, inner', other] using open_

/-! Reading -/

theorem piecesFrom_line (lineStart : Bool) (rest : List Char) :
    piecesFrom lineStart ('/' :: '/' :: rest) =
      ⟨.comment, '/' :: '/' :: (takeWhile (· != '\n') rest).1⟩ ::
        piecesFrom lineStart (takeWhile (· != '\n') rest).2 := by
  simp [piecesFrom, firstPiece, isGap, takeWhile, Role.atLineStart]

theorem piecesFrom_block (lineStart : Bool) (rest : List Char) :
    piecesFrom lineStart ('/' :: '*' :: rest) =
      ⟨.comment, '/' :: '*' :: (takeBlock rest).1⟩ :: piecesFrom lineStart (takeBlock rest).2 := by
  simp [piecesFrom, firstPiece, isGap, Role.atLineStart]

theorem piecesFrom_quoted (lineStart : Bool) {head : List Char}
    (known : head = [] ∨ String.ofList head ∈ encodingHeads) {quote : Char}
    (isQuote : quote = '"' ∨ quote = '\'') (rest : List Char) :
    piecesFrom lineStart (head ++ quote :: rest) =
      ⟨.token .literal, head ++ quote :: (takeQuoted quote rest).1⟩ ::
        piecesFrom false (takeQuoted quote rest).2 := by
  obtain rfl | known := known
  · obtain rfl | rfl := isQuote <;> simp [piecesFrom, firstPiece, isGap, Role.atLineStart]
  · have spelt : head ∈ encodingHeads.map String.toList := by
      simpa using List.mem_map_of_mem (f := String.toList) known
    simp only [encodingHeads, List.map_cons, List.map_nil, List.mem_cons, List.not_mem_nil,
      or_false] at spelt
    obtain rfl | rfl | rfl | rfl := spelt
    all_goals
      obtain rfl | rfl := isQuote
      all_goals
        simp [piecesFrom, firstPiece, isGap, startsWord, takeWord, takeWhile, isWordChar, rawHeads,
          encodingHeads, Role.atLineStart]

namespace Frame

variable {frame : Frame} {contents other after : List Char} {lineStart : Bool} {behind : List Piece}

theorem text_piece (frame : Frame) (contents after : List Char) :
    (frame.piece contents).text ++ after = frame.opening ++ (contents ++ frame.closing ++ after) := by
  simp [piece]

/-- Contents that can be put into a frame are read as its contents. -/
theorem piecesFrom_piece (admits : frame.Admits contents) (ends : frame.EndsBefore after)
    (lineStart : Bool) :
    piecesFrom lineStart ((frame.piece contents).text ++ after) =
      frame.piece contents :: piecesFrom (frame.role.atLineStart lineStart) after := by
  rw [text_piece]
  cases frame with
  | line =>
      have read := takeWhile_line admits ends
      simp [piece, opening, closing, role, piecesFrom_line, read, Role.atLineStart]
  | block closed =>
      cases closed with
      | true =>
          have open_ : ('*' :: '/' :: after).head? ≠ some '/' := by simp
          have read := takeBlock_of_not_infix admits open_
          simp [piece, opening, closing, role, piecesFrom_block, read, takeBlock, Role.atLineStart]
      | false =>
          obtain rfl : after = [] := ends
          have read : takeBlock (contents ++ []) = _ := takeBlock_of_not_infix admits (by simp)
          rw [List.append_nil] at read
          simp [piece, opening, closing, role, piecesFrom_block, read, takeBlock, Role.atLineStart]
  | quoted head known quote isQuote closed =>
      obtain ⟨inLine, plain, open_⟩ := admits
      have read := takeQuoted_of_plain inLine plain open_
      cases closed with
      | true =>
          have ends : takeQuoted quote (quote :: after) = ([quote], after) := by
            obtain rfl | rfl := isQuote <;> simp [takeQuoted]
          simp [piece, opening, closing, role, piecesFrom_quoted _ known isQuote, read, ends,
            Role.atLineStart]
      | false =>
          have ends : takeQuoted quote after = ([], after) := by
            obtain rfl | ends := ends
            · rfl
            · obtain ⟨rest, rfl⟩ := List.head?_eq_some_iff.1 ends
              rw [takeQuoted_cons (by decide), if_pos rfl]
          simp [piece, opening, closing, role, piecesFrom_quoted _ known isQuote, read, ends,
            Role.atLineStart]

/-- Where a text goes on behind a frame, the frame ends in front of it. -/
theorem endsBefore_of_read (holds : frame.Holds contents)
    (read : piecesFrom lineStart ((frame.piece contents).text ++ after) = frame.piece contents :: behind)
    (later : behind.flatMap Piece.text = after) : frame.EndsBefore after := by
  rw [text_piece] at read
  cases frame with
  | line =>
      simp only [opening, closing, List.append_nil, List.cons_append, List.nil_append,
        piecesFrom_line, piece, List.cons.injEq, Piece.mk.injEq, true_and] at read
      obtain ⟨⟨-, taken⟩, rfl⟩ := read
      rw [join_piecesFrom] at later
      cases after with
      | nil => exact .inl rfl
      | cons c rest =>
          have stops := stops_of_takeWhile (Prod.ext taken later)
          exact .inr (by simpa using stops)
  | block closed =>
      cases closed with
      | true => trivial
      | false =>
          simp only [opening, closing, List.append_nil, List.cons_append, List.nil_append,
            piecesFrom_block, piece, List.cons.injEq, Piece.mk.injEq, true_and] at read
          obtain ⟨⟨-, taken⟩, rfl⟩ := read
          rw [join_piecesFrom] at later
          cases after with
          | nil => rfl
          | cons c rest =>
              rw [takeBlock_eq_takeThrough] at taken later
              exact absurd (suffix_of_takeThrough (Prod.ext taken later)).isInfix holds
  | quoted head known quote isQuote closed =>
      cases closed with
      | true => trivial
      | false =>
          simp only [opening, closing, List.append_nil, List.append_assoc, List.cons_append,
            List.nil_append, piecesFrom_quoted _ known isQuote, piece, List.cons.injEq, Piece.mk.injEq,
            List.append_cancel_left_eq, true_and] at read
          obtain ⟨⟨-, taken⟩, rfl⟩ := read
          rw [join_piecesFrom] at later
          exact ends_of_takeQuoted (Prod.ext taken later) holds.2

end Frame

/-- Whether a piece has contents: a comment, or a literal in one line that is not raw. -/
def Piece.HasContents (piece : Piece) : Prop :=
  piece.role = .comment ∨ piece.role = .token .literal ∧ '\n' ∉ piece.text ∧
    ∀ head ∈ rawHeads, ¬ head.toList ++ ['"'] <+: piece.text

instance (piece : Piece) : Decidable piece.HasContents :=
  inferInstanceAs (Decidable (_ ∨ _))

/-- Every comment and every literal in one line that is not raw is a frame around contents. -/
theorem exists_frame_of_opens {lineStart : Bool} {text after : List Char} {piece : Piece}
    (opens : Opens lineStart text piece after) (has : piece.HasContents) :
    ∃ (frame : Frame) (contents : List Char), frame.Holds contents ∧ piece = frame.piece contents := by
  cases opens with
  | @line rest taken _ ends =>
      refine ⟨.line, taken, ?_, by simp [Frame.piece, Frame.role, Frame.opening, Frame.closing]⟩
      intro mem
      have within := @of_mem_takeWhile (· != '\n') rest '\n'
      rw [ends] at within
      simpa using within mem
  | @block rest taken _ ends =>
      obtain ⟨contents, closed, shape, inner⟩ := exists_contents_of_takeBlock rest
      simp only [ends] at shape
      exact ⟨.block closed, contents, inner, by
        simp [Frame.piece, Frame.role, Frame.opening, shape]⟩
  | @quoted head known quote isQuote rest taken _ ends =>
      obtain ⟨-, inLine, -⟩ : _ ∧ '\n' ∉ head ++ quote :: taken ∧ _ := has.resolve_left (by simp)
      have within : '\n' ∉ (takeQuoted quote rest).1 := by
        rw [ends]
        exact fun mem => inLine (by simp [mem])
      obtain ⟨contents, shape, open_⟩ := exists_contents_of_takeQuoted isQuote rest within
      rw [ends] at shape within
      obtain rfl | rfl := shape
      · exact ⟨.quoted head known quote isQuote false, _, ⟨within, open_⟩, by
          simp [Frame.piece, Frame.role, Frame.opening, Frame.closing]⟩
      · refine ⟨.quoted head known quote isQuote true, contents, ⟨?_, open_⟩, by
          simp [Frame.piece, Frame.role, Frame.opening, Frame.closing]⟩
        exact fun mem => within (List.mem_append_left _ mem)
  | @raw head known rest taken _ ends =>
      obtain ⟨-, -, notRaw⟩ := has.resolve_left (by simp)
      refine (notRaw _ known ?_).elim
      exact ⟨taken, by simp⟩
  | lineEnd | blank | directive | word | number | mark => simp [Piece.HasContents] at has

/-! Tokens -/

/-- What the scan for definitions reads of a token whatever the contents of literals are. -/
def Token.outline (token : Token) : Token where
  kind := token.kind
  text := if token.kind = .literal ∧ token.name ∉ openingWords then [] else token.text
  start := ⟨token.start.offset, token.start.line, 0⟩
  stop := ⟨token.stop.offset, token.stop.line, 0⟩

/-- The scan for definitions sees no difference between tokens and their outlines. -/
def outlining : Relocation 0 0 where
  move := Token.outline
  kind _ := rfl
  text token solid := if_neg fun blank => solid blank.1
  opening token word opens := by
    by_cases blank : token.kind = .literal ∧ token.name ∉ openingWords
    · have outlined : token.outline.name = "" := by
        rw [Token.name, Token.outline, if_pos blank]
      rw [outlined]
      constructor
      · rintro rfl
        exact absurd opens (by decide)
      · rintro rfl
        exact absurd opens blank.2
    · rw [Token.name, Token.outline, if_neg blank]
      rfl
  start _ := rfl
  stop _ := rfl
  line _ := rfl

theorem outline_tokensFrom {place other : Place} (offset : other.offset = place.offset)
    (line : other.line = place.line) (pieces : List Piece) :
    (tokensFrom other pieces).map Token.outline = (tokensFrom place pieces).map Token.outline := by
  induction pieces generalizing place other with
  | nil => rfl
  | cons piece pieces ih =>
      have offset' : (other.advance piece.text).offset = (place.advance piece.text).offset := by
        rw [Place.offset_advance, Place.offset_advance, offset]
      have line' : (other.advance piece.text).line = (place.advance piece.text).line := by
        rw [Place.line_advance, Place.line_advance, line]
      simp only [tokensFrom]
      split
      · simp only [List.map_cons, ih offset' line', Token.outline, offset, line, offset', line']
        rfl
      · exact ih offset' line'

namespace Frame

variable {frame : Frame} {contents other after : List Char}

theorem byteLength_piece (bytes : byteLength other = byteLength contents) :
    byteLength (frame.piece other).text = byteLength (frame.piece contents).text := by
  simp [piece, bytes]

theorem count_piece (lines : other.count '\n' = contents.count '\n') :
    (frame.piece other).text.count '\n' = (frame.piece contents).text.count '\n' := by
  simp [piece, lines]

/-- A literal is none of the words that can open a namespace. -/
theorem not_mem_openingWords (literal : frame.role = .token .literal) (contents : List Char) :
    String.ofList (frame.piece contents).text ∉ openingWords := by
  intro opens
  cases frame with
  | line | block => cases literal
  | quoted head known quote isQuote closed =>
      have noQuotes : ∀ word ∈ openingWords, '"' ∉ word.toList ∧ '\'' ∉ word.toList := by decide
      have noQuote := noQuotes _ opens
      rw [String.toList_ofList] at noQuote
      have mem : quote ∈ (Frame.quoted head known quote isQuote closed |>.piece contents).text := by
        simp [piece, opening]
      obtain rfl | rfl := isQuote
      · exact noQuote.1 mem
      · exact noQuote.2 mem

theorem outline_tokensFrom (bytes : byteLength other = byteLength contents)
    (lines : other.count '\n' = contents.count '\n') (place : Place) (behind : List Piece) :
    (tokensFrom place (frame.piece other :: behind)).map Token.outline =
      (tokensFrom place (frame.piece contents :: behind)).map Token.outline := by
  have offset : (place.advance (frame.piece other).text).offset =
      (place.advance (frame.piece contents).text).offset := by
    rw [Place.offset_advance, Place.offset_advance, byteLength_piece bytes]
  have line : (place.advance (frame.piece other).text).line =
      (place.advance (frame.piece contents).text).line := by
    rw [Place.line_advance, Place.line_advance, count_piece lines]
  have later := Code.outline_tokensFrom offset line behind
  have role (contents : List Char) : (frame.piece contents).role = frame.role := rfl
  rw [tokensFrom, tokensFrom, role, role]
  cases same : frame.role with
  | token kind =>
      obtain rfl : kind = .literal := by cases frame <;> cases same; rfl
      have first := not_mem_openingWords same other
      have second := not_mem_openingWords same contents
      simp [later, Token.outline, Token.name, first, second, offset, line]
  | comment => exact later
  | lineEnd | blank | directive => cases frame <;> cases same

end Frame

/-! Refilling -/

/-- Whether a number in front of a piece goes on in it: the piece is a quote in front of a letter or
digit, which separates digits. -/
def GoesOnNumber (front : List Piece) (piece : Piece) : Prop :=
  (∃ last ∈ front.getLast?, last.role = .token .number) ∧
    ∃ c rest, piece.text = '\'' :: c :: rest ∧ c.isAlphanum = true

theorem Frame.alike {front : List Piece} {frame : Frame} {contents other after : List Char}
    (ends : frame.EndsBefore after) (apart : ¬ GoesOnNumber front (frame.piece other)) :
    ∀ last ∈ front.getLast?, last.role.Alike ((frame.piece contents).text ++ after)
      ((frame.piece other).text ++ after) := by
  intro last mem
  obtain ⟨c, tail, opens⟩ : ∃ c tail, frame.opening = c :: tail :=
    List.exists_cons_of_ne_nil (by cases frame <;> simp [opening])
  refine ⟨c, tail ++ contents ++ frame.closing ++ after, tail ++ other ++ frame.closing ++ after,
    by simp [piece, opens], by simp [piece, opens], fun number separates => ?_⟩
  exfalso
  simp only [separatesDigits, Bool.and_eq_true, beq_iff_eq] at separates
  obtain ⟨rfl, second⟩ := separates
  rw [Option.any_eq_true] at second
  obtain ⟨d, second, digit⟩ := second
  obtain ⟨rest, second⟩ := List.head?_eq_some_iff.1 second
  rcases inner : tail ++ other ++ frame.closing with _ | ⟨e, inner'⟩
  · have open_ : frame = .quoted [] (.inl rfl) '\'' (.inr rfl) false := by
      cases frame with
      | line | block => simp_all [opening]
      | quoted head known quote isQuote closed =>
          cases closed <;> cases head <;> simp_all [opening, closing]
    subst open_
    rw [inner, List.nil_append] at second
    subst second
    rcases ends with ends | ends
    · cases ends
    · obtain rfl : d = '\n' := by simpa using ends
      exact absurd digit (by decide)
  · rw [inner] at second
    obtain ⟨rfl, -⟩ := List.cons.inj second
    exact apart ⟨⟨last, mem, number⟩, e, inner', by simp [piece, opens, ← inner], digit⟩

def Token.span (token : Token) : Kind × Nat × Nat :=
  (token.kind, token.start.offset, token.stop.offset)

/-- With other contents in one of its frames a text has the same pieces but for that frame. -/
theorem pieces_of_refilled {text : List Char} {front behind : List Piece} {frame : Frame}
    {contents other : List Char} (read : pieces text = front ++ frame.piece contents :: behind)
    (holds : frame.Holds contents) (admits : frame.Admits other)
    (apart : ¬ GoesOnNumber front (frame.piece other)) :
    pieces ((front ++ frame.piece other :: behind).flatMap Piece.text) =
      front ++ frame.piece other :: behind := by
  have onward := piecesFrom_behind read
  rw [List.flatMap_cons] at onward
  have ends := Frame.endsBefore_of_read holds onward rfl
  have swapped := piecesFrom_swap read (Frame.alike ends apart)
  obtain ⟨first, others, after, spelt, read', later⟩ := piecesFrom_eq_cons onward
  have after_eq : after = behind.flatMap Piece.text := by
    rw [← later, join_piecesFrom]
  rw [← List.flatMap_def, Frame.piecesFrom_piece admits ends, ← after_eq] at swapped
  have later' : piecesFrom (frame.role.atLineStart (startBehind true front)) after = behind := later
  rw [pieces, List.flatMap_append, List.flatMap_cons, ← after_eq, swapped, later']

theorem shiftAnswer_zero (answer : Except LocateError (List Definition)) :
    shiftAnswer 0 (List.map (Definition.shift 0 0)) answer = answer := by
  cases answer with
  | ok definitions =>
      have same : Definition.shift 0 0 = id := rfl
      rw [shiftAnswer, same, List.map_id]
  | error error => cases error <;> rfl

/-- What is found depends on the outlines of the tokens only. -/
theorem discover_of_outline {text other : String}
    (same : (tokens other.toList).map Token.outline = (tokens text.toList).map Token.outline) :
    discover other = discover text := by
  have outlined (text : String) :
      definitionsFrom [] [] ((tokens text.toList).map Token.outline) = discover text := by
    have relocated := definitionsFrom_relocate outlining [] [] (tokens text.toList)
    rw [shiftAnswer_zero] at relocated
    exact relocated
  rw [← outlined, same, outlined]

/-- Every comment and every literal in one line that is not raw is a frame around contents. Other contents
of as many bytes and lines that the frame admits leave every token in its place, and the same definitions
are found or the same error, unless a number in front goes on in the quote. -/
theorem discover_of_refilled {text : String} {front behind : List Piece} {piece : Piece}
    (read : pieces text.toList = front ++ piece :: behind) (has : piece.HasContents) :
    (∃ (frame : Frame) (contents : List Char), frame.Holds contents ∧ piece = frame.piece contents) ∧
      ∀ (frame : Frame) (contents other : List Char), frame.Holds contents →
        piece = frame.piece contents → frame.Admits other →
        byteLength other = byteLength contents → other.count '\n' = contents.count '\n' →
        ¬ GoesOnNumber front (frame.piece other) →
        ∃ refilled : String,
          refilled.toList = (front ++ frame.piece other :: behind).flatMap Piece.text ∧
          (tokens refilled.toList).map Token.span = (tokens text.toList).map Token.span ∧
          discover refilled = discover text := by
  constructor
  · have member : piece ∈ pieces text.toList := by
      rw [read]
      exact List.mem_append_right _ List.mem_cons_self
    obtain ⟨lineStart, start, after, opens⟩ := exists_opens_of_mem_piecesFrom member
    exact exists_frame_of_opens opens has
  · rintro frame contents other holds rfl admits bytes lines apart
    let refilled := String.ofList ((front ++ frame.piece other :: behind).flatMap Piece.text)
    have same : (tokens refilled.toList).map Token.outline =
        (tokens text.toList).map Token.outline := by
      rw [String.toList_ofList, tokens, tokens, pieces_of_refilled read holds admits apart, read,
        tokensFrom_append, tokensFrom_append, List.map_append, List.map_append,
        Frame.outline_tokensFrom bytes lines]
    refine ⟨refilled, String.toList_ofList, ?_, discover_of_outline same⟩
    have spans := congrArg (List.map Token.span) same
    rwa [List.map_map, List.map_map] at spans

/-- A closing brace in a string, replaced by an opening one. -/
theorem discover_of_refilled_brace :
    let text := "int f(void) \x7b puts(\"\x7d\"); \x7d\n"
    discover text = .ok [⟨"f", 0, 26, 1⟩] ∧
      ∃ refilled : String, refilled.toList = "int f(void) \x7b puts(\"\x7b\"); \x7d\n".toList ∧
        (tokens refilled.toList).map Token.span = (tokens text.toList).map Token.span ∧
        discover refilled = discover text := by
  intro text
  have found : discover text = .ok [⟨"f", 0, 26, 1⟩] := by decide +kernel
  let frame : Frame := .quoted [] (.inl rfl) '"' (.inl rfl) true
  let front := (pieces text.toList).take 11
  let behind := (pieces text.toList).drop 12
  have read : pieces text.toList = front ++ frame.piece ['}'] :: behind := by decide +kernel
  have has : (frame.piece ['}']).HasContents := by decide
  have apart : ¬ GoesOnNumber front (frame.piece ['{']) := by
    rintro ⟨-, c, rest, spelt, -⟩
    cases spelt
  obtain ⟨refilled, spelt, unmoved⟩ := (discover_of_refilled read has).2 frame ['}'] ['{']
    (by decide +kernel) rfl (by decide +kernel) rfl rfl apart
  exact ⟨found, refilled, spelt.trans (by decide +kernel), unmoved⟩

/-- Behind a number the contents of a character decide whether it is one: with a letter in it the quote
in front separates digits. -/
theorem not_always_refilled :
    ¬ ∀ (text : String) (front behind : List Piece) (frame : Frame) (contents other : List Char),
      pieces text.toList = front ++ frame.piece contents :: behind →
      (frame.piece contents).HasContents → frame.Holds contents → frame.Admits other →
      byteLength other = byteLength contents → other.count '\n' = contents.count '\n' →
      discover (String.ofList ((front ++ frame.piece other :: behind).flatMap Piece.text)) =
        discover text := by
  intro claimed
  have same := claimed "int f(void) \x7b return 1'\x7d'; \x7d\n"
    ((pieces "int f(void) \x7b return 1'\x7d'; \x7d\n".toList).take 12)
    ((pieces "int f(void) \x7b return 1'\x7d'; \x7d\n".toList).drop 13)
    (.quoted [] (.inl rfl) '\'' (.inr rfl) true) ['}'] ['a']
    (by decide +kernel) (by decide) (by decide +kernel) (by decide +kernel) rfl rfl
  revert same
  decide +kernel

end Graft.Code
