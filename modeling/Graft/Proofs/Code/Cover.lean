import Graft.Proofs.Code.DirectiveLine
import Graft.Proofs.Code.Placed
import Mathlib.Data.List.Pairwise

/-!
What the tokens of a text leave out. They are stretches of the text one behind the other, and a byte that
is in none of them is white space, or in a comment, or in the line of a directive (`PassedOver`); but where
a literal or a line comment in such a line hides the opening of a block comment, what is taken for the
directive goes on behind its line (`Overrun`).
-/

namespace Graft.Code

open Graft.Text

variable {text : List Char} {offset : Nat} {front behind : List Piece} {piece : Piece}

def Token.Covers (token : Token) (offset : Nat) : Prop :=
  token.start.offset ≤ offset ∧ offset < token.stop.offset

def Inside (front stretch : List Char) (offset : Nat) : Prop :=
  byteLength front ≤ offset ∧ offset < byteLength front + byteLength stretch

/-- That a line ends behind each token among some pieces, so that what follows them is the first thing in
its line but for comments and directives. -/
def FirstInLine (front : List Piece) : Prop :=
  ∀ above token line, front = above ++ token :: line → (∃ kind, token.role = .token kind) →
    ∃ ending ∈ line, ending.role = .lineEnd

/-- That a byte is one that a reader of tokens passes over: it is ASCII white space, or in a comment, or in
the line of a directive. -/
inductive PassedOver (text : List Char) (offset : Nat) : Prop
  | blank {before after : List Char} {c : Char} (spelt : text = before ++ c :: after)
      (here : byteLength before = offset) (blank : isBlank c = true) (ascii : c.toNat < 128)
  | comment {front behind : List Piece} {frame : Frame} {contents : List Char}
      (read : pieces text = front ++ frame.piece contents :: behind) (role : frame.role = .comment)
      (holds : frame.Holds contents) (ends : frame.EndsBefore (behind.flatMap Piece.text))
      (inside : Inside (front.flatMap Piece.text) (frame.piece contents).text offset)
  | directive {front behind : List Piece} {taken : List Char}
      (read : pieces text = front ++ ⟨.directive, '#' :: taken⟩ :: behind) (first : FirstInLine front)
      (inside : Inside (front.flatMap Piece.text)
        ('#' :: directiveLine (taken ++ behind.flatMap Piece.text)) offset)

/-- That a byte is in what is taken for a directive, but behind its line, in which a literal or a line
comment hides the opening of a block comment. -/
inductive Overrun (text : List Char) (offset : Nat) : Prop
  | intro {front behind : List Piece} {taken : List Char}
      (read : pieces text = front ++ ⟨.directive, '#' :: taken⟩ :: behind) (first : FirstInLine front)
      (inside : Inside (front.flatMap Piece.text) ('#' :: taken) offset)
      (beyond : byteLength (front.flatMap Piece.text) +
        byteLength ('#' :: directiveLine (taken ++ behind.flatMap Piece.text)) ≤ offset)
      (hidden : ∃ piece ∈ linePieces ['#'] (taken ++ behind.flatMap Piece.text), piece.Hides)

/-! The piece at an offset -/

/-- Every byte of a text is in one of its pieces. -/
theorem exists_piece_at (within : offset < byteLength text) :
    ∃ front piece behind, pieces text = front ++ piece :: behind ∧
      Inside (front.flatMap Piece.text) piece.text offset := by
  have whole (pieces : List Piece) (offset : Nat)
      (within : offset < byteLength (pieces.flatMap Piece.text)) :
      ∃ front piece behind, pieces = front ++ piece :: behind ∧
        Inside (front.flatMap Piece.text) piece.text offset := by
    induction pieces generalizing offset with
    | nil => exact absurd within (Nat.not_lt_zero offset)
    | cons piece rest ih =>
        rw [List.flatMap_cons, byteLength_append] at within
        by_cases here : offset < byteLength piece.text
        · exact ⟨[], piece, rest, rfl, by simp [Inside, here]⟩
        · obtain ⟨front, other, behind, rfl, low, high⟩ := ih (offset - byteLength piece.text) (by omega)
          refine ⟨piece :: front, other, behind, rfl, ?_⟩
          rw [Inside, List.flatMap_cons, byteLength_append]
          omega
  exact whole (pieces text) offset (by rwa [join_pieces])

/-- Each piece is the one with which the text behind the ones before it begins. -/
theorem opens_of_pieces (read : pieces text = front ++ piece :: behind) :
    Opens (startBehind true front) ((piece :: behind).flatMap Piece.text) piece
      (behind.flatMap Piece.text) := by
  obtain ⟨c, rest, after, spelt, first, later⟩ := piecesFrom_eq_cons (piecesFrom_behind read)
  have opens := opens_firstPiece (startBehind true front) c rest
  have whole : behind.flatMap Piece.text = after := by rw [← later, join_piecesFrom]
  rw [first, ← spelt] at opens
  rwa [whole]

theorem startBehind_append (lineStart : Bool) (first second : List Piece) :
    startBehind lineStart (first ++ second) = startBehind (startBehind lineStart first) second :=
  List.foldl_append

/-- Where a directive may open, no token stands before it in its line. -/
theorem firstInLine_of_startBehind (start : startBehind true front = true) : FirstInLine front := by
  rintro above token line rfl ⟨kind, role⟩
  have ended (line : List Piece) (start : startBehind false line = true) :
      ∃ ending ∈ line, ending.role = .lineEnd := by
    induction line with
    | nil => cases start
    | cons piece line ih =>
        have onward : startBehind (piece.role.atLineStart false) line = true := start
        cases role : piece.role with
        | lineEnd => exact ⟨piece, List.mem_cons_self, role⟩
        | _ =>
            rw [role] at onward
            obtain ⟨ending, listed, ends⟩ := ih onward
            exact ⟨ending, List.mem_cons_of_mem _ listed, ends⟩
  apply ended
  have behind : startBehind (token.role.atLineStart (startBehind true above)) line = true := by
    rw [startBehind_append] at start
    exact start
  rwa [role] at behind

theorem covers_of_piece {kind : Kind} (read : pieces text = front ++ piece :: behind)
    (role : piece.role = .token kind)
    (inside : Inside (front.flatMap Piece.text) piece.text offset) :
    ∃ token ∈ tokens text, token.Covers offset := by
  let place := Place.origin.advance (front.flatMap Piece.text)
  have start : place.offset = byteLength (front.flatMap Piece.text) := by
    simp [place, Place.offset_advance, Place.origin]
  refine ⟨⟨kind, piece.text, place, place.advance piece.text⟩, ?_, ?_⟩
  · rw [tokens, read, tokensFrom_append, tokensFrom]
    simp [role, place]
  · have stop : (place.advance piece.text).offset =
        byteLength (front.flatMap Piece.text) + byteLength piece.text := by
      rw [Place.offset_advance, start]
    exact ⟨start ▸ inside.1, stop ▸ inside.2⟩

/-- A piece that is a single character of white space. -/
theorem passedOver_of_gap {c : Char} (read : pieces text = front ++ piece :: behind)
    (spelt : piece.text = [c]) (gap : c = '\n' ∨ isGap c = true)
    (inside : Inside (front.flatMap Piece.text) piece.text offset) : PassedOver text offset := by
  have whole : text = front.flatMap Piece.text ++ c :: behind.flatMap Piece.text := by
    rw [← join_pieces text, read]
    simp [spelt]
  have plain : isBlank c = true ∧ c.toNat < 128 ∧ c.utf8Size = 1 := by
    simp only [isGap, Bool.or_eq_true, beq_iff_eq] at gap
    obtain rfl | (((rfl | rfl) | rfl) | rfl) | rfl := gap <;> decide
  obtain ⟨blank, ascii, single⟩ := plain
  obtain ⟨low, high⟩ := inside
  rw [spelt, byteLength_cons, byteLength_nil, single] at high
  exact .blank whole (by omega) blank ascii

theorem passedOver_of_comment (read : pieces text = front ++ piece :: behind) (role : piece.role = .comment)
    (inside : Inside (front.flatMap Piece.text) piece.text offset) : PassedOver text offset := by
  obtain ⟨frame, contents, holds, rfl⟩ := exists_frame_of_opens (opens_of_pieces read) (.inl role)
  have onward := piecesFrom_behind read
  rw [List.flatMap_cons] at onward
  exact .comment read role holds (Frame.endsBefore_of_read holds onward rfl) inside

/-- A byte of what is taken for a directive is in its line, or something there hides the opening of a
comment. -/
theorem passedOver_or_overrun_of_directive {taken : List Char}
    (read : pieces text = front ++ ⟨.directive, '#' :: taken⟩ :: behind)
    (inside : Inside (front.flatMap Piece.text) ('#' :: taken) offset) :
    PassedOver text offset ∨ Overrun text offset := by
  obtain ⟨start, ends⟩ : startBehind true front = true ∧
      takeDirective false (taken ++ behind.flatMap Piece.text) = (taken, behind.flatMap Piece.text) := by
    have opens := opens_of_pieces read
    rw [List.flatMap_cons, List.cons_append] at opens
    generalize spelt : '#' :: (taken ++ behind.flatMap Piece.text) = whole at opens
    cases opens with
    | directive start ends =>
        obtain ⟨-, rfl⟩ := List.cons.inj spelt
        exact ⟨start, ends⟩
  have first := firstInLine_of_startBehind start
  by_cases within : offset < byteLength (front.flatMap Piece.text) +
      byteLength ('#' :: directiveLine (taken ++ behind.flatMap Piece.text))
  · exact .inl (.directive read first ⟨inside.1, within⟩)
  · right
    refine ⟨read, first, inside, Nat.not_lt.1 within, ?_⟩
    by_contra plain
    -- the directive would end in its line
    have stops := takeDirective_prefix fun piece listed hides => plain ⟨piece, listed, hides⟩
    simp only [ends] at stops
    obtain ⟨rest, whole⟩ := stops
    have longer := congrArg byteLength whole
    rw [byteLength_append] at longer
    obtain ⟨-, high⟩ := inside
    rw [byteLength_cons] at high within
    omega

/-- A byte of a piece that is no token is one to be passed over, or a directive has overrun. -/
theorem passedOver_or_overrun (read : pieces text = front ++ piece :: behind)
    (other : ∀ kind, piece.role ≠ .token kind)
    (inside : Inside (front.flatMap Piece.text) piece.text offset) :
    PassedOver text offset ∨ Overrun text offset := by
  have opens := opens_of_pieces read
  cases role : piece.role with
  | token kind => exact absurd role (other kind)
  | comment => exact .inl (passedOver_of_comment read role inside)
  | directive =>
      obtain ⟨taken, rfl⟩ : ∃ taken, piece = ⟨.directive, '#' :: taken⟩ := by
        generalize (piece :: behind).flatMap Piece.text = whole at opens
        cases opens with
        | directive => exact ⟨_, rfl⟩
        | _ => cases role
      exact passedOver_or_overrun_of_directive read inside
  | lineEnd | blank =>
      obtain ⟨c, spelt, gap⟩ : ∃ c, piece.text = [c] ∧ (c = '\n' ∨ isGap c = true) := by
        generalize (piece :: behind).flatMap Piece.text = whole at opens
        cases opens with
        | lineEnd => exact ⟨'\n', rfl, .inl rfl⟩
        | blank gap => exact ⟨_, rfl, .inr gap⟩
        | _ => cases role
      exact .inl (passedOver_of_gap read spelt gap inside)

/-- At most one token holds a byte. -/
theorem eq_of_covers {first second : Token} (hfirst : first ∈ tokens text) (hsecond : second ∈ tokens text)
    (here : first.Covers offset) (there : second.Covers offset) : first = second := by
  have apart : (tokens text).Pairwise fun a b => ¬(a.Covers offset ∧ b.Covers offset) := by
    refine (placedIn_tokens text).ordered.imp fun ordered both => ?_
    obtain ⟨⟨-, high⟩, low, -⟩ := both
    omega
  have symmetric : Std.Symm fun a b : Token => ¬(a.Covers offset ∧ b.Covers offset) :=
    ⟨fun _ _ apart both => apart both.symm⟩
  by_contra differ
  exact apart.forall hfirst hsecond differ ⟨here, there⟩

/-- The tokens of a text are stretches of it that hold something, between characters and one behind the
other. Each byte is in exactly one of them; or in none, and then it is ASCII white space, or in a comment,
or in the line of a directive, unless a literal or a line comment in that line hides the opening of a
block comment and the directive has overrun. -/
theorem tokens_cover (text : List Char) :
    (∀ token ∈ tokens text, token.text ≠ [] ∧ token.start.offset < token.stop.offset ∧
      token.stop.offset ≤ byteLength text ∧ isBoundary text token.start.offset ∧
      isBoundary text token.stop.offset ∧
      slice? text token.start.offset token.stop.offset = some token.text) ∧
    (tokens text).Pairwise (fun first second => first.stop.offset ≤ second.start.offset) ∧
    ∀ offset < byteLength text,
      (∃! token, token ∈ tokens text ∧ token.Covers offset) ∨
      (∀ token ∈ tokens text, ¬ token.Covers offset) ∧ (PassedOver text offset ∨ Overrun text offset) := by
  refine ⟨fun token member => ?_, (placedIn_tokens text).ordered, fun offset within => ?_⟩
  · have sliced := (placedIn_tokens text).sliced token member
    obtain ⟨start, stop⟩ := isBoundary_of_slice? sliced
    exact ⟨(spells_of_mem_tokens member).ne_nil, start_lt_stop_of_mem_tokens member,
      le_of_isBoundary stop, start, stop, sliced⟩
  · by_cases covered : ∃ token ∈ tokens text, token.Covers offset
    · obtain ⟨token, member, covers⟩ := covered
      exact .inl ⟨token, ⟨member, covers⟩, fun other found =>
        eq_of_covers found.1 member found.2 covers⟩
    · obtain ⟨front, piece, behind, read, inside⟩ := exists_piece_at within
      have other : ∀ kind, piece.role ≠ .token kind :=
        fun kind role => covered (covers_of_piece read role inside)
      exact .inr ⟨fun token member covers => covered ⟨token, member, covers⟩,
        passedOver_or_overrun read other inside⟩

/-- A literal in the line of a directive hides the opening of a comment: the function in the next line is in
no token, though it is in no comment and behind the line of the directive. -/
theorem not_always_covered :
    let text := "#define OPEN \"/*\"\nint f(void) \x7b return 1; \x7d\n".toList
    18 < byteLength text ∧ (∀ token ∈ tokens text, ¬ token.Covers 18) ∧ ¬ PassedOver text 18 ∧
      Overrun text 18 := by
  intro text
  have read : pieces text = [⟨.directive, text⟩] := by decide +kernel
  have none : tokens text = [] := by decide +kernel
  have within : 18 < byteLength text := by decide +kernel
  have alone {front behind : List Piece} {piece : Piece}
      (read' : pieces text = front ++ piece :: behind) :
      front = [] ∧ piece = ⟨.directive, text⟩ ∧ behind = [] := by
    rw [read] at read'
    cases front with
    | nil => simpa using read'.symm
    | cons first front => simp at read'
  have code : ¬ PassedOver text 18 := by
    intro passed
    cases passed with
    | @blank before after c spelt here blank =>
        have cut : cut? text 18 = some (before, c :: after) := cut?_eq_some_iff.2 ⟨spelt, here⟩
        have first : (cut? text 18).map (fun found => found.2.head?) = some (some 'i') := by
          decide +kernel
        rw [cut] at first
        obtain rfl : c = 'i' := by simpa using first
        exact absurd blank (by decide)
    | @comment _ _ frame _ read' role =>
        obtain ⟨-, same, -⟩ := alone read'
        have other : frame.role = .directive := congrArg Piece.role same
        rw [role] at other
        cases other
    | @directive _ _ taken read' first inside =>
        obtain ⟨rfl, same, rfl⟩ := alone read'
        have line : byteLength ('#' :: directiveLine text.tail) = 17 := by decide +kernel
        obtain rfl : taken = text.tail := congrArg (fun piece => piece.text.tail) same
        obtain ⟨-, high⟩ := inside
        rw [List.flatMap_nil, List.append_nil, line] at high
        exact absurd high (by decide)
  refine ⟨within, by simp [none], code, ?_⟩
  have whole : pieces text = [] ++ ⟨.directive, text⟩ :: [] := read
  have inside : Inside [] text 18 := ⟨Nat.zero_le _, by simpa using within⟩
  exact (passedOver_or_overrun whole (fun kind same => nomatch same) inside).resolve_left code

end Graft.Code
