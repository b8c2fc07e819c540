import Graft.Code.Token
import Graft.Proofs.Code.Opening
import Graft.Proofs.Text.Slice

/-!
Where the tokens of a text stand and what they hold. Tokens lie one behind the other, each of them the
stretch of the text at its place (`placedIn_tokens`), and none of them is empty: a mark is its
character, and a word holds characters of words only (`spells_of_mem_tokens`).
-/

namespace Graft.Code

open Graft.Text

/-! Places -/

def Token.StandsIn (token : Token) (text : List Char) : Prop :=
  ∃ passed behind, text = passed ++ token.text ++ behind ∧
    token.start = Place.origin.advance passed ∧ token.stop = token.start.advance token.text

structure PlacedIn (text : List Char) (tokens : List Token) : Prop where
  stands : ∀ token ∈ tokens, token.StandsIn text
  ordered : tokens.Pairwise fun first second => first.stop.offset ≤ second.start.offset

namespace Token.StandsIn

variable {token : Token} {text : List Char}

theorem offset_stop (stands : token.StandsIn text) :
    token.stop.offset = token.start.offset + byteLength token.text := by
  obtain ⟨passed, behind, -, -, stop⟩ := stands
  rw [stop, Place.offset_advance]

theorem sliced (stands : token.StandsIn text) :
    slice? text token.start.offset token.stop.offset = some token.text := by
  have length := stands.offset_stop
  obtain ⟨passed, behind, whole, start, -⟩ := stands
  refine slice?_eq_some_iff.2 ⟨passed, behind, whole, ?_, length.symm⟩
  rw [start, Place.offset_advance]
  simp [Place.origin]

/-- The line of a token is one more than the number of line ends before it. -/
theorem line_start (stands : token.StandsIn text) :
    ∃ passed behind, text = passed ++ behind ∧ byteLength passed = token.start.offset ∧
      token.start.line = passed.count '\n' + 1 := by
  obtain ⟨passed, behind, whole, start, -⟩ := stands
  refine ⟨passed, token.text ++ behind, by rw [whole, List.append_assoc], ?_, ?_⟩
  · rw [start, Place.offset_advance]
    simp [Place.origin]
  · rw [start, Place.line_advance, Nat.add_comm]
    rfl

end Token.StandsIn

theorem PlacedIn.sliced {text : List Char} {tokens : List Token} (placed : PlacedIn text tokens) :
    ∀ token ∈ tokens, slice? text token.start.offset token.stop.offset = some token.text :=
  fun token member => (placed.stands token member).sliced

theorem tokensFrom_append (place : Place) (first second : List Piece) :
    tokensFrom place (first ++ second) =
      tokensFrom place first ++ tokensFrom (place.advance (first.flatMap Piece.text)) second := by
  induction first generalizing place with
  | nil => rfl
  | cons piece first ih =>
      rw [List.cons_append, tokensFrom, tokensFrom, List.flatMap_cons, Place.advance_append]
      simp only [ih]
      split <;> rfl

/-- The tokens among pieces lie behind what was passed before the pieces. -/
theorem placedIn_tokensFrom {text passed : List Char} {place : Place} {pieces : List Piece}
    (hplace : place = Place.origin.advance passed)
    (htext : text = passed ++ pieces.flatMap Piece.text) :
    PlacedIn text (tokensFrom place pieces) ∧
      ∀ token ∈ tokensFrom place pieces, place.offset ≤ token.start.offset := by
  induction pieces generalizing passed place with
  | nil => exact ⟨⟨by simp [tokensFrom], by simp [tokensFrom]⟩, by simp [tokensFrom]⟩
  | cons piece rest ih =>
      have hstop : place.advance piece.text = Place.origin.advance (passed ++ piece.text) := by
        rw [hplace, Place.advance_append]
      obtain ⟨placed, behind⟩ := ih hstop (by simp [htext])
      have further : place.offset ≤ (place.advance piece.text).offset := by
        rw [Place.offset_advance]
        omega
      unfold tokensFrom
      dsimp only
      split
      · next kind _ =>
          have stands : Token.StandsIn ⟨kind, piece.text, place, place.advance piece.text⟩ text :=
            ⟨passed, rest.flatMap Piece.text, by simp [htext], hplace, rfl⟩
          refine ⟨⟨List.forall_mem_cons.2 ⟨stands, placed.stands⟩,
            List.pairwise_cons.2 ⟨behind, placed.ordered⟩⟩, List.forall_mem_cons.2 ⟨?_, ?_⟩⟩
          · exact Nat.le_refl _
          · exact fun token member => Nat.le_trans further (behind token member)
      · exact ⟨placed, fun token member => Nat.le_trans further (behind token member)⟩

/-- The tokens of a text stand in it one behind the other. -/
theorem placedIn_tokens (text : List Char) : PlacedIn text (tokens text) := by
  have whole : text = [] ++ (pieces text).flatMap Piece.text := (join_pieces text).symm
  exact (placedIn_tokensFrom rfl whole).1

/-! Spellings -/

def Kind.Spells : Kind → List Char → Prop
  | .word, text => text ≠ [] ∧ ∀ c ∈ text, isWordChar c = true
  | .number, text => text ≠ []
  | .literal, text => text ≠ []
  | .mark c, text => text = [c]

theorem Kind.Spells.ne_nil {kind : Kind} {text : List Char} (spells : kind.Spells text) :
    text ≠ [] := by
  cases kind with
  | word => exact spells.1
  | number => exact spells
  | literal => exact spells
  | mark c => exact spells ▸ List.cons_ne_nil c []

theorem spells_of_opens {lineStart : Bool} {text after : List Char} {piece : Piece} {kind : Kind}
    (opens : Opens lineStart text piece after) (role : piece.role = .token kind) :
    kind.Spells piece.text := by
  cases opens with
  | lineEnd | blank | directive | line | block => cases role
  | quoted | raw =>
      cases role
      simp [Kind.Spells]
  | word some all =>
      cases role
      exact ⟨some, all⟩
  | number some =>
      cases role
      exact some
  | mark =>
      cases role
      rfl

theorem exists_opens_of_mem_piecesFrom {lineStart : Bool} {text : List Char} {piece : Piece}
    (member : piece ∈ piecesFrom lineStart text) :
    ∃ lineStart text after, Opens lineStart text piece after := by
  fun_induction piecesFrom lineStart text with
  | case1 => cases member
  | case2 lineStart c rest first ih =>
      obtain rfl | later := List.mem_cons.1 member
      · exact ⟨lineStart, c :: rest, _, opens_firstPiece lineStart c rest⟩
      · exact ih later

theorem exists_piece_of_mem_tokensFrom {place : Place} {pieces : List Piece} {token : Token}
    (member : token ∈ tokensFrom place pieces) :
    ∃ piece ∈ pieces, piece.role = .token token.kind ∧ piece.text = token.text := by
  induction pieces generalizing place with
  | nil => cases member
  | cons piece rest ih =>
      have later {place : Place} (member : token ∈ tokensFrom place rest) :
          ∃ other ∈ piece :: rest, other.role = .token token.kind ∧ other.text = token.text := by
        obtain ⟨other, hother, same⟩ := ih member
        exact ⟨other, List.mem_cons_of_mem piece hother, same⟩
      unfold tokensFrom at member
      dsimp only at member
      split at member
      · next kind role =>
          obtain rfl | behind := List.mem_cons.1 member
          · exact ⟨piece, List.mem_cons_self, role, rfl⟩
          · exact later behind
      · exact later member

/-- The text of every token is one that its kind may have. -/
theorem spells_of_mem_tokens {text : List Char} {token : Token} (member : token ∈ tokens text) :
    token.kind.Spells token.text := by
  obtain ⟨piece, hpiece, role, same⟩ := exists_piece_of_mem_tokensFrom member
  obtain ⟨lineStart, start, after, opens⟩ := exists_opens_of_mem_piecesFrom hpiece
  exact same ▸ spells_of_opens opens role

/-- Every token of a text ends behind the place where it starts. -/
theorem start_lt_stop_of_mem_tokens {text : List Char} {token : Token}
    (member : token ∈ tokens text) : token.start.offset < token.stop.offset := by
  have some : byteLength token.text ≠ 0 :=
    fun none => (spells_of_mem_tokens member).ne_nil (byteLength_eq_zero_iff.1 none)
  have length := ((placedIn_tokens text).stands token member).offset_stop
  omega

end Graft.Code
