import Graft.Proofs.Code.Endings
import Graft.Proofs.Code.Opening
import Mathlib.Data.List.Basic

/-!
How far a piece looks ahead. Which piece a text begins with depends on what stands behind the piece
only through the first character there, and for a number also through the one behind a quote that might
separate digits (`firstPiece_swap`). So the pieces in front of a point stay what they are when another
text follows there that begins alike (`piecesFrom_swap`), and behind a line end that no comment, literal
or directive holds a text is read as if it stood alone (`pieces_append`).
-/

namespace Graft.Code

open Graft.Text

variable {text taken rest : List Char} {c : Char}

/-! The readers -/

theorem stops_of_takeWhile {kind : Char → Bool} (h : takeWhile kind text = (taken, c :: rest)) :
    kind c = false := by
  induction text generalizing taken with
  | nil => simp [takeWhile] at h
  | cons first others ih =>
      rw [takeWhile] at h
      split at h
      · obtain ⟨-, later⟩ := Prod.mk.inj h
        exact ih (Prod.ext rfl later)
      · next other =>
          obtain ⟨-, same⟩ := Prod.mk.inj h
          obtain ⟨rfl, -⟩ := List.cons.inj same
          simpa using other

theorem takeWhile_swap {kind : Char → Bool} (h : takeWhile kind text = (taken, c :: rest))
    (rest' : List Char) : takeWhile kind (taken ++ c :: rest') = (taken, c :: rest') := by
  have all : ∀ c ∈ taken, kind c = true := by
    intro d mem
    have taken := @of_mem_takeWhile kind text d
    rw [h] at taken
    exact taken mem
  exact takeWhile_append_cons all (stops_of_takeWhile h) rest'

theorem suffix_of_takeThrough {closing : List Char} (h : takeThrough closing text = (taken, c :: rest)) :
    closing <:+ taken := by
  induction text generalizing taken with
  | nil => simp [takeThrough] at h
  | cons first others ih =>
      rw [takeThrough] at h
      split at h
      · next starts =>
          obtain ⟨rfl, -⟩ := Prod.mk.inj h
          rw [List.isPrefixOf_iff_prefix] at starts
          exact ⟨[], List.prefix_iff_eq_take.1 starts⟩
      · obtain ⟨rfl, later⟩ := Prod.mk.inj h
        exact (ih (Prod.ext rfl later)).trans (List.suffix_cons first _)

theorem takeThrough_swap {closing : List Char} (h : takeThrough closing text = (taken, c :: rest))
    (rest' : List Char) : takeThrough closing (taken ++ c :: rest') = (taken, c :: rest') := by
  induction text generalizing taken with
  | nil => simp [takeThrough] at h
  | cons first others ih =>
      rw [takeThrough] at h
      split at h
      · next starts =>
          obtain ⟨rfl, -⟩ := Prod.mk.inj h
          rw [List.isPrefixOf_iff_prefix] at starts
          rw [← List.prefix_iff_eq_take.1 starts]
          have again : closing.isPrefixOf (closing ++ c :: rest') = true := by
            rw [List.isPrefixOf_iff_prefix]
            exact List.prefix_append closing (c :: rest')
          cases closing with
          | nil => simp [takeThrough]
          | cons d closing =>
              rw [List.cons_append] at again
              simp [takeThrough, again]
      · next absent =>
          obtain ⟨rfl, later⟩ := Prod.mk.inj h
          have inner : takeThrough closing others = ((takeThrough closing others).1, c :: rest) :=
            Prod.ext rfl later
          have whole := takeThrough_append closing others
          rw [later] at whole
          have long := (suffix_of_takeThrough inner).length_le
          -- An occurrence that starts here would end in the part that both texts share.
          have still : closing.isPrefixOf
              (first :: ((takeThrough closing others).1 ++ c :: rest')) = false := by
            rw [Bool.eq_false_iff]
            intro starts
            rw [List.isPrefixOf_iff_prefix, ← List.cons_append] at starts
            have inFront := List.prefix_of_prefix_length_le starts (List.prefix_append _ _)
              (by simp only [List.length_cons]; omega)
            apply absent
            rw [List.isPrefixOf_iff_prefix, ← whole, ← List.cons_append]
            exact inFront.trans (List.prefix_append _ _)
          rw [List.cons_append, takeThrough, still, ih inner]
          rfl

theorem takeBlock_swap (h : takeBlock text = (taken, c :: rest)) (rest' : List Char) :
    takeBlock (taken ++ c :: rest') = (taken, c :: rest') := by
  rw [takeBlock_eq_takeThrough] at h ⊢
  exact takeThrough_swap h rest'

theorem takeRaw_swap (h : takeRaw text = (taken, c :: rest)) (rest' : List Char) :
    takeRaw (taken ++ c :: rest') = (taken, c :: rest') := by
  unfold takeRaw at h
  split at h
  · next delimiter body opened =>
      simp only at h
      obtain ⟨rfl, later⟩ := Prod.mk.inj h
      have closed := takeThrough_swap (Prod.ext rfl later) rest'
      have opened' := takeWhile_swap opened
        ((takeThrough (')' :: delimiter ++ ['"']) body).1 ++ c :: rest')
      rw [List.append_assoc, List.cons_append, takeRaw, opened']
      simp only [closed]
  · next delimiter after noParen opened =>
      obtain ⟨rfl, rfl⟩ := Prod.mk.inj h
      have paren : c = '(' := by simpa using stops_of_takeWhile opened
      subst paren
      exact (noParen _ rfl).elim

theorem ne_backslash (notLast : c = '\\' → rest = [] → False)
    (noEscape : ∀ d behind, c = '\\' → rest = d :: behind → False) : c ≠ '\\' := by
  rintro rfl
  cases rest with
  | nil => exact notLast rfl rfl
  | cons d behind => exact noEscape d behind rfl rfl

theorem takeQuoted_swap {quote : Char} (h : takeQuoted quote text = (taken, c :: rest))
    (rest' : List Char) : takeQuoted quote (taken ++ c :: rest') = (taken, c :: rest') := by
  fun_induction takeQuoted quote text generalizing taken with
  | case1 => cases h
  | case2 => cases h
  | case3 d others inner after same ih =>
      obtain ⟨rfl, rfl⟩ := Prod.mk.inj h
      simp [takeQuoted, ih same]
  | case4 others notLast noEscape =>
      obtain ⟨rfl, same⟩ := Prod.mk.inj h
      obtain ⟨rfl, rfl⟩ := List.cons.inj same
      simp [takeQuoted]
  | case5 others notLast noEscape inLine =>
      obtain ⟨rfl, rfl⟩ := Prod.mk.inj h
      have noSlash := ne_backslash notLast noEscape
      simp [takeQuoted, inLine, noSlash]
  | case6 d others notLast noEscape inLine open_ inner after same ih =>
      obtain ⟨rfl, rfl⟩ := Prod.mk.inj h
      have whole := takeQuoted_append quote others
      rw [same] at whole
      have noSlash := ne_backslash notLast noEscape
      simp [takeQuoted, inLine, open_, noSlash, ih same]

theorem stops_of_takeDirective {inComment : Bool}
    (h : takeDirective inComment text = (taken, c :: rest)) : c = '\n' := by
  fun_induction takeDirective inComment text generalizing taken with
  | case6 =>
      obtain ⟨-, same⟩ := Prod.mk.inj h
      exact (List.cons.inj same).1.symm
  | _ => simp_all

/-- Texts that agree up to a character begin with the same character. -/
theorem exists_eq_cons {front other : List Char} {d : Char} (same : front ++ c :: other = d :: text)
    (rest : List Char) : ∃ behind, front ++ c :: rest = d :: behind := by
  cases front with
  | nil =>
      obtain ⟨rfl, -⟩ := List.cons.inj same
      exact ⟨rest, rfl⟩
  | cons e front =>
      obtain ⟨rfl, -⟩ := List.cons.inj same
      exact ⟨front ++ c :: rest, rfl⟩

theorem takeDirective_swap {inComment : Bool}
    (h : takeDirective inComment text = (taken, c :: rest)) (rest' : List Char) :
    takeDirective inComment (taken ++ c :: rest') = (taken, c :: rest') := by
  obtain rfl := stops_of_takeDirective h
  fun_induction takeDirective inComment text generalizing taken with
  | case1 => cases h
  | case2 others inner after same ih =>
      obtain ⟨rfl, rfl⟩ := Prod.mk.inj h
      simp [takeDirective, ih same]
  | case4 inComment outside others inner after same ih
  | case5 inComment outside others inner after same ih
  | case7 inComment outside others inner after same ih =>
      obtain ⟨rfl, rfl⟩ := Prod.mk.inj h
      simp [takeDirective, outside, ih same]
  | case6 inComment outside others =>
      obtain ⟨rfl, -⟩ := Prod.mk.inj h
      simp [takeDirective, outside]
  | case3 d others notClosed inner after same ih =>
      obtain ⟨rfl, rfl⟩ := Prod.mk.inj h
      have whole : inner ++ '\n' :: rest = others := by
        have whole := takeDirective_append true others
        rwa [same] at whole
      rw [List.cons_append, takeDirective.eq_def]
      simp only [if_true]
      split
      · next closed =>
          obtain ⟨behind, here⟩ := exists_eq_cons closed rest
          exact (notClosed behind rfl (whole.symm.trans here)).elim
      · simp [ih same]
  | case8 inComment outside d others noPair noTriple inLine notOpened inner after same ih =>
      obtain ⟨rfl, rfl⟩ := Prod.mk.inj h
      have whole : inner ++ '\n' :: rest = others := by
        have whole := takeDirective_append false others
        rwa [same] at whole
      rw [List.cons_append, takeDirective.eq_def]
      simp only [outside, Bool.false_eq_true, if_false]
      split
      · next pair =>
          obtain ⟨behind, here⟩ := exists_eq_cons pair rest
          exact (noPair behind rfl (whole.symm.trans here)).elim
      · next triple =>
          cases inner with
          | nil => cases triple
          | cons e inner =>
              obtain ⟨rfl, pair⟩ := List.cons.inj triple
              obtain ⟨behind, here⟩ := exists_eq_cons pair rest
              exact (noTriple behind rfl (by rw [← whole, List.cons_append, here])).elim
      · exact (inLine rfl).elim
      · next opened =>
          obtain ⟨behind, here⟩ := exists_eq_cons opened rest
          exact (notOpened behind rfl (whole.symm.trans here)).elim
      · simp [ih same]

theorem stops_of_takeNumber (h : takeNumber text = (taken, c :: rest)) :
    (c.isAlphanum || c == '.' || c == '_') = false ∧ separatesDigits c rest = false := by
  induction text generalizing taken with
  | nil => cases h
  | cons first others ih =>
      rw [takeNumber] at h
      split at h
      · obtain ⟨-, later⟩ := Prod.mk.inj h
        exact ih (Prod.ext rfl later)
      · next other =>
          obtain ⟨-, same⟩ := Prod.mk.inj h
          obtain ⟨rfl, rfl⟩ := List.cons.inj same
          simpa using other

/-- A number also looks at the character behind a quote, whether the quote separates digits. -/
theorem takeNumber_swap (h : takeNumber text = (taken, c :: rest)) {rest' : List Char}
    (apart : separatesDigits c rest' = true → separatesDigits c rest = true) :
    takeNumber (taken ++ c :: rest') = (taken, c :: rest') := by
  induction text generalizing taken with
  | nil => cases h
  | cons first others ih =>
      have stops := stops_of_takeNumber h
      rw [takeNumber] at h
      split at h
      · next goesOn =>
          obtain ⟨rfl, later⟩ := Prod.mk.inj h
          have whole := takeNumber_append others
          rw [later] at whole
          have still : separatesDigits first others =
              separatesDigits first ((takeNumber others).1 ++ c :: rest') := by
            generalize (takeNumber others).1 = inner at whole
            subst whole
            cases inner <;> simp [separatesDigits]
          rw [still] at goesOn
          rw [List.cons_append, takeNumber, if_pos goesOn, ih (Prod.ext rfl later)]
      · obtain ⟨rfl, same⟩ := Prod.mk.inj h
        obtain ⟨rfl, rfl⟩ := List.cons.inj same
        rw [List.nil_append, takeNumber, if_neg]
        rw [stops.1, Bool.false_or]
        exact fun separates => absurd (apart separates) (by simp [stops.2])

theorem takeWord_swap {kind : Kind} (h : takeWord text = (kind, taken, c :: rest))
    (rest' : List Char) : takeWord (taken ++ c :: rest') = (kind, taken, c :: rest') := by
  unfold takeWord at h
  split at h
  · next word quote behind read =>
      simp only at h
      split at h
      · next raw =>
          obtain ⟨rfl, inner⟩ := Prod.mk.inj h
          obtain ⟨rfl, later⟩ := Prod.mk.inj inner
          have read' := takeWhile_swap read ((takeRaw behind).1 ++ c :: rest')
          have raw' := takeRaw_swap (Prod.ext rfl later) rest'
          rw [List.append_assoc, List.cons_append, takeWord, read']
          simp only [if_pos raw, raw']
      · next notRaw =>
          split at h
          · next encoded =>
              obtain ⟨rfl, inner⟩ := Prod.mk.inj h
              obtain ⟨rfl, later⟩ := Prod.mk.inj inner
              have read' := takeWhile_swap read ((takeQuoted quote behind).1 ++ c :: rest')
              have quoted' := takeQuoted_swap (Prod.ext rfl later) rest'
              rw [List.append_assoc, List.cons_append, takeWord, read']
              simp only [if_neg notRaw, if_pos encoded, quoted']
          · next plain =>
              obtain ⟨rfl, inner⟩ := Prod.mk.inj h
              obtain ⟨rfl, same⟩ := Prod.mk.inj inner
              obtain ⟨rfl, rfl⟩ := List.cons.inj same
              rw [takeWord, takeWhile_swap read rest']
              simp only [if_neg notRaw, if_neg plain]
  · cases (Prod.mk.inj (Prod.mk.inj h).2).2

/-! Pieces -/

/-- Whether two texts begin alike for a piece of a role in front of them: with the same character, and
for a number not with a quote that separates digits in the second one only. -/
def Role.Alike (role : Role) (after other : List Char) : Prop :=
  ∃ c rest rest', after = c :: rest ∧ other = c :: rest' ∧
    (role = .token .number → separatesDigits c rest' = true → separatesDigits c rest = true)

/-- The first piece of a text stays the same in front of another text that begins alike. -/
theorem firstPiece_swap {lineStart : Bool} {first : Char} {others after other : List Char}
    {piece : Piece} (h : firstPiece lineStart first others = (piece, after))
    (alike : piece.role.Alike after other) :
    ∃ tail, piece.text = first :: tail ∧ firstPiece lineStart first (tail ++ other) = (piece, other) := by
  obtain ⟨c, rest, rest', rfl, rfl, apart⟩ := alike
  have whole := firstPiece_append lineStart first others
  have some := firstPiece_ne_nil lineStart first others
  rw [h] at whole some
  obtain ⟨d, tail, spelt⟩ := List.exists_cons_of_ne_nil some
  simp only at whole spelt
  rw [spelt] at whole
  obtain ⟨rfl, others_eq⟩ : d = first ∧ tail ++ c :: rest = others := List.cons.inj whole
  refine ⟨tail, spelt, ?_⟩
  have head : (tail ++ c :: rest').head? = others.head? := by
    rw [← others_eq]
    cases tail <;> rfl
  unfold firstPiece at h ⊢
  rw [head]
  -- One case for each kind of piece: its reader stops before the other text where it stopped before.
  split at h
  · next isEnd =>
      obtain ⟨rfl, -⟩ := Prod.mk.inj h
      obtain rfl : tail = [] := by simpa using spelt.symm
      rw [if_pos isEnd, List.nil_append]
  next inLine =>
  rw [if_neg inLine]
  split at h
  · next gap =>
      obtain ⟨rfl, -⟩ := Prod.mk.inj h
      obtain rfl : tail = [] := by simpa using spelt.symm
      rw [if_pos gap, List.nil_append]
  next full =>
  rw [if_neg full]
  split at h
  · next hash =>
      rcases read : takeDirective false others with ⟨taken, behind⟩
      rw [read] at h
      obtain ⟨rfl, rfl⟩ := Prod.mk.inj h
      obtain ⟨-, rfl⟩ := List.cons.inj spelt
      rw [if_pos hash, takeDirective_swap read rest']
  next noHash =>
  rw [if_neg noHash]
  split at h
  · next line =>
      rcases read : takeWhile (· != '\n') others with ⟨taken, behind⟩
      rw [read] at h
      obtain ⟨rfl, rfl⟩ := Prod.mk.inj h
      obtain ⟨-, rfl⟩ := List.cons.inj spelt
      rw [if_pos line, takeWhile_swap read rest']
  next noLine =>
  rw [if_neg noLine]
  split at h
  · next block =>
      rcases read : takeBlock (others.drop 1) with ⟨taken, behind⟩
      rw [read] at h
      obtain ⟨rfl, rfl⟩ := Prod.mk.inj h
      obtain ⟨-, rfl⟩ := List.cons.inj spelt
      rw [if_pos block, List.cons_append, List.drop_succ_cons, List.drop_zero,
        takeBlock_swap read rest']
  next noBlock =>
  rw [if_neg noBlock]
  split at h
  · next isQuote =>
      rcases read : takeQuoted d others with ⟨taken, behind⟩
      rw [read] at h
      obtain ⟨rfl, rfl⟩ := Prod.mk.inj h
      obtain ⟨-, rfl⟩ := List.cons.inj spelt
      rw [if_pos isQuote, takeQuoted_swap read rest']
  next noQuote =>
  rw [if_neg noQuote]
  split at h
  · next starts =>
      rcases read : takeWord (d :: others) with ⟨kind, taken, behind⟩
      rw [read] at h
      obtain ⟨rfl, rfl⟩ := Prod.mk.inj h
      subst spelt
      rw [if_pos starts, ← List.cons_append, takeWord_swap read rest']
  next noWord =>
  rw [if_neg noWord]
  split at h
  · next digit =>
      rcases read : takeNumber (d :: others) with ⟨taken, behind⟩
      rw [read] at h
      obtain ⟨rfl, rfl⟩ := Prod.mk.inj h
      subst spelt
      rw [if_pos digit, ← List.cons_append, takeNumber_swap read (apart rfl)]
  · next noDigit =>
      obtain ⟨rfl, -⟩ := Prod.mk.inj h
      obtain rfl : tail = [] := by simpa using spelt.symm
      rw [if_neg noDigit, List.nil_append]

def startBehind (lineStart : Bool) (front : List Piece) : Bool :=
  front.foldl (fun before piece => piece.role.atLineStart before) lineStart

theorem text_ne_nil_of_mem_piecesFrom {lineStart : Bool} {piece : Piece}
    (member : piece ∈ piecesFrom lineStart text) : piece.text ≠ [] := by
  fun_induction piecesFrom lineStart text with
  | case1 => cases member
  | case2 lineStart c rest first ih =>
      obtain rfl | later := List.mem_cons.1 member
      · exact firstPiece_ne_nil lineStart c rest
      · exact ih later

theorem piecesFrom_eq_cons {lineStart : Bool} {piece : Piece} {behind : List Piece}
    (h : piecesFrom lineStart text = piece :: behind) :
    ∃ first others after, text = first :: others ∧ firstPiece lineStart first others = (piece, after) ∧
      piecesFrom (piece.role.atLineStart lineStart) after = behind := by
  cases text with
  | nil => simp [piecesFrom] at h
  | cons first others =>
      rw [piecesFrom] at h
      obtain ⟨rfl, rfl⟩ := List.cons.inj h
      exact ⟨first, others, _, rfl, rfl, rfl⟩

/-- Behind some of its pieces a text has the remaining ones. -/
theorem piecesFrom_behind {lineStart : Bool} {front behind : List Piece}
    (h : piecesFrom lineStart text = front ++ behind) :
    piecesFrom (startBehind lineStart front) (behind.flatMap Piece.text) = behind := by
  induction front generalizing lineStart text with
  | nil =>
      rw [List.nil_append] at h
      rw [← h, join_piecesFrom]
      rfl
  | cons piece front ih =>
      obtain ⟨first, others, after, rfl, -, later⟩ := piecesFrom_eq_cons h
      exact ih later

theorem Role.alike_append (role : Role) {between : List Char} (some : between ≠ []) (c : Char)
    (rest rest' : List Char) : role.Alike (between ++ c :: rest) (between ++ c :: rest') := by
  obtain ⟨d, between, rfl⟩ := List.exists_cons_of_ne_nil some
  refine ⟨d, between ++ c :: rest, between ++ c :: rest', rfl, rfl, fun _ => ?_⟩
  cases between <;> simp [separatesDigits]

/-- The pieces in front of a point stay the same when another text follows there that begins alike. -/
theorem piecesFrom_swap {lineStart : Bool} {front behind : List Piece} {other : List Char}
    (h : piecesFrom lineStart text = front ++ behind)
    (alike : ∀ last ∈ front.getLast?, last.role.Alike (behind.flatMap Piece.text) other) :
    piecesFrom lineStart (front.flatMap Piece.text ++ other) =
      front ++ piecesFrom (startBehind lineStart front) other := by
  induction front generalizing lineStart text with
  | nil => rfl
  | cons piece front ih =>
      rw [List.cons_append] at h
      obtain ⟨first, others, after, rfl, read, later⟩ := piecesFrom_eq_cons h
      have whole : front.flatMap Piece.text ++ behind.flatMap Piece.text = after := by
        rw [← List.flatMap_append, ← later, join_piecesFrom]
      have alikeHere : piece.role.Alike after (front.flatMap Piece.text ++ other) := by
        cases front with
        | nil => exact whole ▸ alike piece rfl
        | cons second front =>
            rw [List.getLast?_cons_cons] at alike
            have ends := List.getLast?_eq_some_getLast (List.cons_ne_nil second front)
            obtain ⟨c, rest, rest', same, rfl, -⟩ := alike _ ends
            rw [← whole, same]
            refine Role.alike_append _ ?_ c rest rest'
            have member : second ∈ piecesFrom (piece.role.atLineStart lineStart) after := by
              rw [later]
              exact List.mem_cons_self
            simp [text_ne_nil_of_mem_piecesFrom member]
      obtain ⟨tail, spelt, read'⟩ := firstPiece_swap read alikeHere
      rw [List.flatMap_cons, spelt, List.append_assoc, List.cons_append, piecesFrom, read']
      simp only [List.cons_append, List.cons.injEq, true_and]
      refine ih later fun last ends => alike last ?_
      rw [List.getLast?_cons, Option.mem_def.1 ends]
      rfl

/-! Lines -/

/-- Whether a text ends with a line end that no comment, literal or directive holds. -/
def EndsLine (text : List Char) : Prop := ∃ front, pieces text = front ++ [⟨.lineEnd, ['\n']⟩]

/-- Behind a line end of its own a text is read as if it stood alone. -/
theorem pieces_append (ends : EndsLine text) (other : List Char) :
    pieces (text ++ other) = pieces text ++ pieces other := by
  obtain ⟨front, read⟩ := ends
  have whole := join_pieces text
  have alike : ∀ last ∈ front.getLast?, last.role.Alike ['\n'] ('\n' :: other) :=
    fun last _ => ⟨'\n', [], other, rfl, rfl, fun _ separates => by simp [separatesDigits] at separates⟩
  have swapped := piecesFrom_swap read alike
  rw [read] at whole ⊢
  rw [← whole]
  simpa [pieces, piecesFrom, firstPiece, Role.atLineStart] using swapped

end Graft.Code
