import Graft.Code.Mask
import Graft.Code.Piece

/-!
Where comments, literals and directives end. The reader of pieces and the masking look for these ends
in different ways; where the masking finds one, they agree. Only the line end of a directive they see
differently: inside a comment it ends the directive for the masking unless a backslash stands before it
(`directivePart_of_isSpliced`).
-/

namespace Graft.Code

open Graft.Text

/-! Comments and literals -/

theorem linePart_eq_takeWhile (text : List Char) : linePart text = takeWhile (· != '\n') text := by
  induction text with
  | nil => rfl
  | cons c rest ih =>
      by_cases ends : c = '\n'
      · simp [linePart, takeWhile, ends]
      · simp [linePart, takeWhile, ends, ih]

theorem dropHead?_eq_none_iff {needle text : List Char} :
    dropHead? needle text = none ↔ needle.isPrefixOf text = false := by
  fun_induction dropHead? needle text with
  | case1 => simp
  | case2 => simp
  | case3 n needle text ih => simpa using ih
  | case4 n needle c text differ => simp [List.isPrefixOf, differ]

theorem takeThrough_of_find? {needle text before after : List Char}
    (found : find? needle text = some (before, after)) (some : needle ≠ []) :
    takeThrough needle text = (before ++ needle, after) := by
  induction text generalizing before with
  | nil => simp [find?, some] at found
  | cons c rest ih =>
      rw [find?] at found
      rw [takeThrough]
      split at found
      · next behind here =>
          obtain ⟨rfl, rfl⟩ := Prod.mk.inj (Option.some.inj found)
          have whole := eq_append_of_dropHead? here
          have starts : needle.isPrefixOf (c :: rest) = true := by
            rw [whole, List.isPrefixOf_iff_prefix]
            exact List.prefix_append needle behind
          rw [if_pos starts, whole]
          simp
      · next absent =>
          rw [dropHead?_eq_none_iff] at absent
          obtain ⟨⟨first, behind⟩, later, same⟩ := Option.map_eq_some_iff.1 found
          obtain ⟨rfl, rfl⟩ := Prod.mk.inj same
          simp [absent, ih later]

theorem takeBlock_eq_takeThrough (text : List Char) : takeBlock text = takeThrough ['*', '/'] text := by
  fun_induction takeBlock text with
  | case1 => rfl
  | case2 rest => simp [takeThrough]
  | case3 c rest other taken behind same ih =>
      have absent : ['*', '/'].isPrefixOf (c :: rest) = false := by
        rw [Bool.eq_false_iff]
        intro starts
        obtain ⟨behind, whole⟩ := List.isPrefixOf_iff_prefix.1 starts
        simp only [List.cons_append, List.nil_append, List.cons.injEq] at whole
        exact other behind whole.1.symm whole.2.symm
      rw [takeThrough, absent, ← ih, same]
      rfl

theorem takeQuoted_of_closed {quote : Char} {text content after : List Char}
    (closed : quotedPart quote text = (content, quote :: after, true)) :
    takeQuoted quote text = (content ++ [quote], after) := by
  fun_induction quotedPart quote text generalizing content with
  | case1 => cases closed
  | case2 => cases closed
  | case3 c rest part tail flag same ih =>
      simp only [Prod.mk.injEq] at closed
      obtain ⟨rfl, rfl, rfl⟩ := closed
      simp [takeQuoted, ih same]
  | case4 => cases closed
  | case5 rest notLast noEscape inLine =>
      simp only [Prod.mk.injEq, List.cons.injEq, and_true, true_and] at closed
      obtain ⟨rfl, rfl⟩ := closed
      simp [takeQuoted, inLine]
  | case6 c rest notLast noEscape inLine open_ part tail flag same ih =>
      simp only [Prod.mk.injEq] at closed
      obtain ⟨rfl, rfl, rfl⟩ := closed
      simp [takeQuoted, inLine, open_, ih same]

theorem takeWhile_of_rawDelimiter? {room : Nat} {text delimiter body : List Char}
    (found : rawDelimiter? room text = some (delimiter, body)) :
    takeWhile (· != '(') text = (delimiter, '(' :: body) := by
  fun_induction rawDelimiter? room text generalizing delimiter with
  | case1 => cases found
  | case2 => cases found
  | case3 =>
      obtain ⟨rfl, rfl⟩ := Prod.mk.inj (Option.some.inj found)
      simp [takeWhile]
  | case4 room c rest full other ih =>
      obtain ⟨⟨first, behind⟩, later, same⟩ := Option.map_eq_some_iff.1 found
      obtain ⟨rfl, rfl⟩ := Prod.mk.inj same
      simp [takeWhile, other, ih later]

theorem takeRaw_of_find? {room : Nat} {text delimiter body content after : List Char}
    (opened : rawDelimiter? room text = some (delimiter, body))
    (closed : find? (')' :: delimiter ++ ['"']) body = some (content, after)) :
    takeRaw text = (delimiter ++ '(' :: content ++ ')' :: delimiter ++ ['"'], after) := by
  rw [takeRaw, takeWhile_of_rawDelimiter? opened]
  simp only [takeThrough_of_find? closed (by simp)]
  simp

/-! Directives -/

/-- Whether every line end in a stretch stands behind a backslash that continues the line. -/
def isSpliced : List Char → Bool
  | [] => true
  | '\\' :: '\n' :: rest => isSpliced rest
  | '\\' :: '\r' :: '\n' :: rest => isSpliced rest
  | c :: rest => c != '\n' && isSpliced rest

theorem of_isSpliced_cons {c : Char} {rest taken after : List Char} (whole : taken ++ after = rest)
    (noPair : ∀ behind, c = '\\' → rest = '\n' :: behind → False)
    (noTriple : ∀ behind, c = '\\' → rest = '\r' :: '\n' :: behind → False)
    (continued : isSpliced (c :: taken) = true) : c ≠ '\n' ∧ isSpliced taken = true := by
  subst whole
  unfold isSpliced at continued
  split at continued
  · next same => cases same
  · next behind same =>
      obtain ⟨rfl, rfl⟩ := List.cons.inj same
      exact (noPair _ rfl rfl).elim
  · next behind same =>
      obtain ⟨rfl, rfl⟩ := List.cons.inj same
      exact (noTriple _ rfl rfl).elim
  · next first behind _ _ same =>
      obtain ⟨rfl, rfl⟩ := List.cons.inj same
      simpa using continued

theorem takeDirective_pair (inComment : Bool) (rest : List Char) :
    takeDirective inComment ('\\' :: '\n' :: rest) =
      ('\\' :: '\n' :: (takeDirective inComment rest).1, (takeDirective inComment rest).2) := by
  cases inComment <;> simp [takeDirective]

theorem takeDirective_triple (inComment : Bool) (rest : List Char) :
    takeDirective inComment ('\\' :: '\r' :: '\n' :: rest) =
      ('\\' :: '\r' :: '\n' :: (takeDirective inComment rest).1,
        (takeDirective inComment rest).2) := by
  cases inComment <;> simp [takeDirective]

/-- Inside a line a directive goes on with the next character, or with the two that open or close a
comment. -/
theorem takeDirective_cons (inComment : Bool) {c : Char} {rest : List Char} (inLine : c ≠ '\n')
    (noPair : ∀ behind, c = '\\' → rest = '\n' :: behind → False)
    (noTriple : ∀ behind, c = '\\' → rest = '\r' :: '\n' :: behind → False) :
    takeDirective inComment (c :: rest) =
        (c :: (takeDirective inComment rest).1, (takeDirective inComment rest).2) ∨
      ∃ second behind, rest = second :: behind ∧ (second = '*' ∨ second = '/') ∧
        takeDirective inComment (c :: rest) =
          (c :: second :: (takeDirective (!inComment) behind).1,
            (takeDirective (!inComment) behind).2) := by
  cases inComment with
  | true =>
      by_cases closes : c = '*' ∧ rest.head? = some '/'
      · obtain ⟨rfl, second⟩ := closes
        obtain ⟨behind, rfl⟩ := List.head?_eq_some_iff.1 second
        exact .inr ⟨_, _, rfl, .inr rfl, by simp [takeDirective]⟩
      · left
        rw [takeDirective.eq_def]
        simp only [if_true]
        split
        · exact absurd ⟨rfl, rfl⟩ closes
        · rfl
  | false =>
      by_cases opens : c = '/' ∧ rest.head? = some '*'
      · obtain ⟨rfl, second⟩ := opens
        obtain ⟨behind, rfl⟩ := List.head?_eq_some_iff.1 second
        exact .inr ⟨_, _, rfl, .inl rfl, by simp [takeDirective]⟩
      · left
        rw [takeDirective.eq_def]
        simp only [Bool.false_eq_true, if_false]
        split
        · next behind => exact (noPair _ rfl rfl).elim
        · next behind => exact (noTriple _ rfl rfl).elim
        · exact absurd rfl inLine
        · exact absurd ⟨rfl, rfl⟩ opens
        · rfl

/-- A directive without a line end that its comments alone carry on ends alike for both. -/
theorem directivePart_of_isSpliced (inComment : Bool) (text : List Char)
    (continued : isSpliced (takeDirective inComment text).1 = true) :
    directivePart text = takeDirective inComment text := by
  unfold directivePart
  split
  · simp [takeDirective]
  · next rest =>
      rw [takeDirective_pair] at continued ⊢
      rw [directivePart_of_isSpliced inComment rest continued]
  · next rest =>
      rw [takeDirective_triple] at continued ⊢
      rw [directivePart_of_isSpliced inComment rest continued]
  · next c rest noPair noTriple =>
      split
      · next ends =>
          subst ends
          cases inComment with
          | false => simp [takeDirective]
          | true => simp [takeDirective, isSpliced] at continued
      · next inLine =>
          obtain same | ⟨second, behind, rfl, isMark, same⟩ :=
            takeDirective_cons inComment inLine noPair noTriple
          · rw [same] at continued ⊢
            have whole := takeDirective_append inComment rest
            have onward := (of_isSpliced_cons whole noPair noTriple continued).2
            rw [directivePart_of_isSpliced inComment rest onward]
          · rw [same] at continued ⊢
            have whole := congrArg (second :: ·) (takeDirective_append (!inComment) behind)
            have onward := (of_isSpliced_cons whole noPair noTriple continued).2
            obtain rfl | rfl := isMark
            all_goals
              have onward : isSpliced (takeDirective (!inComment) behind).1 = true := by
                simpa [isSpliced] using onward
              simp [directivePart, directivePart_of_isSpliced (!inComment) behind onward]
termination_by text.length

end Graft.Code
