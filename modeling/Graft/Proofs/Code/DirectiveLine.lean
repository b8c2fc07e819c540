import Graft.Proofs.Code.Contents

/-!
The line of a directive. It goes up to the first line end that is neither continued nor inside a comment
or a literal, when these are read as they are elsewhere (`linePieces`). The reader of directives looks
for the openings of block comments only, so it stops in this line as long as none of the literals and
line comments there holds such an opening (`takeDirective_prefix`).
-/

namespace Graft.Code

open Graft.Text

variable {before text taken after rest front between : List Char} {c : Char}

/-- Whether a line end continues its line behind a text, which is given backwards: a backslash stands in
front of the line end. -/
def continuesLine : List Char → Bool
  | '\\' :: _ => true
  | '\r' :: '\\' :: _ => true
  | _ => false

def linePieces (before : List Char) : List Char → List Piece
  | [] => []
  | c :: rest =>
      if c = '\n' ∧ continuesLine before = false then []
      else
        let first := firstPiece false c rest
        first.1 :: linePieces (first.1.text.reverse ++ before) first.2
termination_by text => text.length
decreasing_by exact length_firstPiece_lt false c rest

def directiveLine (rest : List Char) : List Char := (linePieces ['#'] rest).flatMap Piece.text

/-- A line ends where the text does, or at a line end that does not continue it. -/
theorem linePieces_ends (before text : List Char) :
    let line := (linePieces before text).flatMap Piece.text
    ∃ after, text = line ++ after ∧
      (after = [] ∨ after.head? = some '\n' ∧ continuesLine (line.reverse ++ before) = false) := by
  fun_induction linePieces before text with
  | case1 => exact ⟨[], rfl, .inl rfl⟩
  | case2 before c rest ends =>
      obtain ⟨rfl, last⟩ := ends
      exact ⟨'\n' :: rest, rfl, .inr ⟨rfl, last⟩⟩
  | case3 before c rest inLine first ih =>
      obtain ⟨after, spelt, ends⟩ := ih
      have whole : first.1.text ++ first.2 = c :: rest := firstPiece_append false c rest
      refine ⟨after, ?_, ?_⟩
      · rw [List.flatMap_cons, List.append_assoc, ← spelt, whole]
      · rwa [List.flatMap_cons, List.reverse_append, List.append_assoc]

/-- A piece that hides the opening of a block comment: a literal, or a comment up to the end of its line. -/
def Piece.Hides (piece : Piece) : Prop :=
  (piece.role = .token .literal ∨ piece.role = .comment ∧ ['/', '/'] <+: piece.text) ∧
    ['/', '*'] <:+: piece.text

/-! Where readers end -/

theorem last_of_takeQuoted {quote : Char} (read : takeQuoted quote text = (taken, c :: rest)) :
    c = '\n' ∨ taken.getLast? = some quote := by
  fun_induction takeQuoted quote text generalizing taken with
  | case1 | case2 => cases read
  | case3 d others inner behind same ih =>
      obtain ⟨rfl, rfl⟩ := Prod.mk.inj read
      refine (ih same).imp_right fun last => ?_
      rw [List.getLast?_cons_cons, List.getLast?_cons, last]
      rfl
  | case4 =>
      obtain ⟨-, same⟩ := Prod.mk.inj read
      exact .inl (List.cons.inj same).1.symm
  | case5 =>
      obtain ⟨rfl, -⟩ := Prod.mk.inj read
      exact .inr rfl
  | case6 d others notLast noEscape inLine other inner behind same ih =>
      obtain ⟨rfl, rfl⟩ := Prod.mk.inj read
      refine (ih same).imp_right fun last => ?_
      rw [List.getLast?_cons, last]
      rfl

theorem last_of_takeRaw (read : takeRaw text = (taken, c :: rest)) : taken.getLast? = some '"' := by
  unfold takeRaw at read
  split at read
  · next delimiter body opened =>
      rcases closed : takeThrough (')' :: delimiter ++ ['"']) body with ⟨inside, behind⟩
      rw [closed] at read
      obtain ⟨rfl, rfl⟩ := Prod.mk.inj read
      obtain ⟨inner, rfl⟩ := suffix_of_takeThrough closed
      have whole : delimiter ++ '(' :: (inner ++ (')' :: delimiter ++ ['"'])) =
          delimiter ++ '(' :: inner ++ ')' :: delimiter ++ ['"'] := by simp
      rw [whole, List.getLast?_concat]
  · next delimiter behind noParen opened =>
      obtain ⟨rfl, rfl⟩ := Prod.mk.inj read
      have paren : c = '(' := by simpa using stops_of_takeWhile opened
      subst paren
      exact (noParen _ rfl).elim

/-! Going on in a directive -/

/-- What the reader of directives takes of a text when it has taken another one, which is given backwards,
and is in no comment. A backslash there may wait for the line end that it continues. -/
def resume (before text : List Char) : List Char :=
  if continuesLine before = true ∧ text.head? = some '\n' then
    '\n' :: (takeDirective false (text.drop 1)).1
  else if before.head? = some '\\' ∧ ['\r', '\n'] <+: text then
    '\r' :: '\n' :: (takeDirective false (text.drop 2)).1
  else (takeDirective false text).1

theorem resume_of_plain (slash : before.head? ≠ some '\\') (plain : continuesLine before = false)
    (text : List Char) : resume before text = (takeDirective false text).1 := by
  rw [resume, if_neg (by simp [plain]), if_neg fun waits => slash waits.1]

theorem resume_nil (before : List Char) : resume before [] = [] := by
  simp [resume, takeDirective]

theorem continuesLine_return (before : List Char) :
    continuesLine ('\r' :: before) = true ↔ before.head? = some '\\' := by
  cases before with
  | nil => decide
  | cons d others =>
      by_cases slash : d = '\\'
      · subst slash
        simp [continuesLine]
      · simp [continuesLine, slash]

theorem takeDirective_char (inLine : c ≠ '\n') (noComment : ¬(c = '/' ∧ rest.head? = some '*'))
    (noPair : ∀ behind, c = '\\' → rest = '\n' :: behind → False)
    (noTriple : ∀ behind, c = '\\' → rest = '\r' :: '\n' :: behind → False) :
    takeDirective false (c :: rest) =
      (c :: (takeDirective false rest).1, (takeDirective false rest).2) := by
  rw [takeDirective.eq_def]
  simp only [Bool.false_eq_true, if_false]
  split
  · exact (noPair _ rfl rfl).elim
  · exact (noTriple _ rfl rfl).elim
  · exact absurd rfl inLine
  · exact absurd ⟨rfl, rfl⟩ noComment
  · rfl

theorem resume_backslash (before rest : List Char) :
    resume before ('\\' :: rest) = '\\' :: resume ('\\' :: before) rest := by
  have here : resume before ('\\' :: rest) = (takeDirective false ('\\' :: rest)).1 := by
    simp [resume]
  rw [here]
  by_cases pair : ∃ behind, rest = '\n' :: behind
  · obtain ⟨behind, rfl⟩ := pair
    simp [takeDirective_pair, resume, continuesLine]
  by_cases triple : ∃ behind, rest = '\r' :: '\n' :: behind
  · obtain ⟨behind, rfl⟩ := triple
    simp [takeDirective_triple, resume]
  rw [takeDirective_char (by decide) (by simp) (fun behind _ same => pair ⟨behind, same⟩)
    fun behind _ same => triple ⟨behind, same⟩, resume, if_neg, if_neg]
  · rintro ⟨-, behind, same⟩
    exact triple ⟨behind, same.symm⟩
  · rintro ⟨-, head⟩
    exact pair (List.head?_eq_some_iff.1 head)

/-- A carriage return keeps a backslash waiting for a line end. -/
theorem resume_return (before rest : List Char) :
    resume before ('\r' :: rest) = '\r' :: resume ('\r' :: before) rest := by
  by_cases continues : before.head? = some '\\' ∧ rest.head? = some '\n'
  · obtain ⟨waits, head⟩ := continues
    obtain ⟨behind, rfl⟩ := List.head?_eq_some_iff.1 head
    simp [resume, waits, (continuesLine_return before).2 waits]
  · have apart : ¬(before.head? = some '\\' ∧ ['\r', '\n'] <+: '\r' :: rest) := by
      rintro ⟨waits, behind, same⟩
      exact continues ⟨waits, by rw [← (List.cons.inj same).2]; rfl⟩
    have onward : takeDirective false ('\r' :: rest) =
        ('\r' :: (takeDirective false rest).1, (takeDirective false rest).2) :=
      takeDirective_char (by decide) (by simp) (fun _ same => absurd same (by decide))
        fun _ same => absurd same (by decide)
    rw [resume, if_neg (by simp), if_neg apart, onward, resume, if_neg, if_neg (by simp)]
    rintro ⟨continued, head⟩
    exact continues ⟨(continuesLine_return before).1 continued, head⟩

/-- Inside a line, and where no block comment opens, a directive goes on with the next character. -/
theorem resume_cons (inLine : c ≠ '\n') (noComment : ¬(c = '/' ∧ rest.head? = some '*'))
    (before : List Char) : resume before (c :: rest) = c :: resume (c :: before) rest := by
  by_cases slash : c = '\\'
  · subst slash
    exact resume_backslash before rest
  by_cases return_ : c = '\r'
  · subst return_
    exact resume_return before rest
  have plain : continuesLine (c :: before) = false := by
    unfold continuesLine
    split
    · next same => exact absurd (List.cons.inj same).1 slash
    · next same => exact absurd (List.cons.inj same).1 return_
    · rfl
  have apart : ¬(before.head? = some '\\' ∧ ['\r', '\n'] <+: c :: rest) := by
    rintro ⟨-, behind, same⟩
    exact return_ (List.cons.inj same).1.symm
  have onward := takeDirective_char inLine noComment (fun _ same => absurd same slash)
    fun _ same => absurd same slash
  rw [resume_of_plain (by simpa using slash) plain, resume, if_neg (by simp [inLine]), if_neg apart,
    onward]

/-- A line end is taken if it is continued, and ends the directive otherwise. -/
theorem resume_lineEnd (before rest : List Char) :
    resume before ('\n' :: rest) =
      if continuesLine before then '\n' :: resume ('\n' :: before) rest else [] := by
  have plain : continuesLine ('\n' :: before) = false := by simp [continuesLine]
  rw [resume_of_plain (by simp) plain, resume]
  cases continuesLine before with
  | true => simp
  | false => simp [takeDirective]

/-- What opens no block comment is taken in whole, or the directive ends in it. -/
theorem resume_append (inner : ¬ ['/', '*'] <:+: front)
    (joint : ¬(front.getLast? = some '/' ∧ between.head? = some '*')) (before : List Char) :
    resume before (front ++ between) = front ++ resume (front.reverse ++ before) between ∨
      resume before (front ++ between) <+: front := by
  induction front generalizing before with
  | nil => exact .inl rfl
  | cons c front ih =>
      have inner' : ¬ ['/', '*'] <:+: front := fun found => inner (List.infix_cons found)
      have joint' : ¬(front.getLast? = some '/' ∧ between.head? = some '*') := by
        rintro ⟨last, head⟩
        refine joint ⟨?_, head⟩
        rw [List.getLast?_cons, last]
        rfl
      have onward := ih inner' joint' (c :: before)
      have spelt : (c :: front).reverse ++ before = front.reverse ++ c :: before := by simp
      rw [spelt, List.cons_append]
      have goesOn (same : resume before (c :: (front ++ between)) =
          c :: resume (c :: before) (front ++ between)) :
          resume before (c :: (front ++ between)) =
              c :: front ++ resume (front.reverse ++ c :: before) between ∨
            resume before (c :: (front ++ between)) <+: c :: front := by
        rw [same]
        obtain whole | stops := onward
        · exact .inl (by rw [whole]; rfl)
        · exact .inr (List.cons_prefix_cons.2 ⟨rfl, stops⟩)
      by_cases ends : c = '\n'
      · subst ends
        by_cases continued : continuesLine before = true
        · exact goesOn (by rw [resume_lineEnd, if_pos continued])
        · right
          rw [resume_lineEnd, if_neg continued]
          exact List.nil_prefix
      · refine goesOn (resume_cons ends ?_ before)
        rintro ⟨rfl, second⟩
        cases front with
        | nil => exact joint ⟨rfl, second⟩
        | cons d front =>
            obtain rfl : d = '*' := by simpa using second
            exact inner ⟨[], front, rfl⟩

/-- A block comment is taken in whole. -/
theorem resume_block (before rest : List Char) :
    resume before ('/' :: '*' :: rest) = '/' :: '*' :: (takeBlock rest).1 ++
      resume (('/' :: '*' :: (takeBlock rest).1).reverse ++ before) (takeBlock rest).2 := by
  have opened : resume before ('/' :: '*' :: rest) = '/' :: '*' :: (takeDirective true rest).1 := by
    simp [resume, takeDirective]
  have inside (text : List Char) : (takeDirective true text).1 =
      (takeBlock text).1 ++ (takeDirective false (takeBlock text).2).1 := by
    fun_induction takeBlock text with
    | case1 => simp [takeDirective]
    | case2 => simp [takeDirective]
    | case3 c rest other taken behind same ih =>
        rw [same] at ih
        rw [takeDirective.eq_def]
        simp only [if_true]
        rw [ih]
        rfl
  have behind : resume (('/' :: '*' :: (takeBlock rest).1).reverse ++ before) (takeBlock rest).2 =
      (takeDirective false (takeBlock rest).2).1 := by
    rcases read : takeBlock rest with ⟨taken, after⟩
    cases after with
    | nil => simp [resume_nil, takeDirective]
    | cons c after =>
        rw [takeBlock_eq_takeThrough] at read
        obtain ⟨contents, rfl⟩ := suffix_of_takeThrough read
        have plain (others : List Char) : continuesLine ('/' :: others) = false := by simp [continuesLine]
        have spelt : ('/' :: '*' :: (contents ++ ['*', '/'])).reverse ++ before =
            '/' :: '*' :: (contents.reverse ++ '*' :: '/' :: before) := by simp
        rw [spelt, resume_of_plain (by simp) (plain _)]
  rw [opened, inside, behind]
  rfl

/-! Piece by piece -/

theorem not_infix_of_not_mem (none : '/' ∉ text) : ¬ ['/', '*'] <:+: text :=
  fun found => none (found.subset List.mem_cons_self)

theorem not_infix_singleton (c : Char) : ¬ ['/', '*'] <:+: [c] := by
  intro found
  have short := found.length_le
  simp at short

theorem getLast?_of_not_mem (none : '/' ∉ text) : text.getLast? ≠ some '/' :=
  fun last => none (List.mem_of_getLast? last)

/-- A piece that hides no opening of a comment is taken in whole, or the directive ends in it. -/
theorem resume_of_opens {piece : Piece} (opens : Opens false text piece after) (plain : ¬ piece.Hides)
    (before : List Char) :
    resume before text = piece.text ++ resume (piece.text.reverse ++ before) after ∨
      resume before text <+: piece.text := by
  -- A comment starts neither inside the piece, which hides none, nor across its end.
  cases opens with
  | lineEnd =>
      exact resume_append (not_infix_singleton _) (by simp) before
  | @blank c gap =>
      refine resume_append (not_infix_singleton _) ?_ before
      rintro ⟨last, -⟩
      obtain rfl : c = '/' := by simpa using last
      exact absurd gap (by decide)
  | directive start => cases start
  | @line rest taken _ ends =>
      have inner : ¬ ['/', '*'] <:+: '/' :: '/' :: taken :=
        fun found => plain ⟨.inr ⟨rfl, taken, rfl⟩, found⟩
      have whole := takeWhile_append (· != '\n') rest
      rw [ends] at whole
      rw [← whole]
      refine resume_append inner ?_ before
      rintro ⟨-, head⟩
      obtain ⟨behind, rfl⟩ := List.head?_eq_some_iff.1 head
      exact absurd (stops_of_takeWhile ends) (by decide)
  | @block rest taken _ ends =>
      have read := resume_block before rest
      rw [ends] at read
      exact .inl read
  | @quoted head known quote isQuote rest taken _ ends =>
      have inner : ¬ ['/', '*'] <:+: head ++ quote :: taken := fun found => plain ⟨.inl rfl, found⟩
      have whole := takeQuoted_append quote rest
      rw [ends] at whole
      rw [← whole, ← List.cons_append, ← List.append_assoc]
      refine resume_append inner ?_ before
      rintro ⟨last, starts⟩
      obtain ⟨behind, rfl⟩ := List.head?_eq_some_iff.1 starts
      obtain ends | closed := last_of_takeQuoted ends
      · exact absurd ends (by decide)
      · rw [List.getLast?_append, List.getLast?_cons, closed] at last
        obtain rfl : quote = '/' := by simpa using last
        exact absurd isQuote (by decide)
  | @raw head known rest taken _ ends =>
      have inner : ¬ ['/', '*'] <:+: head ++ '"' :: taken := fun found => plain ⟨.inl rfl, found⟩
      have whole := takeRaw_append rest
      rw [ends] at whole
      rw [← whole, ← List.cons_append, ← List.append_assoc]
      refine resume_append inner ?_ before
      rintro ⟨last, starts⟩
      obtain ⟨behind, rfl⟩ := List.head?_eq_some_iff.1 starts
      rw [List.getLast?_append, List.getLast?_cons, last_of_takeRaw ends] at last
      simp at last
  | @word word some all =>
      have none : '/' ∉ word := fun mem => absurd (all _ mem) (by decide)
      exact resume_append (not_infix_of_not_mem none) (fun joint => getLast?_of_not_mem none joint.1) before
  | @number number some all =>
      have none : '/' ∉ number := fun mem => absurd (all _ mem) (by decide)
      exact resume_append (not_infix_of_not_mem none) (fun joint => getLast?_of_not_mem none joint.1) before
  | @mark c inLine full hash rest slash noQuote =>
      refine resume_append (not_infix_singleton c) ?_ before
      rintro ⟨last, head⟩
      exact slash ⟨by simpa using last, .inr head⟩

theorem resume_prefix (before text : List Char)
    (plain : ∀ piece ∈ linePieces before text, ¬ piece.Hides) :
    resume before text <+: (linePieces before text).flatMap Piece.text := by
  fun_induction linePieces before text with
  | case1 =>
      rw [resume_nil]
      exact List.nil_prefix
  | case2 before c rest ends =>
      obtain ⟨rfl, last⟩ := ends
      rw [resume_lineEnd, last]
      exact List.nil_prefix
  | case3 before c rest inLine first ih =>
      rw [List.forall_mem_cons] at plain
      rw [List.flatMap_cons]
      obtain whole | stops := resume_of_opens (opens_firstPiece false c rest) plain.1 before
      · rw [whole, List.prefix_append_right_inj]
        exact ih plain.2
      · exact stops.trans (List.prefix_append _ _)

/-- A directive ends in its line, unless a literal or a line comment there hides the opening of a block
comment. -/
theorem takeDirective_prefix {rest : List Char} (plain : ∀ piece ∈ linePieces ['#'] rest, ¬ piece.Hides) :
    (takeDirective false rest).1 <+: directiveLine rest := by
  have fromStart : resume ['#'] rest = (takeDirective false rest).1 :=
    resume_of_plain (by decide) (by decide) rest
  rw [← fromStart]
  exact resume_prefix ['#'] rest plain

end Graft.Code
