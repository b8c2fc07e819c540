import Graft.Code.Token
import Graft.Proofs.Code.Endings
import Graft.Proofs.Code.Opening

/-!
What is code. The search for definitions and the checks of form read the structure of a text from the
same marks, brackets, braces, parentheses and semicolons: the one among the tokens, the other in the
masked text. Where the two readings cannot differ (`isUnambiguous`) they find the same marks in the same
places (`marksOf_tokens`).
-/

namespace Graft.Code

open Graft.Text

/-! The marks of a text -/

/-- Whether a character is one of the marks that make up the structure of code. -/
def isStructural (c : Char) : Bool :=
  c == '(' || c == ')' || c == '[' || c == ']' || c == '{' || c == '}' || c == ';'

def marksFrom (offset : Nat) : List Char → List (Nat × Char)
  | [] => []
  | c :: rest =>
      if isStructural c then (offset, c) :: marksFrom (offset + c.utf8Size) rest
      else marksFrom (offset + c.utf8Size) rest

def marksOf (tokens : List Token) : List (Nat × Char) :=
  tokens.filterMap fun token =>
    match token.kind with
    | .mark c => if isStructural c then some (token.start.offset, c) else none
    | _ => none

def Piece.marks (offset : Nat) (piece : Piece) : List (Nat × Char) :=
  match piece.role with
  | .token (.mark c) => if isStructural c then [(offset, c)] else []
  | _ => []

theorem marksFrom_append (offset : Nat) (first second : List Char) :
    marksFrom offset (first ++ second) =
      marksFrom offset first ++ marksFrom (offset + byteLength first) second := by
  induction first generalizing offset with
  | nil => simp [marksFrom]
  | cons c rest ih =>
      simp only [List.cons_append, marksFrom, byteLength_cons, ih, ← Nat.add_assoc]
      split <;> rfl

theorem marksFrom_of_none {text : List Char} (none : ∀ c ∈ text, isStructural c = false)
    (offset : Nat) : marksFrom offset text = [] := by
  induction text generalizing offset with
  | nil => rfl
  | cons c rest ih =>
      rw [List.forall_mem_cons] at none
      simp [marksFrom, none.1, ih none.2]

theorem marksOf_cons (place : Place) (piece : Piece) (rest : List Piece) :
    marksOf (tokensFrom place (piece :: rest)) =
      piece.marks place.offset ++ marksOf (tokensFrom (place.advance piece.text) rest) := by
  obtain ⟨role, text⟩ := piece
  cases role with
  | token kind =>
      cases kind with
      | mark c =>
          simp only [tokensFrom, marksOf, List.filterMap_cons, Piece.marks]
          cases isStructural c <;> rfl
      | word | number | literal => rfl
  | lineEnd | blank | directive | comment => rfl

/-! Where the readings cannot differ -/

/-- Whether masking takes every quote in a number for one that separates digits, behind a text that is
given nearest character first, and in front of another one. -/
def quotesSeparate (before : List Char) : List Char → List Char → Bool
  | [], _ => true
  | c :: rest, after =>
      (c != '\'' || isDigitSeparator before (rest ++ after)) && quotesSeparate (c :: before) rest after

/-- Whether masking takes a piece for what it is, behind a text that is given nearest character first,
and in front of another one: a directive stands at what masking sees as the start of a line, and no
comment in it carries it over a line end; quotes in a number separate digits; and a quote that opens a
literal opens one for masking, a raw one if it is raw. -/
def Piece.isUnambiguous (lineStart : Bool) (before after : List Char) (piece : Piece) : Bool :=
  match piece.role with
  | .directive => lineStart && isSpliced piece.text
  | .token .number => quotesSeparate before piece.text after
  | .token .literal =>
      match takeWhile isWordChar piece.text with
      | (head, quote :: rest) =>
          if quote = '\'' then !isDigitSeparator (head.reverse ++ before) (rest ++ after)
          else opensRaw (head.reverse ++ before) == decide (String.ofList head ∈ rawHeads)
      | (_, []) => true
  | _ => true

/-- Whether the text after a piece is at the start of a line, as masking sees it. -/
def Piece.atLineStart (lineStart : Bool) (piece : Piece) : Bool :=
  match piece.role with
  | .lineEnd => true
  | .token _ => false
  | .blank => lineStart && piece.text.all isAsciiBlank
  | _ => lineStart

def unambiguousFrom (lineStart : Bool) (before : List Char) : List Piece → Bool
  | [] => true
  | piece :: rest =>
      piece.isUnambiguous lineStart before (rest.flatMap Piece.text) &&
        unambiguousFrom (piece.atLineStart lineStart) (piece.text.reverse ++ before) rest

/-- Whether masking takes every piece of a text for what it is. -/
def isUnambiguous (text : List Char) : Bool := unambiguousFrom true [] (pieces text)

/-! Masking a stretch of text -/

variable {lineStart next later : Bool} {before text after first second : List Char} {c : Char}

/-- That masking goes over a stretch of a text in which no structural mark is, leaves as many bytes of
it, and goes on behind it, if it has nothing to report. -/
def Passes (lineStart : Bool) (before text after : List Char) (next : Bool) : Prop :=
  ∀ place, (maskFrom place lineStart before (text ++ after)).issues = [] →
    ∃ masked, byteLength masked = byteLength text ∧ (∀ c ∈ masked, isStructural c = false) ∧
      maskFrom place lineStart before (text ++ after) =
        (maskFrom (place.advance text) next (text.reverse ++ before) after).behind masked []

theorem Passes.nil (lineStart : Bool) (before after : List Char) :
    Passes lineStart before [] after lineStart :=
  fun _ _ => ⟨[], rfl, nofun, rfl⟩

theorem Passes.trans (h : Passes lineStart before first (second ++ after) next)
    (h' : Passes next (first.reverse ++ before) second after later) :
    Passes lineStart before (first ++ second) after later := by
  intro place fine
  rw [List.append_assoc] at fine ⊢
  obtain ⟨masked, length, none, start⟩ := h place fine
  rw [start] at fine ⊢
  have rest : (maskFrom (place.advance first) next (first.reverse ++ before)
      (second ++ after)).issues = [] := by simpa [Masked.behind] using fine
  obtain ⟨others, length', none', goes⟩ := h' _ rest
  refine ⟨masked ++ others, by simp [length, length'], ?_, ?_⟩
  · intro c mem
    obtain early | late := List.mem_append.1 mem
    · exact none c early
    · exact none' c late
  · rw [goes, Place.advance_append, List.reverse_append, List.append_assoc]
    simp [Masked.behind]

/-- What masking leaves when it goes over the first part of a text. -/
theorem maskFrom_of_firstPart {rest masked : List Char} (whole : text ++ after = c :: rest)
    {place : Place}
    (part : firstPart place lineStart before c rest = ⟨text, masked, after, [], next⟩) :
    maskFrom place lineStart before (text ++ after) =
      (maskFrom (place.advance text) next (text.reverse ++ before) after).behind masked [] := by
  rw [whole, maskFrom]
  simp only [part]

theorem issues_firstPart {rest : List Char} {place : Place}
    (fine : (maskFrom place lineStart before (c :: rest)).issues = []) :
    (firstPart place lineStart before c rest).issues = [] := by
  rw [maskFrom] at fine
  simp only [Masked.behind, List.append_eq_nil_iff] at fine
  exact fine.1

theorem passes_of_firstPart {rest : List Char} (whole : text ++ after = c :: rest)
    (part : ∀ place, (firstPart place lineStart before c rest).issues = [] →
      ∃ masked, byteLength masked = byteLength text ∧ (∀ c ∈ masked, isStructural c = false) ∧
        firstPart place lineStart before c rest = ⟨text, masked, after, [], next⟩) :
    Passes lineStart before text after next := by
  intro place fine
  have clean := issues_firstPart (whole ▸ fine)
  obtain ⟨masked, length, none, same⟩ := part place clean
  exact ⟨masked, length, none, maskFrom_of_firstPart whole same⟩

theorem isStructural_of_mem_blankOut (mem : c ∈ blankOut text) : isStructural c = false := by
  obtain ⟨d, -, inner⟩ := List.mem_flatMap.1 mem
  split at inner
  · obtain rfl := List.mem_singleton.1 inner
    rfl
  · obtain rfl := List.eq_of_mem_replicate inner
    rfl

/-! Code that stays as it is -/

theorem firstPart_of_plain (place : Place) {rest : List Char} (inLine : c ≠ '\n')
    (hash : ¬(c = '#' ∧ lineStart = true))
    (slash : ¬(c = '/' ∧ (rest.head? = some '/' ∨ rest.head? = some '*'))) (noQuote : c ≠ '"')
    (separates : c = '\'' → isDigitSeparator before rest = true) :
    firstPart place lineStart before c rest =
      ⟨[c], [c], rest, [], lineStart && isAsciiBlank c⟩ := by
  have line : ¬(c = '/' ∧ rest.head? = some '/') := fun both => slash ⟨both.1, .inl both.2⟩
  have block : ¬(c = '/' ∧ rest.head? = some '*') := fun both => slash ⟨both.1, .inr both.2⟩
  have literal : ¬((c = '"' ∨ c = '\'') ∧ ¬(c = '\'' ∧ isDigitSeparator before rest)) := by
    rintro ⟨rfl | rfl, opens⟩
    · exact noQuote rfl
    · exact opens ⟨rfl, separates rfl⟩
  have raw : ¬(c = '"' ∧ opensRaw before = true) := fun both => noQuote both.1
  rw [firstPart, if_neg inLine, if_neg hash, if_neg line, if_neg block, if_neg raw, if_neg literal]

/-- A character that masking leaves as it is inside a line, unless it is a quote that opens a
literal. -/
def isRunChar (c : Char) : Bool :=
  !isAsciiBlank c && c != '#' && c != '/' && c != '"' && !isStructural c

theorem passes_of_run (plain : ∀ c ∈ text, isRunChar c = true)
    (separate : quotesSeparate before text after = true) :
    Passes lineStart before text after (lineStart && text.isEmpty) := by
  induction text generalizing lineStart before with
  | nil => simpa using Passes.nil lineStart before after
  | cons c rest ih =>
      rw [List.forall_mem_cons] at plain
      obtain ⟨run, others⟩ := plain
      simp only [quotesSeparate, Bool.and_eq_true, Bool.or_eq_true, bne_iff_ne, ne_eq] at separate
      obtain ⟨separates, onward⟩ := separate
      simp only [isRunChar, Bool.and_eq_true, Bool.not_eq_true', bne_iff_ne, ne_eq] at run
      obtain ⟨⟨⟨⟨full, hash⟩, slash⟩, noQuote⟩, none⟩ := run
      have inLine : c ≠ '\n' := by
        rintro rfl
        cases full
      have whole : [c] ++ (rest ++ after) = c :: (rest ++ after) := rfl
      have single : Passes lineStart before [c] (rest ++ after) false := by
        refine passes_of_firstPart whole fun place _ => ⟨[c], rfl, by simpa using none, ?_⟩
        rw [firstPart_of_plain place inLine (fun both => hash both.1) (fun both => slash both.1) noQuote
          fun same => separates.resolve_left fun differ => differ same, full, Bool.and_false]
      simpa using single.trans (ih others onward)

theorem quotesSeparate_of_not_mem (none : '\'' ∉ text) : quotesSeparate before text after = true := by
  induction text generalizing before with
  | nil => rfl
  | cons c rest ih =>
      rw [List.mem_cons, not_or] at none
      simp [quotesSeparate, Ne.symm none.1, ih none.2]

theorem isRunChar_of_kind {kind : Char → Bool} (holds : kind c = true)
    (others : " \t\n\x0c\r#/\"()[]\x7b\x7d;".toList.any kind = false) : isRunChar c = true := by
  have differ : ∀ d ∈ " \t\n\x0c\r#/\"()[]\x7b\x7d;".toList, c ≠ d := by
    rintro d mem rfl
    exact List.any_eq_false.1 others c mem holds
  simp only [String.reduceToList, List.forall_mem_cons] at differ
  simp [isRunChar, isAsciiBlank, isStructural, differ]

theorem isRunChar_of_isWordChar (holds : isWordChar c = true) : isRunChar c = true :=
  isRunChar_of_kind holds (by decide)

theorem isRunChar_of_isNumberChar (holds : isNumberChar c = true) : isRunChar c = true :=
  isRunChar_of_kind holds (by decide)

/-! Comments and directives -/

/-- A stretch that masking blanks out. -/
theorem passes_of_blankOut {rest : List Char} (whole : text ++ after = c :: rest)
    (part : ∀ place, (firstPart place lineStart before c rest).issues = [] →
      firstPart place lineStart before c rest = ⟨text, blankOut text, after, [], next⟩) :
    Passes lineStart before text after next :=
  passes_of_firstPart whole fun place fine =>
    ⟨blankOut text, byteLength_blankOut text, fun _ => isStructural_of_mem_blankOut, part place fine⟩

theorem passes_line {rest taken : List Char} (ends : takeWhile (· != '\n') rest = (taken, after)) :
    Passes lineStart before ('/' :: '/' :: taken) after lineStart := by
  have whole := takeWhile_append (· != '\n') rest
  rw [ends] at whole
  have entire : ('/' :: '/' :: taken) ++ after = '/' :: '/' :: rest := by simp [← whole]
  refine passes_of_blankOut entire fun place _ => ?_
  simp [firstPart, linePart, linePart_eq_takeWhile, ends]

theorem passes_block {rest taken : List Char} (ends : takeBlock rest = (taken, after)) :
    Passes lineStart before ('/' :: '*' :: taken) after lineStart := by
  have whole := takeBlock_append rest
  rw [ends] at whole
  have entire : ('/' :: '*' :: taken) ++ after = '/' :: '*' :: rest := by simp [← whole]
  refine passes_of_blankOut entire fun place fine => ?_
  cases found : find? ['*', '/'] rest with
  | none => simp [firstPart, found] at fine
  | some closed =>
      obtain ⟨content, behind⟩ := closed
      rw [takeBlock_eq_takeThrough, takeThrough_of_find? found (by simp)] at ends
      obtain ⟨rfl, rfl⟩ := Prod.mk.inj ends
      simp [firstPart, found]

theorem passes_directive {rest taken : List Char} (ends : takeDirective false rest = (taken, after))
    (continued : isSpliced ('#' :: taken) = true) :
    Passes true before ('#' :: taken) after true := by
  have whole := takeDirective_append false rest
  rw [ends] at whole
  have entire : ('#' :: taken) ++ after = '#' :: rest := by simp [← whole]
  have inner : isSpliced (takeDirective false rest).1 = true := by
    simpa [isSpliced, ends] using continued
  have same := directivePart_of_isSpliced false rest inner
  rw [ends] at same
  refine passes_of_blankOut entire fun place _ => ?_
  simp [firstPart, directivePart, same]

/-! Literals -/

/-- What stands between the quotes of a literal is blanked out, the quotes are not. -/
theorem passes_of_quotes {quote : Char} (isQuote : quote = '"' ∨ quote = '\'') {rest inner : List Char}
    (whole : quote :: inner ++ [quote] ++ after = quote :: rest)
    (part : ∀ place, (firstPart place lineStart before quote rest).issues = [] →
      firstPart place lineStart before quote rest =
        ⟨quote :: inner ++ [quote], quote :: blankOut inner ++ [quote], after, [], false⟩) :
    Passes lineStart before (quote :: inner ++ [quote]) after false := by
  refine passes_of_firstPart whole fun place fine => ⟨_, ?_, ?_, part place fine⟩
  · simp [byteLength_blankOut]
  · have none : isStructural quote = false := by
      obtain rfl | rfl := isQuote <;> rfl
    intro c mem
    simp only [List.cons_append, List.mem_cons, List.mem_append, List.not_mem_nil, or_false] at mem
    obtain rfl | inside | rfl := mem
    · exact none
    · exact isStructural_of_mem_blankOut inside
    · exact none

/-- What is reported leads nowhere. -/
theorem passes_of_issues {rest : List Char} (whole : text ++ after = c :: rest)
    (reports : ∀ place, (firstPart place lineStart before c rest).issues ≠ []) :
    Passes lineStart before text after next :=
  fun place fine => absurd (issues_firstPart (whole ▸ fine)) (reports place)

theorem passes_quoted {quote : Char} (isQuote : quote = '"' ∨ quote = '\'') {rest taken : List Char}
    (noRaw : quote = '"' → opensRaw before = false)
    (opens : quote = '\'' → isDigitSeparator before rest = false)
    (ends : takeQuoted quote rest = (taken, after)) :
    Passes lineStart before (quote :: taken) after false := by
  have whole := takeQuoted_append quote rest
  rw [ends] at whole
  have entire : quote :: taken ++ after = quote :: rest := by simp [← whole]
  rcases read : quotedPart quote rest with ⟨content, tail, closed⟩
  cases closed with
  | false =>
      refine passes_of_issues entire fun place => ?_
      obtain rfl | rfl := isQuote
      · simp [firstPart, noRaw, read]
      · simp [firstPart, opens, read]
  | true =>
      obtain ⟨behind, rfl⟩ := List.head?_eq_some_iff.1 (quotedPart_closed read)
      rw [takeQuoted_of_closed read] at ends
      obtain ⟨rfl, rfl⟩ := Prod.mk.inj ends
      refine passes_of_quotes isQuote entire fun place _ => ?_
      obtain rfl | rfl := isQuote
      · simp [firstPart, noRaw, read]
      · simp [firstPart, opens, read]

theorem passes_raw {rest taken : List Char} (raw : opensRaw before = true)
    (ends : takeRaw rest = (taken, after)) : Passes lineStart before ('"' :: taken) after false := by
  have whole := takeRaw_append rest
  rw [ends] at whole
  have entire : '"' :: taken ++ after = '"' :: rest := by simp [← whole]
  cases opened : rawDelimiter? rawDelimiterRoom rest with
  | none =>
      refine passes_of_issues entire fun place => ?_
      simp [firstPart, raw, rawPart, opened]
  | some read =>
      obtain ⟨delimiter, body⟩ := read
      cases found : find? (')' :: delimiter ++ ['"']) body with
      | none =>
          refine passes_of_issues entire fun place => ?_
          rw [List.cons_append] at found
          simp [firstPart, raw, rawPart, opened, found]
      | some closed =>
          obtain ⟨content, behind⟩ := closed
          rw [takeRaw_of_find? opened found] at ends
          obtain ⟨rfl, rfl⟩ := Prod.mk.inj ends
          rw [List.cons_append] at found
          refine passes_of_quotes (.inl rfl) entire fun place _ => ?_
          simp [firstPart, raw, rawPart, opened, found]

/-! Pieces -/

theorem takeWhile_head {head : List Char} (all : ∀ c ∈ head, isWordChar c = true) {quote : Char}
    (isQuote : quote = '"' ∨ quote = '\'') (rest : List Char) :
    takeWhile isWordChar (head ++ quote :: rest) = (head, quote :: rest) := by
  refine takeWhile_append_cons all ?_ rest
  obtain rfl | rfl := isQuote <;> rfl

theorem isWordChar_of_mem_head {head : List Char} {names : List String}
    (words : ∀ name ∈ names, name.toList.all isWordChar = true)
    (known : String.ofList head ∈ names) : ∀ c ∈ head, isWordChar c = true := by
  have all := words _ known
  rwa [String.toList_ofList, List.all_eq_true] at all

/-- A word in front of a literal stays as it is. -/
theorem Passes.behind_head {head : List Char} (all : ∀ c ∈ head, isWordChar c = true)
    (h : ∀ lineStart, Passes lineStart (head.reverse ++ before) text after false) :
    Passes lineStart before (head ++ text) after false := by
  have noQuote : '\'' ∉ head := fun mem => by cases all _ mem
  exact (passes_of_run (fun c mem => isRunChar_of_isWordChar (all c mem))
    (quotesSeparate_of_not_mem noQuote)).trans (h _)

theorem passes_literal {head taken : List Char} {quote : Char}
    (all : ∀ c ∈ head, isWordChar c = true) (isQuote : quote = '"' ∨ quote = '\'')
    (unambiguous : (Piece.mk (.token .literal) (head ++ quote :: taken)).isUnambiguous lineStart before
      after = true)
    (h : ∀ lineStart, (quote = '"' → opensRaw (head.reverse ++ before) =
        decide (String.ofList head ∈ rawHeads)) →
      (quote = '\'' → isDigitSeparator (head.reverse ++ before) (taken ++ after) = false) →
      Passes lineStart (head.reverse ++ before) (quote :: taken) after false) :
    Passes lineStart before (head ++ quote :: taken) after false := by
  simp only [Piece.isUnambiguous, takeWhile_head all isQuote] at unambiguous
  refine Passes.behind_head all fun lineStart => h lineStart ?_ ?_
  · rintro rfl
    simpa using unambiguous
  · rintro rfl
    simpa using unambiguous

theorem passes_of_opens {atStart : Bool} {piece : Piece} (opens : Opens atStart text piece after)
    (unambiguous : piece.isUnambiguous lineStart before after = true)
    (noMark : ∀ c, piece.role ≠ .token (.mark c)) :
    Passes lineStart before piece.text after (piece.atLineStart lineStart) := by
  cases opens with
  | lineEnd =>
      refine passes_of_firstPart rfl fun place _ => ⟨['\n'], rfl, by simp [isStructural], ?_⟩
      simp [firstPart, Piece.atLineStart]
  | @blank c gap =>
      have gaps : c = ' ' ∨ c = '\t' ∨ c = '\r' ∨ c = '\x0b' ∨ c = '\x0c' := by
        simpa [isGap, or_assoc] using gap
      -- none of the characters that masking or the pairing of delimiters looks for
      have differ : ∀ d ∈ "\n#/\"'()[]\x7b\x7d;".toList, c ≠ d := by
        obtain rfl | rfl | rfl | rfl | rfl := gaps <;> simp
      simp only [String.reduceToList, List.forall_mem_cons] at differ
      refine passes_of_firstPart rfl fun place _ => ⟨[c], rfl, by simp [isStructural, differ], ?_⟩
      rw [firstPart_of_plain place] <;> simp [differ, Piece.atLineStart]
  | directive start ends =>
      simp only [Piece.isUnambiguous, Bool.and_eq_true] at unambiguous
      obtain ⟨rfl, continued⟩ := unambiguous
      exact passes_directive ends continued
  | line ends => exact passes_line ends
  | block ends => exact passes_block ends
  | @quoted head known quote isQuote rest taken _ ends =>
      have all : ∀ c ∈ head, isWordChar c = true := by
        obtain rfl | known := known
        · exact nofun
        · exact isWordChar_of_mem_head (by decide) known
      have noRaw : String.ofList head ∉ rawHeads := by
        obtain rfl | known := known
        · decide
        · have apart : ∀ name ∈ encodingHeads, name ∉ rawHeads := by decide
          exact apart _ known
      have whole := takeQuoted_append quote rest
      rw [ends] at whole
      refine passes_literal all isQuote unambiguous fun lineStart raw separates => ?_
      exact passes_quoted isQuote (fun same => by simpa [noRaw] using raw same)
        (fun same => whole ▸ separates same) ends
  | @raw head known rest taken _ ends =>
      have all := isWordChar_of_mem_head (by decide) known
      refine passes_literal all (.inl rfl) unambiguous fun lineStart raw _ => ?_
      exact passes_raw (by simpa [known] using raw rfl) ends
  | @word word some all =>
      have noQuote : '\'' ∉ word := fun mem => by cases all _ mem
      have run : Passes lineStart before word after (lineStart && word.isEmpty) :=
        passes_of_run (fun c mem => isRunChar_of_isWordChar (all c mem))
          (quotesSeparate_of_not_mem noQuote)
      rwa [List.isEmpty_eq_false_iff.2 some, Bool.and_false] at run
  | @number number some all =>
      have run : Passes lineStart before number after (lineStart && number.isEmpty) :=
        passes_of_run (fun c mem => isRunChar_of_isNumberChar (all c mem)) unambiguous
      rwa [List.isEmpty_eq_false_iff.2 some, Bool.and_false] at run
  | mark => exact absurd rfl (noMark _)

/-- Masking takes an unambiguous piece for what it is, and leaves the structural mark that it is. -/
theorem masks_of_opens {atStart : Bool} {piece : Piece} (opens : Opens atStart text piece after)
    (whole : piece.text ++ after = text) (start : lineStart = true → atStart = true)
    (unambiguous : piece.isUnambiguous lineStart before after = true) {place : Place}
    (fine : (maskFrom place lineStart before text).issues = []) :
    ∃ masked, byteLength masked = byteLength piece.text ∧
      marksFrom place.offset masked = piece.marks place.offset ∧
      maskFrom place lineStart before text =
        (maskFrom (place.advance piece.text) (piece.atLineStart lineStart)
          (piece.text.reverse ++ before) after).behind masked [] := by
  by_cases isMark : ∃ c, piece.role = .token (.mark c)
  · obtain ⟨c, role⟩ := isMark
    cases opens with
    | @mark c inLine full hash rest slash noQuote =>
        have inside : isAsciiBlank c = false := by
          simp only [isGap, Bool.or_eq_false_iff] at full
          simp [isAsciiBlank, inLine, full]
        have part : firstPart place lineStart before c after = ⟨[c], [c], after, [], false⟩ := by
          rw [firstPart_of_plain place inLine (fun both => hash ⟨both.1, start both.2⟩) slash
            (fun same => noQuote (.inl same)) fun same => absurd (.inr same) noQuote, inside,
            Bool.and_false]
        exact ⟨[c], rfl, by simp [marksFrom, Piece.marks], maskFrom_of_firstPart rfl part⟩
    | _ => cases role
  · have noMark : ∀ c, piece.role ≠ .token (.mark c) := fun c role => isMark ⟨c, role⟩
    subst whole
    obtain ⟨masked, length, none, same⟩ := passes_of_opens opens unambiguous noMark place fine
    refine ⟨masked, length, ?_, same⟩
    rw [marksFrom_of_none none, Piece.marks]
    split
    · next role => exact absurd role (noMark _)
    · rfl

theorem atLineStart_of_atLineStart {piece : Piece} (start : lineStart = true → next = true)
    (still : piece.atLineStart lineStart = true) : piece.role.atLineStart next = true := by
  obtain ⟨role, text⟩ := piece
  cases role with
  | lineEnd => rfl
  | token => cases still
  | blank =>
      simp only [Piece.atLineStart, Bool.and_eq_true] at still
      exact start still.1
  | directive | comment => exact start still

theorem marksOf_tokensFrom {place : Place} (start : lineStart = true → next = true)
    (unambiguous : unambiguousFrom lineStart before (piecesFrom next text) = true)
    (fine : (maskFrom place lineStart before text).issues = []) :
    marksOf (tokensFrom place (piecesFrom next text)) =
      marksFrom place.offset (maskFrom place lineStart before text).text := by
  fun_induction piecesFrom next text generalizing lineStart before place with
  | case1 => simp [tokensFrom, marksOf, maskFrom, marksFrom]
  | case2 next c rest first =>
      rename_i ih
      simp only [unambiguousFrom, Bool.and_eq_true, join_piecesFrom] at unambiguous
      obtain ⟨masked, length, marks, same⟩ := masks_of_opens (opens_firstPiece next c rest)
        (firstPiece_append next c rest) start unambiguous.1 fine
      rw [same] at fine ⊢
      have onward : (maskFrom (place.advance first.1.text) (first.1.atLineStart lineStart)
          (first.1.text.reverse ++ before) first.2).issues = [] := by
        simpa [Masked.behind] using fine
      have later := ih (atLineStart_of_atLineStart start) unambiguous.2 onward
      rw [marksOf_cons, later, ← marks, Place.offset_advance, ← length]
      exact (marksFrom_append _ _ _).symm

/-- On every text whose pieces masking takes for what they are, and in which it finds nothing to report,
the structural marks among the tokens are those that masking leaves, each in its place. -/
theorem marksOf_tokens {text : List Char} (unambiguous : isUnambiguous text = true)
    (fine : (mask text).issues = []) : marksOf (tokens text) = marksFrom 0 (mask text).text :=
  marksOf_tokensFrom id unambiguous fine

def plainText : List Char :=
  ("#define PAIR(a) (a), \\\n  ((a)) // (\nint a[] = \x7b 1'000 \x7d; /* ; */\n" ++
    "char c = ';', *s = u8R\"x()\")x\";\n").toList

theorem marksOf_tokens_of_plainText : isUnambiguous plainText = true ∧ (mask plainText).issues = [] ∧
    marksOf (tokens plainText) = marksFrom 0 (mask plainText).text := by
  have unambiguous : isUnambiguous plainText = true := by decide +kernel
  have fine : (mask plainText).issues = [] := by decide +kernel
  exact ⟨unambiguous, fine, marksOf_tokens unambiguous fine⟩

/-- A comment in a directive that goes on behind the line end is a comment for the one and code for the
other. -/
theorem not_always_same_marks :
    ¬∀ text : List Char, (mask text).issues = [] →
      marksOf (tokens text) = marksFrom 0 (mask text).text := by
  intro claimed
  have differ : marksOf (tokens "#define LIMIT 8 /* see\n   note 1) */\n".toList) ≠
      marksFrom 0 (mask "#define LIMIT 8 /* see\n   note 1) */\n".toList).text := by decide +kernel
  exact differ (claimed _ (by decide +kernel))

/-- The readings also differ about a line comment in a directive, about a hash behind a vertical tab,
about raw strings behind a dollar sign or a point, and about quotes behind what starts like a number. -/
example : ∀ text ∈ ["#x // /*\n;*/", "\x0b#(", "$R\"(\";)\"", "1.R\"(\";)\"", "1'z;'", "$1'a;''"],
    (mask text.toList).issues = [] ∧
      marksOf (tokens text.toList) ≠ marksFrom 0 (mask text.toList).text := by
  decide +kernel

end Graft.Code
