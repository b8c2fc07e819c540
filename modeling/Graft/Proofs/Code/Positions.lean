import Graft.Code.Form
import Graft.Proofs.Code.Masking
import Graft.Proofs.Text.Slice
import Mathlib.Data.Prod.Lex

/-!
Where issues of form point. Every issue has a line that is there and a column in it or right behind it,
an issue about a delimiter points at that delimiter in the text, and the issues come in the order of
their places (`positions_of_formIssues`). The places are found in the masked text, which keeps them.
-/

namespace Graft.Code

open Graft.Text

variable {text masked : List Char} {issue : Issue}

/-! Places -/

def PointsFrom (place : Place) (text : List Char) (c : Char) (issue : Issue) : Prop :=
  ∃ front behind, text = front ++ c :: behind ∧ issue.line = some (place.advance front).line ∧
    issue.column = some (place.advance front).column

def PointsAt (text : List Char) (c : Char) (issue : Issue) : Prop := PointsFrom .origin text c issue

/-- Whether an issue points into one of some lines, the first of which has the given number, or right
behind it; the line is not empty. -/
def PointsInto (number : Nat) (lines : List (List Char)) (issue : Issue) : Prop :=
  ∃ index stretch column, lines[index]? = some stretch ∧ stretch ≠ [] ∧
    issue.line = some (number + index) ∧ issue.column = some column ∧ 1 ≤ column ∧
    column ≤ byteLength stretch + 1

theorem pointsFrom_here (place : Place) (c : Char) (rest : List Char) (message : String) :
    PointsFrom place (c :: rest) c (errorAt place message) :=
  ⟨[], rest, rfl, rfl, rfl⟩

theorem PointsFrom.behind {place : Place} {front : List Char} {c : Char}
    (points : PointsFrom (place.advance front) text c issue) :
    PointsFrom place (front ++ text) c issue := by
  obtain ⟨between, behind, rfl, line, column⟩ := points
  refine ⟨front ++ between, behind, (List.append_assoc _ _ _).symm, ?_, ?_⟩
  · rw [Place.advance_append, line]
  · rw [Place.advance_append, column]

theorem PointsInto.behind {number : Nat} {lines : List (List Char)} (line : List Char)
    (points : PointsInto (number + 1) lines issue) : PointsInto number (line :: lines) issue := by
  obtain ⟨index, stretch, column, here, filled, line, rest⟩ := points
  refine ⟨index + 1, stretch, column, here, filled, ?_, rest⟩
  rw [line, Nat.add_assoc, Nat.add_comm 1]

/-- Where a text goes on behind some front, its lines are those in front and the one that goes on. -/
theorem exists_lines_of_append (place : Place) (front : List Char) {behind piece : List Char}
    {pieces : List (List Char)} (spelt : splitAtChar '\n' behind = piece :: pieces) :
    ∃ lines last, splitAtChar '\n' (front ++ behind) = lines ++ (last ++ piece) :: pieces ∧
      (place.advance front).line = place.line + lines.length ∧
      (place.advance front).column = (if lines = [] then place.column else 1) + byteLength last := by
  obtain ⟨lines, last, rfl, inLines, inLast⟩ := exists_ended front
  refine ⟨lines, last, ?_, line_advance_ended place inLines inLast,
    column_advance_ended place lines inLast⟩
  rw [List.append_assoc, splitAtChar_ended_append inLines, splitAtChar_append_of_not_mem inLast spelt]

/-- Whether an issue points at a character in a line of a text, by its number and the bytes before it. -/
def PointsAtLine (text : List Char) (c : Char) (issue : Issue) : Prop :=
  ∃ index before behind, (splitAtChar '\n' text)[index]? = some (before ++ c :: behind) ∧
    issue.line = some (index + 1) ∧ issue.column = some (byteLength before + 1)

/-- What points at a character that ends no line points at it in its line. -/
theorem PointsAt.pointsAtLine {c : Char} (inLine : c ≠ '\n') (points : PointsAt text c issue) :
    PointsAtLine text c issue := by
  obtain ⟨front, behind, rfl, line, column⟩ := points
  obtain ⟨piece, pieces, spelt⟩ := List.exists_cons_of_ne_nil (splitAtChar_ne_nil '\n' behind)
  have starts : splitAtChar '\n' (c :: behind) = (c :: piece) :: pieces := by
    rw [splitAtChar, if_neg inLine, spelt]
  obtain ⟨lines, last, whole, line', column'⟩ := exists_lines_of_append .origin front starts
  refine ⟨lines.length, last, piece, ?_, ?_, ?_⟩
  · simp [whole]
  · rw [line, line', Place.origin, Nat.add_comm]
  · rw [column, column', Place.origin]
    simp [Nat.add_comm]

theorem PointsAtLine.pointsInto {c : Char} (points : PointsAtLine text c issue) :
    PointsInto 1 (splitAtChar '\n' text) issue := by
  obtain ⟨index, before, behind, here, line, column⟩ := points
  refine ⟨index, _, _, here, by simp, ?_, column, Nat.le_add_left 1 _, ?_⟩
  · rw [line, Nat.add_comm]
  · rw [byteLength_append]
    exact Nat.add_le_add_right (Nat.le_add_right _ _) 1

theorem pointsInto_of_masks (masks : Masks text masked)
    (points : PointsInto 1 (splitAtChar '\n' masked) issue) :
    PointsInto 1 (splitAtChar '\n' text) issue := by
  obtain ⟨index, stretch, column, here, filled, place⟩ := points
  have lengths := congrArg (·[index]?) (lines_of_masks masks)
  simp only [List.getElem?_map, here, Option.map_some] at lengths
  obtain ⟨original, here', bytes⟩ := Option.map_eq_some_iff.1 lengths.symm
  refine ⟨index, original, column, here', ?_, bytes ▸ place⟩
  rintro rfl
  exact filled (byteLength_eq_zero_iff.1 bytes.symm)

theorem pointsAt_of_masks (masks : Masks text masked) {c : Char} (solid : c ≠ ' ')
    (points : PointsAt masked c issue) : PointsAt text c issue := by
  obtain ⟨front, behind, spelt, place⟩ := points
  obtain ⟨front', behind', spelt', inFront⟩ := masks.exists_front solid spelt
  rw [advance_of_masks inFront] at place
  exact ⟨front', behind', spelt', place⟩

def namedDelimiter? (message : String) : Option Char :=
  ((dropHead? "unmatched '".toList message.toList <|> dropHead? "mismatched '".toList message.toList <|>
    dropHead? "unclosed '".toList message.toList).bind List.head?)

/-! Literals and comments -/

def literalMessages : List String :=
  ["unterminated comment", "invalid raw string delimiter", "unterminated raw string",
    "missing terminating \" character", "missing terminating ' character"]

theorem namedDelimiter?_literal {message : String} (mem : message ∈ literalMessages) :
    namedDelimiter? message = none := by
  have all : ∀ message ∈ literalMessages, namedDelimiter? message = none := by decide +kernel
  exact all message mem

/-- What is wrong with a literal or comment is told at its first character. -/
theorem issues_of_firstPart {place : Place} {lineStart : Bool} {before rest : List Char} {c : Char}
    (mem : issue ∈ (firstPart place lineStart before c rest).issues) :
    ∃ message ∈ literalMessages, issue = errorAt place message ∧ c ≠ '\n' := by
  unfold firstPart at mem
  split at mem
  · simp at mem
  next inLine =>
  split at mem
  · simp at mem
  split at mem
  · simp at mem
  split at mem
  · split at mem
    · simp at mem
    · obtain rfl := List.mem_singleton.1 mem
      exact ⟨_, by decide +kernel, rfl, inLine⟩
  split at mem
  · unfold rawPart at mem
    split at mem
    · obtain rfl := List.mem_singleton.1 mem
      exact ⟨_, by decide +kernel, rfl, inLine⟩
    · simp only at mem
      split at mem
      · simp at mem
      · obtain rfl := List.mem_singleton.1 mem
        exact ⟨_, by decide +kernel, rfl, inLine⟩
  split at mem
  · next isQuote =>
      split at mem
      · simp at mem
      · obtain rfl := List.mem_singleton.1 mem
        refine ⟨_, ?_, rfl, inLine⟩
        obtain rfl | rfl := isQuote.1 <;> decide +kernel
  · simp at mem

theorem issues_of_maskFrom {place : Place} {lineStart : Bool} {before : List Char}
    (mem : issue ∈ (maskFrom place lineStart before text).issues) :
    issue.message ∈ literalMessages ∧ ∃ c, c ≠ '\n' ∧ PointsFrom place text c issue := by
  fun_induction maskFrom place lineStart before text with
  | case1 => cases mem
  | case2 place lineStart before c rest part ih =>
      obtain here | later := List.mem_append.1 mem
      · obtain ⟨message, known, rfl, inLine⟩ := issues_of_firstPart here
        exact ⟨known, c, inLine, pointsFrom_here place c rest message⟩
      · obtain ⟨known, d, inLine, points⟩ := ih later
        have whole := points.behind
        rw [firstPart_append] at whole
        exact ⟨known, d, inLine, whole⟩

/-! Delimiters -/

def delimiters : List Char := ['(', ')', '[', ']', '{', '}']

theorem namedDelimiter?_unmatched (kind : Delimiter) :
    namedDelimiter? s!"unmatched '{kind.closing}'" = some kind.closing := by
  cases kind <;> decide +kernel

theorem namedDelimiter?_unclosed (kind : Delimiter) :
    namedDelimiter? s!"unclosed '{kind.opening}'" = some kind.opening := by
  cases kind <;> decide +kernel

theorem namedDelimiter?_mismatch (kind : Delimiter) (place : Place) (opened : Opened) :
    namedDelimiter? (mismatch kind place opened).message = some kind.closing := by
  obtain ⟨other, start⟩ := opened
  cases kind <;> simp [mismatch, errorAt, namedDelimiter?, dropHead?, Delimiter.closing, toString]

theorem opening_mem_delimiters (kind : Delimiter) : kind.opening ∈ delimiters := by
  cases kind <;> decide

theorem closing_mem_delimiters (kind : Delimiter) : kind.closing ∈ delimiters := by
  cases kind <;> decide

def NamesFrom (place : Place) (text : List Char) (issue : Issue) : Prop :=
  ∃ c ∈ delimiters, namedDelimiter? issue.message = some c ∧ PointsFrom place text c issue

/-- Whether an issue says of the delimiter at a place that it has no partner: of an opening one that it
stays open, and of a closing one that nothing or another delimiter is open. -/
inductive Faults (place : Place) : Char → Issue → Prop
  | unclosed (kind : Delimiter) :
      Faults place kind.opening (errorAt place s!"unclosed '{kind.opening}'")
  | unmatched (kind : Delimiter) :
      Faults place kind.closing (errorAt place s!"unmatched '{kind.closing}'")
  | mismatched (kind : Delimiter) {top : Opened} (differ : top.1 ≠ kind) :
      Faults place kind.closing (mismatch kind place top)

/-- Every issue is about a delimiter of the text, or about one that was open before. -/
theorem faults_of_delimiterIssuesFrom (mem : issue ∈ delimiterIssuesFrom place opened text) :
    (∃ entry ∈ opened, Faults entry.2 entry.1.opening issue) ∨
      ∃ front c behind, text = front ++ c :: behind ∧ Faults (place.advance front) c issue := by
  have behind {place : Place} {c : Char} {rest : List Char}
      (later : ∃ front d behind, rest = front ++ d :: behind ∧
        Faults ((place.step c).advance front) d issue) :
      ∃ front d behind, c :: rest = front ++ d :: behind ∧ Faults (place.advance front) d issue := by
    obtain ⟨front, d, behind, rfl, faults⟩ := later
    exact ⟨c :: front, d, behind, rfl, faults⟩
  fun_induction delimiterIssuesFrom place opened text with
  | case1 place opened =>
      obtain ⟨entry, isOpen, rfl⟩ := List.mem_map.1 mem
      exact .inl ⟨entry, List.mem_reverse.1 isOpen, .unclosed entry.1⟩
  | case2 place opened c rest next kind opens ih =>
      obtain rfl := Delimiter.eq_of_ofOpening? opens
      obtain ⟨entry, isOpen, faults⟩ | later := ih mem
      · obtain rfl | older := List.mem_cons.1 isOpen
        · exact .inr ⟨[], kind.opening, rest, rfl, faults⟩
        · exact .inl ⟨entry, older, faults⟩
      · exact .inr (behind later)
  | case3 place opened c rest next _ _ ih => exact (ih mem).imp_right behind
  | case4 place c rest next kind closes _ ih =>
      obtain rfl := Delimiter.eq_of_ofClosing? closes
      obtain rfl | later := List.mem_cons.1 mem
      · exact .inr ⟨[], kind.closing, rest, rfl, .unmatched kind⟩
      · exact (ih later).imp_right behind
  | case5 place c rest next _ top outer _ ih =>
      obtain ⟨entry, isOpen, faults⟩ | later := ih mem
      · exact .inl ⟨entry, List.mem_cons_of_mem top isOpen, faults⟩
      · exact .inr (behind later)
  | case6 place c rest next kind closes _ top outer differ ih =>
      obtain rfl := Delimiter.eq_of_ofClosing? closes
      obtain rfl | later := List.mem_cons.1 mem
      · exact .inr ⟨[], kind.closing, rest, rfl, .mismatched kind differ⟩
      · obtain ⟨entry, isOpen, faults⟩ | later := ih later
        · exact .inl ⟨entry, List.mem_cons_of_mem top isOpen, faults⟩
        · exact .inr (behind later)

theorem Faults.namesFrom {place : Place} {front behind : List Char} {c : Char}
    (faults : Faults (place.advance front) c issue) : NamesFrom place (front ++ c :: behind) issue := by
  cases faults with
  | unclosed kind =>
      exact ⟨_, opening_mem_delimiters kind, namedDelimiter?_unclosed kind, front, behind, rfl, rfl, rfl⟩
  | unmatched kind =>
      exact ⟨_, closing_mem_delimiters kind, namedDelimiter?_unmatched kind, front, behind, rfl, rfl, rfl⟩
  | mismatched kind differ =>
      exact ⟨_, closing_mem_delimiters kind, namedDelimiter?_mismatch kind _ _, front, behind, rfl, rfl, rfl⟩

/-- An issue about delimiters names one and points at it. -/
theorem issues_of_delimiterIssues (mem : issue ∈ delimiterIssues masked) :
    NamesFrom .origin masked issue := by
  obtain ⟨entry, none, -⟩ | ⟨front, c, behind, rfl, faults⟩ := faults_of_delimiterIssuesFrom mem
  · cases none
  · exact faults.namesFrom

/-! Statements and style -/

theorem byteLength_dropEndWhile_le (kind : Char → Bool) (line : List Char) :
    byteLength (dropEndWhile kind line) ≤ byteLength line := by
  induction line with
  | nil => exact Nat.le_refl 0
  | cons c line ih =>
      rw [dropEndWhile_cons]
      split
      · exact Nat.zero_le _
      · rw [byteLength_cons, byteLength_cons]
        exact Nat.add_le_add_left ih _

theorem ne_nil_of_lacksSemicolon {closers : List Nat} {start : Nat} {state : LineEnd}
    {line : List Char} {following : List (List Char)}
    (lacks : lacksSemicolon closers start state line following = true) : line ≠ [] := by
  rintro rfl
  simp [lacksSemicolon, dropEndWhile] at lacks

theorem namedDelimiter?_statement : namedDelimiter? "expected ';' after statement" = none := by
  decide +kernel

inductive IsStyleMessage : String → Prop
  | long : IsStyleMessage s!"line longer than {maxLineBytes} characters"
  | bare (word : String) : IsStyleMessage s!"empty body after '{word}'"

theorem namedDelimiter?_style {message : String} (style : IsStyleMessage message) :
    namedDelimiter? message = none := by
  cases style with
  | long => decide +kernel
  | bare word => simp [namedDelimiter?, dropHead?, toString]

theorem pointsInto_here {number column : Nat} {line : List Char} {lines : List (List Char)}
    {level : IssueLevel} {message : String} (filled : line ≠ []) (positive : 1 ≤ column)
    (inside : column ≤ byteLength line + 1) :
    PointsInto number (line :: lines) ⟨level, message, some number, some column⟩ :=
  ⟨0, line, column, rfl, filled, rfl, rfl, positive, inside⟩

/-- An issue about a statement is about a line that lacks its semicolon, and points behind it. -/
theorem exists_line_of_terminatorIssuesFrom {closers : List Nat} {number start : Nat}
    {states : List LineEnd} {lines : List (List Char)}
    (mem : issue ∈ terminatorIssuesFrom closers number start states lines) :
    ∃ earlier line following state, lines = earlier ++ line :: following ∧
      issue = ⟨.error, "expected ';' after statement", some (number + earlier.length),
        some (byteLength (dropEndWhile isAsciiBlank line) + 1)⟩ ∧
        lacksSemicolon closers (start + byteLength (ended earlier)) state line following = true := by
  have later {number start : Nat} {line : List Char} {following : List (List Char)}
      (found : ∃ earlier next others state, following = earlier ++ next :: others ∧
        issue = ⟨.error, "expected ';' after statement", some (number + 1 + earlier.length),
          some (byteLength (dropEndWhile isAsciiBlank next) + 1)⟩ ∧
          lacksSemicolon closers (start + byteLength line + 1 + byteLength (ended earlier)) state next
            others = true) :
      ∃ earlier next others state, line :: following = earlier ++ next :: others ∧
        issue = ⟨.error, "expected ';' after statement", some (number + earlier.length),
          some (byteLength (dropEndWhile isAsciiBlank next) + 1)⟩ ∧
          lacksSemicolon closers (start + byteLength (ended earlier)) state next others = true := by
    obtain ⟨earlier, next, others, state, rfl, rfl, lacks⟩ := found
    have offset : start + byteLength (ended (line :: earlier)) =
        start + byteLength line + 1 + byteLength (ended earlier) := by
      rw [byteLength_ended_cons]
      omega
    refine ⟨line :: earlier, next, others, state, rfl, ?_, ?_⟩
    · rw [List.length_cons, Nat.add_assoc, Nat.add_comm 1]
    · rw [offset, lacks]
  fun_induction terminatorIssuesFrom closers number start states lines with
  | case1 number start state states line following rest lacks column ih =>
      obtain rfl | mem := List.mem_cons.1 mem
      · exact ⟨[], line, following, state, rfl, rfl, lacks⟩
      · exact later (ih mem)
  | case2 number start state states line following rest _ ih => exact later (ih mem)
  | case3 => cases mem

theorem issues_of_terminatorIssuesFrom {closers : List Nat} {number start : Nat}
    {states : List LineEnd} {lines : List (List Char)}
    (mem : issue ∈ terminatorIssuesFrom closers number start states lines) :
    namedDelimiter? issue.message = none ∧ PointsInto number lines issue := by
  obtain ⟨earlier, line, following, state, rfl, rfl, lacks⟩ := exists_line_of_terminatorIssuesFrom mem
  refine ⟨namedDelimiter?_statement, earlier.length, line, _, ?_, ne_nil_of_lacksSemicolon lacks, rfl, rfl,
    Nat.le_add_left 1 _, ?_⟩
  · rw [List.getElem?_append_right (Nat.le_refl _), Nat.sub_self]
    rfl
  · exact Nat.add_le_add_right (byteLength_dropEndWhile_le isAsciiBlank line) 1

theorem issues_of_styleIssuesFrom {number : Nat} {lines : List (List Char)}
    (mem : issue ∈ styleIssuesFrom number lines) :
    IsStyleMessage issue.message ∧ PointsInto number lines issue := by
  fun_induction styleIssuesFrom number lines with
  | case1 => cases mem
  | case2 number line rest long bare ih =>
      obtain first | later := List.mem_append.1 mem
      · obtain isLong | isBare := List.mem_append.1 first
        · have exceeds : maxLineBytes < byteLength line := by
            by_contra fits
            simp only [long, if_neg fits, List.not_mem_nil] at isLong
          simp only [long, if_pos exceeds] at isLong
          obtain rfl := List.mem_singleton.1 isLong
          refine ⟨.long, pointsInto_here ?_ (Nat.le_add_left 1 _) ?_⟩
          · rintro rfl
            exact absurd exceeds (Nat.not_lt_zero _)
          · exact Nat.le_succ_of_le exceeds
        · have filled : line ≠ [] := by
            rintro rfl
            simp [bare, emptyBodyWord?, dropHead?] at isBare
          simp only [bare] at isBare
          split at isBare
          · obtain rfl := List.mem_singleton.1 isBare
            exact ⟨.bare _, pointsInto_here filled (Nat.le_refl 1) (Nat.le_add_left 1 _)⟩
          · cases isBare
      · exact ⟨(ih later).1, (ih later).2.behind line⟩

/-! All issues -/

/-- A line that holds something is one of the lines that are counted. -/
theorem lt_lineCount {text : String} {index : Nat} {stretch : List Char}
    (here : (splitAtChar '\n' text.toList)[index]? = some stretch) (filled : stretch ≠ []) :
    index < lineCount text := by
  unfold lineCount linesOf
  obtain none | ⟨init, last, spelt⟩ := List.eq_nil_or_concat (splitAtChar '\n' text.toList)
  · exact absurd none (splitAtChar_ne_nil '\n' text.toList)
  · rw [List.concat_eq_append] at spelt
    have bound : index < (init ++ [last]).length := by
      rw [← spelt]
      exact (List.getElem?_eq_some_iff.1 here).1
    rw [spelt] at here
    rw [List.length_append, List.length_singleton] at bound
    cases last with
    | nil =>
        have inFront : index ≠ init.length := by
          rintro rfl
          rw [List.getElem?_concat_length] at here
          exact filled (Option.some.inj here).symm
        simp [spelt]
        omega
    | cons c last =>
        simp [spelt]
        omega

/-- The line and the column of an issue, the line first. -/
def position (issue : Issue) : ℕ ×ₗ ℕ := toLex (issue.line.getD 0, issue.column.getD 0)

theorem isBefore_iff (a b : Issue) : Issue.isBefore a b = true ↔ position a ≤ position b := by
  simp [Issue.isBefore, position, Prod.Lex.toLex_le_toLex]

theorem isBefore_trans (a b c : Issue) (first : Issue.isBefore a b = true)
    (second : Issue.isBefore b c = true) : Issue.isBefore a c = true := by
  rw [isBefore_iff] at first second ⊢
  exact first.trans second

theorem isBefore_total (a b : Issue) : (Issue.isBefore a b || Issue.isBefore b a) = true := by
  rw [Bool.or_eq_true, isBefore_iff, isBefore_iff]
  exact le_total _ _

/-- Where the issues of form come from. -/
theorem issues_of_formIssues {text : String} (mem : issue ∈ formIssues text) :
    issue ∈ (mask text.toList).issues ∨ issue ∈ delimiterIssues (mask text.toList).text ∨
      issue ∈ terminatorIssues (mask text.toList).text ∨
      issue ∈ styleIssues (mask text.toList).text := by
  simp only [formIssues, List.mem_mergeSort, List.mem_append] at mem
  obtain ((literals | pairing) | statements) | style := mem
  · exact .inl literals
  · exact .inr (.inl pairing)
  · refine .inr (.inr (.inl ?_))
    split at statements
    · cases statements
    · exact statements
  · exact .inr (.inr (.inr style))

theorem solid_of_mem_delimiters {c : Char} (mem : c ∈ delimiters) : c ≠ ' ' ∧ c ≠ '\n' := by
  simp only [delimiters, List.mem_cons, List.not_mem_nil, or_false] at mem
  obtain rfl | rfl | rfl | rfl | rfl | rfl := mem <;> decide

/-- What is said about delimiters of the masked text points at them in the text. -/
theorem NamesFrom.of_masks (masks : Masks text masked) (names : NamesFrom .origin masked issue) :
    NamesFrom .origin text issue := by
  obtain ⟨c, mem, names, points⟩ := names
  exact ⟨c, mem, names, pointsAt_of_masks masks (solid_of_mem_delimiters mem).1 points⟩

/-- Each issue of form points into a line, and one that names a delimiter points at it. -/
theorem points_of_formIssues {text : String} (mem : issue ∈ formIssues text) :
    PointsInto 1 (splitAtChar '\n' text.toList) issue ∧
      (namedDelimiter? issue.message = none ∨ NamesFrom .origin text.toList issue) := by
  have masks := masks_mask text.toList
  obtain literals | pairing | statements | style := issues_of_formIssues mem
  · obtain ⟨known, c, inLine, points⟩ := issues_of_maskFrom literals
    exact ⟨(PointsAt.pointsAtLine inLine points).pointsInto, .inl (namedDelimiter?_literal known)⟩
  · have names := (issues_of_delimiterIssues pairing).of_masks masks
    refine ⟨?_, .inr names⟩
    obtain ⟨c, mem, -, points⟩ := names
    exact (PointsAt.pointsAtLine (solid_of_mem_delimiters mem).2 points).pointsInto
  · obtain ⟨none, points⟩ := issues_of_terminatorIssuesFrom statements
    exact ⟨pointsInto_of_masks masks points, .inl none⟩
  · obtain ⟨about, points⟩ := issues_of_styleIssuesFrom style
    exact ⟨pointsInto_of_masks masks points, .inl (namedDelimiter?_style about)⟩

/-- Masking goes through a text part by part, keeps each byte or makes it a space, and keeps the line
feeds. The issues of form have a line of the text and a column in it or right behind it, those of
delimiters point at the delimiter that they name, and they come in the order of their places. -/
theorem positions_of_formIssues (text : String) :
    (∀ place lineStart before c rest, (firstPart place lineStart before c rest).taken ++
        (firstPart place lineStart before c rest).rest = c :: rest) ∧
      List.Forall₂ MasksByte (encode text) (encode (String.ofList (mask text.toList).text)) ∧
      (∀ issue ∈ formIssues text, ∃ line column stretch,
        issue.line = some line ∧ issue.column = some column ∧ 1 ≤ line ∧ line ≤ lineCount text ∧
          (splitAtChar '\n' text.toList)[line - 1]? = some stretch ∧
          1 ≤ column ∧ column ≤ byteLength stretch + 1) ∧
      (∀ issue ∈ delimiterIssues (mask text.toList).text,
        ∃ c ∈ delimiters, namedDelimiter? issue.message = some c) ∧
      (∀ issue ∈ formIssues text, ∀ c, namedDelimiter? issue.message = some c →
        PointsAtLine text.toList c issue) ∧
      (formIssues text).Pairwise (position · ≤ position ·) := by
  refine ⟨firstPart_append, ?_, fun issue mem => ?_, fun issue mem => ?_, fun issue mem c names => ?_, ?_⟩
  · have bytes := bytes_of_masks (masks_mask text.toList)
    rwa [String.ofList_toList] at bytes
  · obtain ⟨index, stretch, column, here, filled, line, rest⟩ := (points_of_formIssues mem).1
    refine ⟨1 + index, column, stretch, line, rest.1, Nat.le_add_right 1 index, ?_, ?_, rest.2⟩
    · have counted := lt_lineCount here filled
      omega
    · rwa [Nat.add_sub_cancel_left]
  · obtain ⟨c, mem, names, -⟩ := issues_of_delimiterIssues mem
    exact ⟨c, mem, names⟩
  · obtain none | ⟨d, mem', names', points⟩ := (points_of_formIssues mem).2
    · rw [none] at names
      cases names
    · rw [names'] at names
      obtain rfl := Option.some.inj names
      exact PointsAt.pointsAtLine (solid_of_mem_delimiters mem').2 points
  · have sorted := List.pairwise_mergeSort isBefore_trans isBefore_total
    exact (sorted _).imp fun before => (isBefore_iff _ _).1 before

end Graft.Code
