import Graft.Proofs.Code.Pairing
import Graft.Proofs.Text.Lines
import Graft.Proofs.Text.Trim
import Mathlib.Data.List.TakeWhile

/-!
Headers of control statements. The stack of the parentheses looks at no other delimiter, but in a text
whose delimiters are well-nested every stretch between a parenthesis and its partner leaves it as it was
(`openHeaders_of_closes`), so the closing parentheses of headers are found behind any brackets, braces and
calls inside (`mem_headerClosers_iff`). A line that ends with one of them needs no semicolon
(`headers_of_wellNested`).
-/

namespace Graft.Code

open Graft.Text

variable {text front inside behind before lead : List Char} {opened : List Bool}
  {kinds : List Delimiter} {issue : Issue}

/-! Words in front of parentheses -/

def EndsInHeaderWord (text : List Char) : Prop :=
  ∃ lead word gap, text = lead ++ word ++ gap ∧ String.ofList word ∈ headerWords ∧
    (∀ c ∈ gap, isAsciiBlank c = true) ∧ ∀ c, lead.getLast? = some c → isWordByte c = false

theorem of_mem_headerWords {word : List Char} (mem : String.ofList word ∈ headerWords) :
    (∀ c ∈ word, isWordByte c = true) ∧ ∃ c rest, word.reverse = c :: rest ∧ isAsciiBlank c = false := by
  have solid : ∀ word ∈ headerWords, word.toList.all isWordByte = true ∧
      word.toList.reverse.head?.any (!isAsciiBlank ·) = true := by decide +kernel
  have facts := solid _ mem
  rw [String.toList_ofList] at facts
  refine ⟨List.all_eq_true.1 facts.1, ?_⟩
  cases spelt : word.reverse with
  | nil => simp [spelt] at facts
  | cons c rest => exact ⟨c, rest, rfl, by simpa [spelt] using facts.2⟩

/-- A parenthesis opens a header exactly behind a header's word. -/
theorem opensHeader_reverse_iff : opensHeader text.reverse = true ↔ EndsInHeaderWord text := by
  constructor
  · intro opens
    let trimmed := text.reverse.dropWhile isAsciiBlank
    refine ⟨(trimmed.dropWhile isWordByte).reverse, (trimmed.takeWhile isWordByte).reverse,
      (text.reverse.takeWhile isAsciiBlank).reverse, ?_, ?_, ?_, ?_⟩
    · rw [← List.reverse_append, List.takeWhile_append_dropWhile, ← List.reverse_append,
        List.takeWhile_append_dropWhile, List.reverse_reverse]
    · exact List.contains_iff_mem.1 opens
    · intro c mem
      exact List.mem_takeWhile_imp (List.mem_reverse.1 mem)
    · intro c last
      rw [List.getLast?_reverse] at last
      have stops := List.head?_dropWhile_not isWordByte trimmed
      rw [last] at stops
      exact stops
  · rintro ⟨lead, word, gap, rfl, mem, blank, stops⟩
    obtain ⟨letters, c, rest, spelt, solid⟩ := of_mem_headerWords mem
    have gone : (lead ++ word ++ gap).reverse.dropWhile isAsciiBlank = word.reverse ++ lead.reverse := by
      have blanks : ∀ c ∈ gap.reverse, isAsciiBlank c = true := by simpa using blank
      rw [List.reverse_append, List.reverse_append, List.dropWhile_append_of_pos blanks, spelt,
        List.cons_append, List.dropWhile_cons_of_neg (by simp [solid])]
    have kept : (word.reverse ++ lead.reverse).takeWhile isWordByte = word.reverse := by
      have letters : ∀ c ∈ word.reverse, isWordByte c = true := by simpa using letters
      rw [List.takeWhile_append_of_pos letters]
      cases before : lead.reverse with
      | nil => simp
      | cons d rest =>
          have last := stops d (by rw [← List.head?_reverse, before]; rfl)
          rw [List.takeWhile_cons_of_neg (by simp [last]), List.append_nil]
    rw [opensHeader, gone, lastWord, kept, List.reverse_reverse]
    exact List.contains_iff_mem.2 mem

/-! The stack of open parentheses -/

/-- Whether each open parenthesis behind a text opened a header, innermost first, given those that were
open in front of it and the text before it, last character first. -/
def openHeaders (opened : List Bool) (before : List Char) : List Char → List Bool
  | [] => opened
  | c :: rest =>
      if c = '(' then openHeaders (opensHeader before :: opened) (c :: before) rest
      else if c = ')' then openHeaders opened.tail (c :: before) rest
      else openHeaders opened (c :: before) rest

theorem openHeaders_append (opened : List Bool) (before front text : List Char) :
    openHeaders opened before (front ++ text) =
      openHeaders (openHeaders opened before front) (front.reverse ++ before) text := by
  induction front generalizing opened before with
  | nil => rfl
  | cons c front ih =>
      rw [List.cons_append, openHeaders, openHeaders, List.reverse_cons, List.append_assoc]
      split
      · exact ih _ _
      · split
        · exact ih _ _
        · exact ih _ _

theorem openHeaders_cons (opened : List Bool) (before : List Char) (c : Char) (rest : List Char) :
    openHeaders opened before (c :: rest) =
      openHeaders (openHeaders opened before [c]) (c :: before) rest :=
  openHeaders_append opened before [c] rest

theorem headerClosersFrom_cons (offset : Nat) (opened : List Bool) (before : List Char) (c : Char)
    (rest : List Char) :
    headerClosersFrom offset opened before (c :: rest) =
      (if c = ')' ∧ opened.head? = some true then [offset] else []) ++
        headerClosersFrom (offset + c.utf8Size) (openHeaders opened before [c]) (c :: before) rest := by
  rw [headerClosersFrom, openHeaders]
  split_ifs <;> simp_all [openHeaders]

/-- The closers are the closing parentheses that meet one that opened a header. -/
theorem mem_headerClosersFrom_iff {offset closing : Nat} :
    closing ∈ headerClosersFrom offset opened before text ↔
      ∃ front behind, text = front ++ ')' :: behind ∧
        (openHeaders opened before front).head? = some true ∧ closing = offset + byteLength front := by
  induction text generalizing offset opened before with
  | nil => simp [headerClosersFrom]
  | cons c rest ih =>
      rw [headerClosersFrom_cons, List.mem_append, ih]
      constructor
      · rintro (here | ⟨front, behind, rfl, header, rfl⟩)
        · split_ifs at here with closes
          · obtain rfl := List.mem_singleton.1 here
            exact ⟨[], rest, by rw [closes.1, List.nil_append], closes.2, rfl⟩
          · cases here
        · refine ⟨c :: front, behind, rfl, ?_, ?_⟩
          · rw [openHeaders_cons, header]
          · rw [byteLength_cons, Nat.add_assoc]
      · rintro ⟨front, behind, whole, header, rfl⟩
        cases front with
        | nil =>
            obtain ⟨rfl, rfl⟩ := List.cons.inj whole
            exact .inl (by rw [if_pos ⟨rfl, header⟩]; exact List.mem_singleton_self _)
        | cons d front =>
            obtain ⟨rfl, rfl⟩ := List.cons.inj whole
            refine .inr ⟨front, behind, rfl, ?_, ?_⟩
            · rw [← openHeaders_cons, header]
            · rw [byteLength_cons, Nat.add_assoc]

/-! Partners -/

/-- A stretch that closes what is open takes as many parentheses from the stack, and no others. -/
theorem openHeaders_of_closes (mine opened : List Bool) (before : List Char)
    (nested : closes kinds (delimitersIn text) = true) (many : mine.length = kinds.count .paren) :
    openHeaders (mine ++ opened) before text = opened := by
  induction text generalizing kinds mine before with
  | nil =>
      obtain rfl := List.isEmpty_iff.1 nested
      obtain rfl := List.length_eq_zero_iff.1 many
      rfl
  | cons c rest ih =>
      by_cases mem : c ∈ delimiters
      · rw [delimitersIn_cons_of_mem rest mem] at nested
        obtain ⟨kind, rfl, inner⟩ | ⟨kind, outer, rfl, rfl, later⟩ := closes_cons nested
        · cases kind with
          | paren => exact ih (opensHeader before :: mine) _ inner (by simp [many])
          | bracket => exact ih mine _ inner (by simp [many])
          | brace => exact ih mine _ inner (by simp [many])
        · cases kind with
          | paren =>
              have filled := many.trans List.count_cons_self
              obtain ⟨top, mine, rfl⟩ := List.exists_cons_of_length_eq_add_one filled
              exact ih mine _ later (by simpa using many)
          | bracket => exact ih mine _ later (by simpa using many)
          | brace => exact ih mine _ later (by simpa using many)
      · rw [delimitersIn_cons_of_not_mem rest mem] at nested
        have opens : c ≠ '(' := fun same => mem (by simp [same, delimiters])
        have shuts : c ≠ ')' := fun same => mem (by simp [same, delimiters])
        rw [openHeaders, if_neg opens, if_neg shuts]
        exact ih mine _ nested many

/-- Behind a parenthesis and a well-nested stretch the innermost open parenthesis is that one. -/
theorem head?_openHeaders (nested : WellNested (delimitersIn inside)) :
    (openHeaders [] [] (lead ++ '(' :: inside)).head? = some (opensHeader lead.reverse) := by
  rw [openHeaders_append, openHeaders_cons]
  have same := openHeaders_of_closes [] (opensHeader lead.reverse :: openHeaders [] [] lead)
    ('(' :: lead.reverse) (wellNested_iff_closes.1 nested) rfl
  simpa [openHeaders] using congrArg List.head? same

/-- What stands in front of a closing parenthesis closes a part of what was open up to a parenthesis, or
leaves one of its own open. -/
theorem partner_of_closes (nested : closes kinds (delimitersIn (front ++ ')' :: behind)) = true) :
    (∃ lead inside, front = lead ++ '(' :: inside ∧ WellNested (delimitersIn inside)) ∨
      ∃ inner outer, kinds = inner ++ .paren :: outer ∧ closes inner (delimitersIn front) = true := by
  induction front generalizing kinds with
  | nil =>
      have closer : ')' ∈ delimiters := closing_mem_delimiters .paren
      rw [List.nil_append, delimitersIn_cons_of_mem behind closer] at nested
      obtain ⟨kind, same, -⟩ | ⟨kind, outer, same, rfl, -⟩ := closes_cons nested
      · exact absurd same.symm (Delimiter.opening_ne_closing kind .paren)
      · obtain rfl : .paren = kind := Delimiter.closing_inj.1 same
        exact .inr ⟨[], outer, rfl, rfl⟩
  | cons c front ih =>
      have deeper : (∃ lead inside, front = lead ++ '(' :: inside ∧ WellNested (delimitersIn inside)) →
          ∃ lead inside, c :: front = lead ++ '(' :: inside ∧ WellNested (delimitersIn inside) := by
        rintro ⟨lead, inside, rfl, inner⟩
        exact ⟨c :: lead, inside, rfl, inner⟩
      rw [List.cons_append] at nested
      by_cases mem : c ∈ delimiters
      · rw [delimitersIn_cons_of_mem _ mem] at nested ⊢
        obtain ⟨kind, rfl, inner⟩ | ⟨kind, rest, rfl, rfl, later⟩ := closes_cons nested
        · obtain found | ⟨stack, outer, spelt, shut⟩ := ih inner
          · exact .inl (deeper found)
          · cases stack with
            | nil =>
                obtain rfl := (List.cons.inj spelt).1
                exact .inl ⟨[], front, rfl, wellNested_iff_closes.2 shut⟩
            | cons top stack =>
                obtain ⟨rfl, rfl⟩ := List.cons.inj spelt
                exact .inr ⟨stack, outer, rfl, by rw [closes_opening, shut]⟩
        · obtain found | ⟨stack, outer, rfl, shut⟩ := ih later
          · exact .inl (deeper found)
          · exact .inr ⟨kind :: stack, outer, rfl, by rw [closes_closing, shut]⟩
      · rw [delimitersIn_cons_of_not_mem _ mem] at nested ⊢
        exact (ih nested).imp_left deeper

/-- In a well-nested text every closing parenthesis has a partner with a well-nested stretch between. -/
theorem exists_partner (nested : WellNested (delimitersIn (front ++ ')' :: behind))) :
    ∃ lead inside, front = lead ++ '(' :: inside ∧ WellNested (delimitersIn inside) := by
  obtain found | ⟨inner, outer, none, -⟩ := partner_of_closes (wellNested_iff_closes.1 nested)
  · exact found
  · exact absurd none (by simp)

/-- What stays open in front of a well-nested word is not closed. -/
theorem closes_append_opening (kinds : List Delimiter) (kind : Delimiter) (word : List Char)
    {rest : List Char} (nested : WellNested rest) :
    closes kinds (word ++ kind.opening :: rest) = false := by
  induction word generalizing kinds with
  | nil =>
      rw [List.nil_append, closes_opening, ← List.append_nil rest, closes_append nested]
      rfl
  | cons c word ih =>
      rw [Bool.eq_false_iff]
      intro shut
      obtain ⟨_, -, inner⟩ | ⟨_, _, -, -, later⟩ := closes_cons shut
      · exact absurd ((ih _).symm.trans inner) Bool.false_ne_true
      · exact absurd ((ih _).symm.trans later) Bool.false_ne_true

/-- A closing parenthesis has only one partner. -/
theorem partner_unique {other within : List Char} (same : lead ++ '(' :: inside = other ++ '(' :: within)
    (nested : WellNested (delimitersIn inside)) (nested' : WellNested (delimitersIn within)) :
    lead = other := by
  have outer {lead inside other within between : List Char} (longer : other = lead ++ between)
      (rest : '(' :: inside = between ++ '(' :: within) (nested : WellNested (delimitersIn inside))
      (nested' : WellNested (delimitersIn within)) : lead = other := by
    cases between with
    | nil => rw [longer, List.append_nil]
    | cons d between =>
        rw [List.cons_append, List.cons.injEq] at rest
        obtain ⟨-, rfl⟩ := rest
        have opener : '(' ∈ delimiters := opening_mem_delimiters .paren
        rw [wellNested_iff_closes, delimitersIn_append, delimitersIn_cons_of_mem within opener] at nested
        have leftOpen := closes_append_opening [] .paren (delimitersIn between) nested'
        exact absurd (leftOpen.symm.trans nested) Bool.false_ne_true
  obtain ⟨between, longer, rest⟩ | ⟨between, longer, rest⟩ := List.append_eq_append_iff.1 same
  · exact outer longer rest nested nested'
  · exact (outer longer rest nested' nested).symm

/-- In a well-nested text the closers of headers are the closing parentheses whose partners stand behind
a header's word. -/
theorem mem_headerClosers_iff {masked : List Char} {closing : Nat}
    (nested : WellNested (delimitersIn masked)) :
    closing ∈ headerClosers masked ↔ ∃ front inside behind,
      masked = front ++ '(' :: inside ++ ')' :: behind ∧ WellNested (delimitersIn inside) ∧
        EndsInHeaderWord front ∧ closing = byteLength (front ++ '(' :: inside) := by
  rw [headerClosers, mem_headerClosersFrom_iff]
  constructor
  · rintro ⟨upTo, behind, rfl, header, rfl⟩
    obtain ⟨front, inside, rfl, inner⟩ := exists_partner nested
    rw [head?_openHeaders inner, Option.some.injEq, opensHeader_reverse_iff] at header
    exact ⟨front, inside, behind, rfl, inner, header, Nat.zero_add _⟩
  · rintro ⟨front, inside, behind, rfl, inner, header, rfl⟩
    refine ⟨front ++ '(' :: inside, behind, rfl, ?_, (Nat.zero_add _).symm⟩
    rw [head?_openHeaders inner, opensHeader_reverse_iff.2 header]

/-! Lines that end with a header -/

/-- A line does not lack its semicolon when its last code closes a header. -/
theorem lacksSemicolon_of_closes {closers : List Nat} {start : Nat} {state : LineEnd} {blanks : List Char}
    {following : List (List Char)} (blank : ∀ c ∈ blanks, isAsciiBlank c = true)
    (closes : start + byteLength front ∈ closers) :
    lacksSemicolon closers start state (front ++ ')' :: blanks) following = false := by
  have ends : dropEndWhile isAsciiBlank (front ++ ')' :: blanks) = front ++ [')'] := by
    rw [dropEndWhile_append_cons (by decide), dropEndWhile_of_all blank]
  have offset : start + byteLength (front ++ [')']) - 1 = start + byteLength front := by
    rw [byteLength_append]
    rfl
  have found : closers.contains (start + byteLength (front ++ [')']) - 1) = true := by
    rw [offset, List.contains_iff_mem]
    exact closes
  simp only [lacksSemicolon, ends, List.getLast?_concat, found, beq_self_eq_true, Bool.and_self,
    Bool.not_true, Bool.and_false, Bool.false_and]

theorem not_isStyleMessage_statement : ¬IsStyleMessage "expected ';' after statement" := by
  generalize spelt : "expected ';' after statement" = message
  rintro (_ | word)
  · exact absurd spelt (by decide +kernel)
  · have second := congrArg (fun text : String => text.toList[1]?) spelt
    simp [toString] at second

/-- Only what is said of statements says that a semicolon is expected. -/
theorem terminatorIssues_of_message {text : String} (mem : issue ∈ formIssues text)
    (message : issue.message = "expected ';' after statement") :
    issue ∈ terminatorIssues (mask text.toList).text := by
  obtain literals | pairing | statements | style := issues_of_formIssues mem
  · obtain ⟨known, -⟩ := issues_of_maskFrom literals
    rw [message] at known
    exact absurd known (by decide +kernel)
  · obtain ⟨_, -, names, -⟩ := issues_of_delimiterIssues pairing
    rw [message, namedDelimiter?_statement] at names
    cases names
  · exact statements
  · obtain ⟨about, -⟩ := issues_of_styleIssuesFrom style
    rw [message] at about
    exact absurd about not_isStyleMessage_statement

/-- In a text whose delimiters are well-nested every closing parenthesis has one partner, the closers of
headers are those whose partners stand behind a header's word, whatever stands inside, and no issue says
that a semicolon is expected in a line whose last code is such a closer. -/
theorem headers_of_wellNested (text : String)
    (nested : WellNested (delimitersIn (mask text.toList).text)) :
    (∀ upTo behind, (mask text.toList).text = upTo ++ ')' :: behind →
        ∃! front, ∃ inside, upTo = front ++ '(' :: inside ∧ WellNested (delimitersIn inside)) ∧
      (∀ closing, closing ∈ headerClosers (mask text.toList).text ↔ ∃ front inside behind,
        (mask text.toList).text = front ++ '(' :: inside ++ ')' :: behind ∧
          WellNested (delimitersIn inside) ∧ EndsInHeaderWord front ∧
            closing = byteLength (front ++ '(' :: inside)) ∧
      ∀ front inside behind, (mask text.toList).text = front ++ '(' :: inside ++ ')' :: behind →
        WellNested (delimitersIn inside) → EndsInHeaderWord front →
          (∀ c ∈ behind.takeWhile (· != '\n'), isAsciiBlank c = true) →
            ∀ issue ∈ formIssues text, issue.message = "expected ';' after statement" →
              issue.line ≠ some (Place.origin.advance (front ++ '(' :: inside)).line := by
  refine ⟨?_, fun closing => mem_headerClosers_iff nested, ?_⟩
  · intro upTo behind whole
    rw [whole] at nested
    obtain ⟨front, inside, rfl, inner⟩ := exists_partner nested
    refine ⟨front, ⟨inside, rfl, inner⟩, ?_⟩
    rintro other ⟨within, same, inner'⟩
    exact (partner_unique same inner inner').symm
  · intro front inside behind whole inner header blank issue mem message place
    have statement := terminatorIssues_of_message mem message
    have closer := (mem_headerClosers_iff nested).2 ⟨front, inside, behind, whole, inner, header, rfl⟩
    rw [terminatorIssues] at statement
    obtain ⟨earlier, line, following, state, lines, rfl, lacks⟩ :=
      exists_line_of_terminatorIssuesFrom statement
    -- the line of the issue is the one that ends with the closer
    obtain ⟨pieces, tail⟩ := exists_splitAtChar '\n' behind
    obtain ⟨passed, last, upTo, inLines, inLast⟩ := exists_ended (front ++ '(' :: inside)
    have ending : splitAtChar '\n' (')' :: behind) = (')' :: behind.takeWhile (· != '\n')) :: pieces := by
      rw [splitAtChar, if_neg (by decide), tail]
    rw [whole, upTo, List.append_assoc, splitAtChar_ended_append inLines,
      splitAtChar_append_of_not_mem inLast ending] at lines
    rw [upTo, line_advance_ended .origin inLines inLast] at place
    have counted : passed.length = earlier.length := by
      have same := Option.some.inj place
      simp only [Place.origin] at same
      omega
    obtain ⟨rfl, rest⟩ := List.append_inj lines counted
    obtain ⟨rfl, rfl⟩ := List.cons.inj rest
    rw [upTo, byteLength_append, ← Nat.zero_add (byteLength (ended passed))] at closer
    rw [lacksSemicolon_of_closes blank closer] at lacks
    cases lacks

def spreadHeader : String :=
  "int f(int a)\n\x7b\n    if (any(a,\n            \x7b[]\x7b return 1; \x7d(), a[0]\x7d) /* ( */)\n" ++
    "        return 1;\n    return a\n\x7d\n"

/-- The header that is spread ends at its line's end, and the line needs no semicolon, but the one of the
return behind it does. -/
theorem headers_of_spreadHeader :
    WellNested (delimitersIn (mask spreadHeader.toList).text) ∧
      headerClosers (mask spreadHeader.toList).text = [76] ∧
      (∀ issue ∈ formIssues spreadHeader, issue.message = "expected ';' after statement" →
        issue.line ≠ some 4) ∧
      (terminatorIssues (mask spreadHeader.toList).text).map (·.line) = [some 6] := by
  let front := "int f(int a)\n\x7b\n    if ".toList
  let inside := "any(a,\n            \x7b[]\x7b return 1; \x7d(), a[0]\x7d)        ".toList
  let behind := "\n        return 1;\n    return a\n\x7d\n".toList
  have whole : (mask spreadHeader.toList).text = front ++ '(' :: inside ++ ')' :: behind := by
    decide +kernel
  have nested : WellNested (delimitersIn (mask spreadHeader.toList).text) := by
    rw [whole]
    decide +kernel
  have header : EndsInHeaderWord front := by
    refine ⟨"int f(int a)\n\x7b\n    ".toList, "if".toList, [' '], by decide +kernel, by decide +kernel,
      List.all_eq_true.1 (by decide), ?_⟩
    rintro c last
    obtain rfl : ' ' = c := Option.some.inj last
    decide
  refine ⟨nested, ?_, ?_, ?_⟩
  · rw [whole]
    decide +kernel
  · exact (headers_of_wellNested spreadHeader nested).2.2 front inside behind whole (by decide +kernel)
      header (List.all_eq_true.1 (by decide +kernel))
  · rw [whole]
    decide +kernel

end Graft.Code
