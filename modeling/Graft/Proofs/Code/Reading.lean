import Graft.Code.Hazard
import Graft.Proofs.Text.Lines
import Mathlib.Data.List.Basic

/-!
Comments without literals. What the scan for hazards takes away line by line is what a reading finds that
goes through the whole text, knows comments and knows no literals: what the reading takes for code is kept
on its line (`stripComments_append`), and whether a block comment is open in front of a line is where the
reading is there (`start_openAfter`). What is kept of a line is what the rules are held against
(`mem_hazardsFrom`).
-/

namespace Graft.Code

open Graft.Text

/-- Where a reading of a text is that knows comments but no literals. -/
inductive Reading
  | code
  /-- Behind a slash in code. -/
  | slash
  | line
  | block
  /-- Behind a star in a block comment. -/
  | star
  deriving DecidableEq, Repr

namespace Reading

def step : Reading → Char → Reading
  | code, c => if c = '/' then slash else code
  | slash, c => if c = '/' then line else if c = '*' then block else code
  | line, c => if c = '\n' then code else line
  | block, c => if c = '*' then star else block
  | star, c => if c = '/' then code else if c = '*' then star else block

def along (reading : Reading) (text : List Char) : Reading := text.foldl step reading

@[simp] theorem along_nil (reading : Reading) : reading.along [] = reading := rfl

@[simp] theorem along_cons (reading : Reading) (c : Char) (rest : List Char) :
    reading.along (c :: rest) = (reading.step c).along rest := rfl

theorem along_append (reading : Reading) (front rest : List Char) :
    reading.along (front ++ rest) = (reading.along front).along rest :=
  List.foldl_append

def inBlock : Reading → Bool
  | block | star => true
  | _ => false

/-- Where the reading is at the start of a line, which may be in a block comment. -/
def start (opened : Bool) : Reading := if opened then block else code

/-- Whether the reading takes for code what comes next, if anything does. -/
def takes (reading : Reading) (next : Option Char) : Bool :=
  reading == code || reading == slash && next != some '/' && next != some '*'

variable {reading : Reading} {c : Char}

theorem takes_iff {next : Option Char} : reading.takes next = true ↔
    reading = code ∨ reading = slash ∧ next ≠ some '/' ∧ next ≠ some '*' := by
  simp [takes, and_assoc]

theorem step_lineFeed (reading : Reading) : reading.step '\n' = start reading.inBlock := by
  cases reading <;> rfl

theorem inBlock_step_return (reading : Reading) : (reading.step '\r').inBlock = reading.inBlock := by
  cases reading <;> rfl

/-- No line comment ends in its line. -/
theorem line_along {text : List Char} (inLine : '\n' ∉ text) : line.along text = line := by
  induction text with
  | nil => rfl
  | cons c rest ih =>
      rw [List.mem_cons, not_or] at inLine
      rw [along_cons, step, if_neg (Ne.symm inLine.1)]
      exact ih inLine.2

/-- A character of code that opens no comment changes nothing, unless it is a slash at the end. -/
theorem code_along_cons {rest : List Char} (noLine : ∀ tail, c = '/' → rest = '/' :: tail → False)
    (noBlock : ∀ tail, c = '/' → rest = '*' :: tail → False) :
    (c = '/' ∧ rest = []) ∨ code.along (c :: rest) = code.along rest := by
  by_cases slash : c = '/'
  · cases rest with
    | nil => exact .inl ⟨slash, rfl⟩
    | cons d rest =>
        have notSlash : d ≠ '/' := fun same => noLine rest slash (by rw [same])
        have notStar : d ≠ '*' := fun same => noBlock rest slash (by rw [same])
        right
        simp [step, slash, notSlash, notStar]
  · right
    rw [along_cons, step, if_neg slash]

/-- A character of a block comment that does not close it changes nothing, unless it is a star at the
end. -/
theorem block_along_cons {rest : List Char} (opens : ∀ tail, c = '*' → rest = '/' :: tail → False) :
    (c = '*' ∧ rest = []) ∨ block.along (c :: rest) = block.along rest := by
  by_cases isStar : c = '*'
  · cases rest with
    | nil => exact .inl ⟨isStar, rfl⟩
    | cons d rest =>
        have notSlash : d ≠ '/' := fun same => opens rest isStar (by rw [same])
        right
        simp [step, isStar, notSlash]
  · right
    rw [along_cons, step, if_neg isStar]

def opensComment : List Char → Bool
  | '/' :: c :: _ => c == '/' || c == '*'
  | _ => false

def holdsOpening : List Char → Bool
  | [] => false
  | c :: rest => opensComment (c :: rest) || holdsOpening rest

theorem opensComment_cons_iff {rest : List Char} :
    opensComment (c :: rest) = true ↔ c = '/' ∧ (rest.head? = some '/' ∨ rest.head? = some '*') := by
  cases rest with
  | nil => simp [opensComment]
  | cons d rest =>
      by_cases slash : c = '/'
      · simp [opensComment, slash]
      · simp [opensComment, slash]

theorem opensComment_of_append {front : List Char} (rest : List Char)
    (plain : opensComment (front ++ rest) = false) :
    opensComment front = false := by
  cases front with
  | nil => rfl
  | cons c front =>
      rw [Bool.eq_false_iff, List.cons_append, ne_eq, opensComment_cons_iff] at plain
      rw [Bool.eq_false_iff, ne_eq, opensComment_cons_iff]
      rintro ⟨slash, opens⟩
      refine plain ⟨slash, opens.imp ?_ ?_⟩
      all_goals
        intro head
        rw [List.head?_append, head]
        rfl

/-- Behind a character of code that opens no comment the reading takes for code what comes next. -/
theorem takes_step {rest : List Char} (isCode : reading.takes (some c) = true)
    (plain : opensComment (c :: rest) = false) : (reading.step c).takes rest.head? = true := by
  rw [Bool.eq_false_iff, ne_eq, opensComment_cons_iff] at plain
  obtain rfl | ⟨rfl, noLine, noBlock⟩ := takes_iff.1 isCode
  · by_cases slash : c = '/'
    · rw [slash, eq_self, true_and, not_or] at plain
      rw [step, if_pos slash]
      exact takes_iff.2 (.inr ⟨rfl, plain⟩)
    · rw [step, if_neg slash]
      rfl
  · rw [ne_eq, Option.some.injEq] at noLine noBlock
    rw [step, if_neg noLine, if_neg noBlock]
    rfl

/-- Behind a stretch of code that opens no comment the reading takes for code what comes next. -/
theorem takes_along (text rest : List Char) (isCode : reading.takes (text ++ rest).head? = true)
    (plain : holdsOpening (text ++ rest) = false) : (reading.along text).takes rest.head? = true := by
  induction text generalizing reading with
  | nil => exact isCode
  | cons c text ih =>
      rw [List.cons_append, holdsOpening, Bool.or_eq_false_iff] at plain
      exact ih (takes_step isCode plain.1) plain.2

end Reading

open Reading

/-! Lines -/

variable {front rest line : List Char} {opened : Bool}

/-- Whether a block comment is open behind a line is where the reading is. -/
theorem stripComments_snd (opened : Bool) (inLine : '\n' ∉ line) :
    (stripComments opened line).2 = ((start opened).along line).inBlock := by
  fun_induction stripComments opened line with
  | case1 opened => cases opened <;> rfl
  | case2 rest ih => exact ih (by simpa using inLine)
  | case3 c rest opens ih =>
      rw [ih (List.not_mem_of_not_mem_cons inLine)]
      obtain ⟨rfl, rfl⟩ | same := block_along_cons opens
      · rfl
      · exact congrArg inBlock same.symm
  | case4 rest =>
      have later : '\n' ∉ rest := by simpa using inLine
      exact (congrArg inBlock (line_along later)).symm
  | case5 rest kept inside spelt ih =>
      rw [spelt] at ih
      exact ih (by simpa using inLine)
  | case6 c rest noLine noBlock kept inside spelt ih =>
      rw [spelt] at ih
      rw [ih (List.not_mem_of_not_mem_cons inLine)]
      obtain ⟨rfl, rfl⟩ | same := code_along_cons noLine noBlock
      · rfl
      · exact congrArg inBlock same.symm

/-- Where the reading takes for code what comes next, all of it that is kept is kept behind what is kept of
the front. -/
theorem stripComments_append {rest : List Char} (opened : Bool) (inLine : '\n' ∉ front)
    (isCode : ((start opened).along front).takes rest.head? = true) :
    stripComments opened (front ++ rest) =
      ((stripComments opened front).1 ++ (stripComments false rest).1, (stripComments false rest).2) := by
  fun_induction stripComments opened front with
  | case1 opened =>
      cases opened with
      | false => rfl
      | true => cases isCode
  | case2 front ih =>
      rw [List.cons_append, List.cons_append, stripComments]
      exact ih (by simpa using inLine) isCode
  | case3 c front opens ih =>
      obtain ⟨rfl, rfl⟩ | same := block_along_cons opens
      · cases isCode
      · have opens' : ∀ tail, c = '*' → front ++ rest = '/' :: tail → False := by
          rintro tail rfl spelt
          cases front with
          | nil => cases isCode
          | cons d front => exact opens front rfl (by rw [(List.cons.inj spelt).1])
        rw [start, if_pos rfl, same] at isCode
        rw [List.cons_append, stripComments, ih (List.not_mem_of_not_mem_cons inLine) isCode]
        exact opens'
  | case4 front =>
      have later : '\n' ∉ front := by simpa using inLine
      have comment : ((start false).along ('/' :: '/' :: front)) = Reading.line := line_along later
      rw [comment] at isCode
      cases isCode
  | case5 front kept inside spelt ih =>
      rw [List.cons_append, List.cons_append, stripComments, ih (by simpa using inLine) isCode, spelt]
      rfl
  | case6 c front noLine noBlock kept inside spelt ih =>
      -- a slash at the end of the front opens no comment with what follows, which is taken for code
      have noLine' : ∀ tail, c = '/' → front ++ rest = '/' :: tail → False := by
        rintro tail rfl spelt
        cases front with
        | nil => simp [show rest = '/' :: tail from spelt, start, step, takes] at isCode
        | cons d front => exact noLine front rfl (by rw [(List.cons.inj spelt).1])
      have noBlock' : ∀ tail, c = '/' → front ++ rest = '*' :: tail → False := by
        rintro tail rfl spelt
        cases front with
        | nil => simp [show rest = '*' :: tail from spelt, start, step, takes] at isCode
        | cons d front => exact noBlock front rfl (by rw [(List.cons.inj spelt).1])
      have onward : ((start false).along front).takes rest.head? = true := by
        obtain ⟨rfl, rfl⟩ | same := code_along_cons noLine noBlock
        · rfl
        · exact same ▸ isCode
      rw [List.cons_append, stripComments, ih (List.not_mem_of_not_mem_cons inLine) onward, spelt]
      · rfl
      · exact noLine'
      · exact noBlock'

theorem stripComments_cons {c : Char} {rest : List Char} (plain : opensComment (c :: rest) = false) :
    stripComments false (c :: rest) =
      (c :: (stripComments false rest).1, (stripComments false rest).2) := by
  rw [Bool.eq_false_iff, ne_eq, opensComment_cons_iff] at plain
  rw [stripComments]
  · rintro tail rfl rfl
    exact plain ⟨rfl, .inl rfl⟩
  · rintro tail rfl rfl
    exact plain ⟨rfl, .inr rfl⟩

/-- A stretch of code in which no comment opens is kept. -/
theorem stripComments_stretch {stretch rest : List Char}
    (plain : ∀ before c after, stretch = before ++ c :: after → opensComment (c :: after ++ rest) = false) :
    stripComments false (stretch ++ rest) =
      (stretch ++ (stripComments false rest).1, (stripComments false rest).2) := by
  induction stretch with
  | nil => rfl
  | cons c stretch ih =>
      have later := ih fun before d after spelt => plain (c :: before) d after (by rw [spelt]; rfl)
      have first : opensComment (c :: (stretch ++ rest)) = false := plain [] c stretch rfl
      rw [List.cons_append, stripComments_cons first, later]
      rfl

/-- Whether a block comment is open behind some lines, given whether one is open in front of them. -/
def openAfter (opened : Bool) (lines : List (List Char)) : Bool :=
  lines.foldl (fun opened line => (stripComments opened line).2) opened

/-- The return that ends a line opens and closes no comment. -/
theorem inBlock_along_dropReturn (reading : Reading) (line : List Char) :
    (reading.along (dropReturn line)).inBlock = (reading.along line).inBlock := by
  unfold dropReturn
  split
  · next ends =>
      obtain ⟨front, rfl⟩ := List.getLast?_eq_some_iff.1 ends
      rw [List.dropLast_concat, along_append, along_cons, along_nil, inBlock_step_return]
  · rfl

/-- Behind some lines a block comment is open exactly when the reading is in one. -/
theorem start_openAfter {lines : List (List Char)} (opened : Bool)
    (inLines : ∀ line ∈ lines, '\n' ∉ line) :
    start (openAfter opened (lines.map dropReturn)) = (start opened).along (ended lines) := by
  induction lines generalizing opened with
  | nil => rfl
  | cons line lines ih =>
      rw [List.forall_mem_cons] at inLines
      have inLine : '\n' ∉ dropReturn line := by
        unfold dropReturn
        split
        · exact fun mem => inLines.1 (List.dropLast_subset line mem)
        · exact inLines.1
      have flag : openAfter opened ((line :: lines).map dropReturn) =
          openAfter (stripComments opened (dropReturn line)).2 (lines.map dropReturn) := rfl
      rw [flag, ih _ inLines.2, stripComments_snd opened inLine, inBlock_along_dropReturn,
        ← step_lineFeed, ended_cons, along_append, along_cons]

/-- What the reading takes for code in a text is kept on its line, behind what is kept in front of it. -/
theorem exists_line_of_takes {front stretch behind : List Char}
    (isCode : (code.along front).takes stretch.head? = true)
    (plain : ∀ before c after, stretch = before ++ c :: after →
      opensComment (c :: after ++ behind) = false)
    (inLine : '\n' ∉ stretch) (filled : stretch ≠ []) (solid : stretch.getLast? ≠ some '\r') :
    ∃ index lineFront lineBehind, index + 1 = (Place.origin.advance front).line ∧
      (linesOf (front ++ stretch ++ behind))[index]? = some (lineFront ++ stretch ++ lineBehind) ∧
        lineFront <:+ front ∧ lineBehind <+: behind ∧
          let opened := openAfter false ((linesOf (front ++ stretch ++ behind)).take index)
          (stripComments opened (lineFront ++ stretch ++ lineBehind)).1 =
            (stripComments opened lineFront).1 ++ stretch ++ (stripComments false lineBehind).1 := by
  obtain ⟨passed, lineFront, rfl, inLines, inFront⟩ := exists_ended front
  have inStart : '\n' ∉ lineFront ++ stretch := by simp [inFront, inLine]
  have startFilled : lineFront ++ stretch ≠ [] := by simp [filled]
  have startSolid : (lineFront ++ stretch).getLast? ≠ some '\r' := by
    rwa [List.getLast?_append_of_ne_nil _ filled]
  obtain ⟨lineBehind, others, first, within⟩ :=
    exists_linesOf_append inStart startFilled startSolid behind
  have lines : linesOf (ended passed ++ lineFront ++ stretch ++ behind) =
      passed.map dropReturn ++ (lineFront ++ stretch ++ lineBehind) :: others := by
    rw [← first, ← linesOf_ended_append inLines]
    simp only [List.append_assoc]
  have index : passed.length = (passed.map dropReturn).length := (List.length_map _).symm
  have opened : start (openAfter false (passed.map dropReturn)) = code.along (ended passed) :=
    start_openAfter false inLines
  refine ⟨passed.length, lineFront, lineBehind, ?_, ?_, List.suffix_append _ _, within, ?_⟩
  · rw [line_advance_ended .origin inLines inFront, Place.origin, Nat.add_comm]
  · rw [lines, index, List.getElem?_append_right (Nat.le_refl _), Nat.sub_self]
    rfl
  · have taken : ((start (openAfter false (passed.map dropReturn))).along lineFront).takes
        (stretch ++ lineBehind).head? = true := by
      obtain ⟨c, stretch, rfl⟩ := List.exists_cons_of_ne_nil filled
      rw [opened, ← along_append]
      exact isCode
    have kept : ∀ before c after, stretch = before ++ c :: after →
        opensComment (c :: after ++ lineBehind) = false := by
      intro before c after spelt
      obtain ⟨rest, rfl⟩ := within
      apply opensComment_of_append rest
      rw [List.append_assoc]
      exact plain before c after spelt
    rw [lines, index, List.take_left]
    dsimp only
    rw [List.append_assoc, stripComments_append _ inFront taken, stripComments_stretch kept,
      List.append_assoc]

/-! Findings -/

/-- The rules are held against what is kept of each line. -/
theorem mem_hazardsFrom {number index : Nat} {lines : List (List Char)} {finding : Finding}
    (here : lines[index]? = some line)
    (mem : finding ∈ hazardsOnLine (number + index)
      (stripComments (openAfter opened (lines.take index)) line).1) :
    finding ∈ hazardsFrom number opened lines := by
  induction lines generalizing number index opened with
  | nil => cases here
  | cons first lines ih =>
      rw [hazardsFrom]
      apply List.mem_append.2
      cases index with
      | zero =>
          obtain rfl := Option.some.inj here
          exact .inl mem
      | succ index =>
          right
          apply ih here
          rw [Nat.add_assoc, Nat.add_comm 1]
          exact mem

/-- A rule finds what it looks for in what is kept of a line, unless that starts with a hash. -/
theorem mem_hazardsOnLine {number : Nat} {kept : List Char} {rule : HazardRule} (known : rule ∈ hazardRules)
    (code : (kept.dropWhile isBlank).head? ≠ some '#') (found : rule.pattern.isIn (String.ofList kept) = true) :
    ⟨rule.id, rule.severity, rule.message, number⟩ ∈ hazardsOnLine number kept := by
  rw [hazardsOnLine, if_neg code]
  exact List.mem_filterMap.2 ⟨rule, known, if_pos found⟩

end Graft.Code
