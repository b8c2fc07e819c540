import Graft.Proofs.Code.Positions
import Graft.Proofs.Code.Reading

/-!
Code that the scan for hazards retains. Masking cuts a text into parts, and where it finds nothing wrong
each is a character, a directive, a comment or a whole literal (`sound_firstPart`). A reading that knows no
literals stays abreast of it from part to part (`abreast_along`), so what masking leaves is code to the scan
too, and is kept for the rules (`retained_of_not_hasError`), as long as no literal and no directive in front
holds what begins a comment. One that does can hide all the code behind it (`not_always_retained`).
-/

namespace Graft.Code

open Graft.Text Reading

variable {place : Place} {lineStart : Bool} {before text front behind : List Char} {c : Char}
  {reading : Reading}

/-! Parts -/

def partsFrom (place : Place) (lineStart : Bool) (before : List Char) : List Char → List Part
  | [] => []
  | c :: rest =>
      let part := firstPart place lineStart before c rest
      part :: partsFrom (place.advance part.taken) part.lineStart (part.taken.reverse ++ before) part.rest
termination_by text => text.length
decreasing_by exact length_firstPart_lt place lineStart before c rest

def takenOf (parts : List Part) : List Char := parts.flatMap (·.taken)

def leftOf (parts : List Part) : List Char := parts.flatMap (·.masked)

theorem maskFrom_eq_partsFrom :
    maskFrom place lineStart before text =
      ⟨leftOf (partsFrom place lineStart before text),
        (partsFrom place lineStart before text).flatMap (·.issues)⟩ := by
  fun_induction partsFrom place lineStart before text with
  | case1 => rw [maskFrom]; rfl
  | case2 place lineStart before c rest part ih =>
      rw [maskFrom, ih]
      rfl

theorem takenOf_partsFrom : takenOf (partsFrom place lineStart before text) = text := by
  fun_induction partsFrom place lineStart before text with
  | case1 => rfl
  | case2 place lineStart before c rest part ih =>
      have whole : takenOf (part :: partsFrom (place.advance part.taken) part.lineStart
          (part.taken.reverse ++ before) part.rest) = part.taken ++ part.rest := congrArg _ ih
      rw [whole, firstPart_append]

/-- A part in which nothing is wrong: a character that opens no comment, a directive up to the end of its
line, a comment, or a literal with its quotes, between which masking leaves nothing. -/
inductive Sound : Part → Prop
  | one {c : Char} {rest : List Char} (lineStart : Bool) (plain : opensComment (c :: rest) = false) :
      Sound ⟨[c], [c], rest, [], lineStart⟩
  | directive (tail : List Char) {rest : List Char} (lineStart : Bool)
      (ends : ∀ d, rest.head? = some d → d = '\n') :
      Sound ⟨'#' :: tail, blankOut ('#' :: tail), rest, [], lineStart⟩
  | line {content rest : List Char} (lineStart : Bool) (inLine : '\n' ∉ content)
      (ends : ∀ d, rest.head? = some d → d = '\n') :
      Sound ⟨'/' :: '/' :: content, blankOut ('/' :: '/' :: content), rest, [], lineStart⟩
  | block {content rest behind : List Char} (lineStart : Bool)
      (found : find? ['*', '/'] behind = some (content, rest)) :
      Sound ⟨'/' :: '*' :: content ++ ['*', '/'], blankOut ('/' :: '*' :: content ++ ['*', '/']), rest, [],
        lineStart⟩
  | literal {quote : Char} (isQuote : quote = '"' ∨ quote = '\'') (content rest : List Char) :
      Sound ⟨quote :: content ++ [quote], quote :: blankOut content ++ [quote], rest, [], false⟩

theorem linePart_spec (text : List Char) :
    '\n' ∉ (linePart text).1 ∧ ∀ d, (linePart text).2.head? = some d → d = '\n' := by
  fun_induction linePart text with
  | case1 => simp
  | case2 rest => simp
  | case3 c rest inLine part after spelt ih =>
      rw [spelt] at ih
      exact ⟨List.not_mem_cons_of_ne_of_not_mem (Ne.symm inLine) ih.1, ih.2⟩

theorem directivePart_ends (text : List Char) :
    ∀ d, (directivePart text).2.head? = some d → d = '\n' := by
  fun_induction directivePart text with
  | case1 => simp
  | case2 rest part after spelt ih =>
      rw [spelt] at ih
      exact ih
  | case3 rest part after spelt ih =>
      rw [spelt] at ih
      exact ih
  | case4 rest => simp
  | case5 c rest _ _ inLine part after spelt ih =>
      rw [spelt] at ih
      exact ih

/-- What a raw string takes is a literal. -/
theorem sound_rawPart {rest : List Char} (clean : (rawPart place '"' rest).issues = []) :
    Sound (rawPart place '"' rest) := by
  revert clean
  unfold rawPart
  split
  · nofun
  · next delimiter body _ =>
      dsimp only
      split
      · next content after _ =>
          intro _
          exact .literal (.inl rfl) (delimiter ++ '(' :: content ++ ')' :: delimiter) after
      · nofun

/-- Where masking finds nothing wrong it takes a sound part. -/
theorem sound_firstPart {rest : List Char} (clean : (firstPart place lineStart before c rest).issues = []) :
    Sound (firstPart place lineStart before c rest) := by
  revert clean
  unfold firstPart
  split
  · next ends =>
      intro _
      subst ends
      exact .one true rfl
  split
  · next starts =>
      intro _
      obtain ⟨rfl, -⟩ := starts
      have first : directivePart ('#' :: rest) =
          ('#' :: (directivePart rest).1, (directivePart rest).2) := by
        simp [directivePart]
      rw [first]
      exact .directive _ lineStart (directivePart_ends rest)
  split
  · next starts =>
      intro _
      obtain ⟨rfl, opens⟩ := starts
      obtain ⟨rest, rfl⟩ := List.head?_eq_some_iff.1 opens
      obtain ⟨inLine, ends⟩ := linePart_spec rest
      exact .line lineStart inLine ends
  split
  · next starts =>
      obtain ⟨rfl, -⟩ := starts
      split
      · next content after found =>
          intro _
          exact .block lineStart found
      · nofun
  split
  · next starts =>
      obtain ⟨rfl, -⟩ := starts
      exact sound_rawPart
  split
  · next starts =>
      split
      · next content d after spelt =>
          intro _
          exact .literal starts.1 content after
      · nofun
  · next noLine noBlock _ _ =>
      intro _
      apply Sound.one
      rw [Bool.eq_false_iff, ne_eq, opensComment_cons_iff]
      rintro ⟨slash, opens | opens⟩
      · exact noLine ⟨slash, opens⟩
      · exact noBlock ⟨slash, opens⟩

/-! The reading -/

/-- Whether the reading is where masking is between two parts: it takes for code what comes next, or it is
at the end of a line comment. -/
def Abreast (reading : Reading) (next : Option Char) : Prop :=
  reading.takes next = true ∨ reading = .line ∧ ∀ c, next = some c → c = '\n'

/-- Whether a part that is no comment holds what begins one. -/
def Part.misleads (part : Part) : Bool :=
  part.taken.head? != some '/' && holdsOpening part.taken

theorem takes_of_abreast (abreast : Abreast reading (some c)) (inLine : c ≠ '\n') :
    reading.takes (some c) = true := by
  obtain isCode | ⟨-, ends⟩ := abreast
  · exact isCode
  · exact absurd (ends c rfl) inLine

theorem eq_code_of_takes (isCode : reading.takes (some '/') = true) : reading = code := by
  obtain rfl | ⟨-, noLine, -⟩ := takes_iff.1 isCode
  · rfl
  · exact absurd rfl noLine

theorem takes_lineFeed (isCode : reading.takes none = true) : reading.takes (some '\n') = true := by
  obtain rfl | ⟨rfl, -⟩ := takes_iff.1 isCode
  · rfl
  · rfl

/-- The reading leaves a block comment where masking does, behind the first star and slash. -/
theorem block_along_of_find? {content rest : List Char} (found : find? ['*', '/'] text = some (content, rest)) :
    block.along (content ++ ['*', '/']) = code := by
  induction text generalizing content with
  | nil => cases found
  | cons c text ih =>
      rw [find?] at found
      split at found
      · obtain ⟨rfl, -⟩ := Prod.mk.inj (Option.some.inj found)
        rfl
      · next missing =>
          obtain ⟨⟨content, after⟩, later, same⟩ := Option.map_eq_some_iff.1 found
          obtain ⟨rfl, rfl⟩ := Prod.mk.inj same
          have whole := eq_append_of_find? later
          have opens : ∀ tail, c = '*' → content ++ ['*', '/'] = '/' :: tail → False := by
            rintro tail rfl spelt
            rw [whole, spelt] at missing
            simp [dropHead?] at missing
          obtain ⟨-, none⟩ | same := block_along_cons opens
          · simp at none
          · exact same.trans (ih later)

theorem not_holdsOpening {part : Part} (straight : part.misleads = false)
    (noComment : part.taken.head? ≠ some '/') : holdsOpening part.taken = false := by
  rw [Part.misleads, Bool.and_eq_false_iff, bne_eq_false_iff_eq] at straight
  exact straight.resolve_left noComment

/-- Up to its closing quote a literal that holds no comment is code. -/
theorem takes_quote {quote : Char} {content : List Char}
    (plain : holdsOpening (quote :: content ++ [quote]) = false)
    (isCode : reading.takes (some quote) = true) :
    (reading.along (quote :: content)).takes (some quote) = true :=
  takes_along (quote :: content) [quote] isCode plain

theorem step_quote {quote : Char} (isQuote : quote = '"' ∨ quote = '\'')
    (isCode : reading.takes (some quote) = true) : reading.step quote = code := by
  obtain rfl | ⟨rfl, -⟩ := takes_iff.1 isCode
  · obtain rfl | rfl := isQuote <;> rfl
  · obtain rfl | rfl := isQuote <;> rfl

/-- Behind a sound part that does not mislead it the reading is still abreast. -/
theorem abreast_along {part : Part} (sound : Sound part) (straight : part.misleads = false)
    (abreast : Abreast reading part.taken.head?) : Abreast (reading.along part.taken) part.rest.head? := by
  cases sound with
  | @one c rest lineStart plain =>
      obtain isCode | ⟨rfl, ends⟩ := abreast
      · exact .inl (takes_step isCode plain)
      · obtain rfl := ends c rfl
        exact .inl rfl
  | @directive tail rest lineStart ends =>
      have isCode := takes_of_abreast abreast (by decide)
      have plain : holdsOpening (('#' :: tail) ++ []) = false := by
        rw [List.append_nil]
        exact not_holdsOpening straight (by simp)
      have behind : (reading.along ('#' :: tail)).takes none = true := takes_along _ [] isCode plain
      left
      cases next : rest.head? with
      | none => exact behind
      | some d =>
          obtain rfl := ends d next
          exact takes_lineFeed behind
  | line lineStart inLine ends =>
      have isCode := takes_of_abreast abreast (by decide)
      obtain rfl : reading = code := eq_code_of_takes isCode
      exact .inr ⟨line_along inLine, ends⟩
  | block lineStart found =>
      have isCode := takes_of_abreast abreast (by decide)
      obtain rfl : reading = code := eq_code_of_takes isCode
      left
      have closed := block_along_of_find? found
      exact congrArg (Reading.takes · _) closed
  | literal isQuote content rest =>
      left
      have isCode := takes_of_abreast abreast (by obtain rfl | rfl := isQuote <;> decide)
      have plain := not_holdsOpening straight (by obtain rfl | rfl := isQuote <;> simp)
      have closing := takes_quote plain isCode
      rw [along_append, along_cons, along_nil, step_quote isQuote closing]
      rfl

/-- Where a character that masking leaves stands in its part: it is the first one, or the closing quote of
a literal. -/
inductive Shows (part : Part) : List Char → Char → Prop
  | first {c : Char} {tail : List Char} (taken : part.taken = c :: tail) : Shows part [] c
  | closing {quote : Char} (isQuote : quote = '"' ∨ quote = '\'') {content : List Char}
      (taken : part.taken = quote :: content ++ [quote]) : Shows part (quote :: content) quote

theorem blank_of_mem_blankOut (mem : c ∈ blankOut text) : c = ' ' ∨ c = '\n' := by
  obtain ⟨d, -, inside⟩ := List.mem_flatMap.1 mem
  split at inside
  · exact .inr (List.mem_singleton.1 inside)
  · exact .inl (List.eq_of_mem_replicate inside)

/-- What masking leaves of a sound part, but for white space, is its first character or a closing quote, and
opens no comment. -/
theorem shows_of_sound {part : Part} {within within' tail tail' : List Char} (sound : Sound part)
    (taken : part.taken = within ++ c :: tail) (left : part.masked = within' ++ c :: tail')
    (same : byteLength within' = byteLength within) (visible : c ≠ ' ') (inLine : c ≠ '\n') :
    Shows part within c ∧ opensComment (c :: tail ++ part.rest) = false := by
  have notBlanked {text front rest : List Char} (left : blankOut text = front ++ c :: rest) : False := by
    have mem : c ∈ blankOut text := by
      rw [left]
      simp
    obtain rfl | rfl := blank_of_mem_blankOut mem
    · exact visible rfl
    · exact inLine rfl
  cases sound with
  | @one d rest lineStart plain =>
      cases within with
      | nil =>
          obtain ⟨rfl, rfl⟩ := List.cons.inj taken
          exact ⟨.first rfl, plain⟩
      | cons e within => simp at taken
  | directive content lineStart ends => exact (notBlanked left).elim
  | line lineStart inLine' ends => exact (notBlanked left).elim
  | block lineStart found => exact (notBlanked left).elim
  | @literal quote isQuote content rest =>
      have noComment (text : List Char) : opensComment (quote :: text) = false := by
        obtain rfl | rfl := isQuote <;> cases text <;> rfl
      cases within' with
      | nil =>
          obtain rfl := byteLength_eq_zero_iff.1 same.symm
          obtain ⟨rfl, rfl⟩ := List.cons.inj taken
          exact ⟨.first rfl, noComment _⟩
      | cons e within' =>
          obtain ⟨rfl, later⟩ := List.cons.inj left
          -- the character is the closing quote, since all between the quotes is blank
          have closing : within' = blankOut content ∧ c = quote := by
            obtain ⟨between, inside, last⟩ | ⟨between, blanked, last⟩ := List.append_eq_append_iff.1 later
            · cases between with
              | nil =>
                  rw [List.append_nil] at inside
                  exact ⟨inside, (List.cons.inj last).1.symm⟩
              | cons d between => simp at last
            · cases between with
              | nil =>
                  rw [List.append_nil] at blanked
                  exact ⟨blanked.symm, (List.cons.inj last).1⟩
              | cons d between =>
                  obtain ⟨rfl, -⟩ := List.cons.inj last
                  exact (notBlanked blanked).elim
          obtain ⟨rfl, rfl⟩ := closing
          rw [byteLength_cons, byteLength_blankOut, ← byteLength_cons] at same
          obtain ⟨rfl, rest⟩ := eq_of_byteLength_eq taken same
          obtain ⟨-, rfl⟩ := List.cons.inj rest
          exact ⟨.closing isQuote rfl, noComment _⟩

/-! Whole texts -/

theorem byteLength_masked {part : Part} (sound : Sound part) :
    byteLength part.masked = byteLength part.taken := by
  cases sound with
  | one => rfl
  | directive => exact byteLength_blankOut _
  | line => exact byteLength_blankOut _
  | block => exact byteLength_blankOut _
  | literal => simp [byteLength_blankOut]

theorem taken_ne_nil {part : Part} (sound : Sound part) : part.taken ≠ [] := by
  cases sound <;> simp

theorem head?_takenOf {part : Part} (sound : Sound part) (later : List Part) :
    (takenOf (part :: later)).head? = part.taken.head? :=
  List.head?_append_of_ne_nil _ (taken_ne_nil sound)

def Consecutive : List Part → Prop
  | [] => True
  | part :: later => Sound part ∧ part.rest = takenOf later ∧ Consecutive later

/-- Where nothing is wrong with the literals and comments of a text, sound parts follow one another. -/
theorem consecutive_partsFrom (clean : (maskFrom place lineStart before text).issues = []) :
    Consecutive (partsFrom place lineStart before text) := by
  rw [maskFrom_eq_partsFrom] at clean
  fun_induction partsFrom place lineStart before text with
  | case1 => trivial
  | case2 place lineStart before c rest part ih =>
      obtain ⟨here, later⟩ := List.append_eq_nil_iff.1 clean
      exact ⟨sound_firstPart here, takenOf_partsFrom.symm, ih later⟩

theorem Consecutive.of_append {earlier later : List Part} (consecutive : Consecutive (earlier ++ later)) :
    Consecutive later := by
  induction earlier with
  | nil => exact consecutive
  | cons _ _ ih => exact ih consecutive.2.2

theorem Consecutive.sound_of_mem {parts : List Part} {part : Part} (consecutive : Consecutive parts)
    (mem : part ∈ parts) : Sound part := by
  obtain ⟨earlier, later, rfl⟩ := List.append_of_mem mem
  exact consecutive.of_append.1

/-- A character that masking leaves shows in a part, and opens no comment. -/
theorem exists_part_of_leftOf {parts : List Part} {front' behind' : List Char}
    (consecutive : Consecutive parts) (taken : takenOf parts = front ++ c :: behind)
    (left : leftOf parts = front' ++ c :: behind') (same : byteLength front' = byteLength front)
    (visible : c ≠ ' ') (inLine : c ≠ '\n') :
    opensComment (c :: behind) = false ∧ ∃ earlier part later within,
      parts = earlier ++ part :: later ∧ front = takenOf earlier ++ within ∧ Shows part within c := by
  induction parts generalizing front front' with
  | nil => simp [takenOf] at taken
  | cons part parts ih =>
      obtain ⟨sound, rest, consecutive⟩ := consecutive
      have taken : part.taken ++ takenOf parts = front ++ c :: behind := taken
      have left : part.masked ++ leftOf parts = front' ++ c :: behind' := left
      have bytes := byteLength_masked sound
      -- the character stands behind the part or within it, in the text as in what is left of it
      by_cases passed : byteLength part.taken ≤ byteLength front
      · obtain ⟨between, rfl, later⟩ := eq_append_of_byteLength_le taken passed
        obtain ⟨between', rfl, later'⟩ := eq_append_of_byteLength_le left (by omega)
        rw [byteLength_append, byteLength_append, bytes, Nat.add_left_cancel_iff] at same
        obtain ⟨plain, earlier, here, others, within, rfl, rfl, shows⟩ := ih consecutive later later' same
        refine ⟨plain, part :: earlier, here, others, within, rfl, ?_, shows⟩
        exact (List.append_assoc part.taken (takenOf earlier) within).symm
      · obtain ⟨between, whole, others⟩ := eq_append_of_byteLength_le taken.symm (by omega)
        obtain ⟨between', whole', others'⟩ := eq_append_of_byteLength_le left.symm (by omega)
        have filled : between ≠ [] := by
          rintro rfl
          rw [whole, List.append_nil] at passed
          exact passed (Nat.le_refl _)
        have filled' : between' ≠ [] := by
          rintro rfl
          rw [← bytes, whole', List.append_nil, same] at passed
          exact passed (Nat.le_refl _)
        obtain ⟨d, tail, rfl⟩ := List.exists_cons_of_ne_nil filled
        obtain ⟨d', tail', rfl⟩ := List.exists_cons_of_ne_nil filled'
        obtain ⟨rfl, rfl⟩ := List.cons.inj others
        obtain ⟨rfl, -⟩ := List.cons.inj others'
        obtain ⟨shows, plain⟩ := shows_of_sound sound whole whole' same visible inLine
        rw [rest] at plain
        exact ⟨plain, [], part, parts, front, rfl, rfl, shows⟩

/-- Behind sound parts that do not mislead it the reading is still abreast. -/
theorem abreast_along_takenOf (reading : Reading) {earlier later : List Part}
    (consecutive : Consecutive (earlier ++ later)) (straight : ∀ part ∈ earlier, part.misleads = false)
    (abreast : Abreast reading (takenOf (earlier ++ later)).head?) :
    Abreast (reading.along (takenOf earlier)) (takenOf later).head? := by
  induction earlier generalizing reading with
  | nil => exact abreast
  | cons part earlier ih =>
      obtain ⟨sound, rest, consecutive⟩ := consecutive
      rw [List.forall_mem_cons] at straight
      rw [List.cons_append, head?_takenOf sound] at abreast
      have behind := abreast_along sound straight.1 abreast
      rw [rest] at behind
      have onward := ih _ consecutive straight.2 behind
      rwa [← along_append] at onward

/-- Whether a literal or a directive that begins within a front of a text holds what begins a comment. -/
def Misled (text front : List Char) : Prop :=
  ∃ earlier part later within, partsFrom .origin true [] text = earlier ++ part :: later ∧
    part.misleads = true ∧ front = takenOf earlier ++ within ∧ within ≠ []

/-- A part that misleads and ends in a front of the text misleads within the front. -/
theorem misled_of_mem {earlier later : List Part} {part : Part} (sound : Sound part)
    (spelt : partsFrom .origin true [] text = earlier ++ later) (mem : part ∈ earlier)
    (misleads : part.misleads = true) (within : List Char) : Misled text (takenOf earlier ++ within) := by
  obtain ⟨first, between, rfl⟩ := List.append_of_mem mem
  rw [List.append_assoc] at spelt
  refine ⟨first, part, between ++ later, part.taken ++ takenOf between ++ within, spelt, misleads, ?_, ?_⟩
  · simp [takenOf]
  · simp [taken_ne_nil sound]

/-- What shows in a part is code to a reading that is abreast in front of it, or the part misleads it. -/
theorem Shows.takes_or_misleads {part : Part} {within : List Char} (shows : Shows part within c)
    (abreast : Abreast reading part.taken.head?) (inLine : c ≠ '\n') :
    (reading.along within).takes (some c) = true ∨ within ≠ [] ∧ part.misleads = true := by
  cases shows with
  | first spelt =>
      rw [spelt] at abreast
      exact .inl (takes_of_abreast abreast inLine)
  | closing isQuote spelt =>
      cases misleads : part.misleads with
      | true => exact .inr ⟨List.cons_ne_nil _ _, rfl⟩
      | false =>
          have noComment : part.taken.head? ≠ some '/' := by
            rw [spelt]
            obtain rfl | rfl := isQuote <;> simp
          have plain := not_holdsOpening misleads noComment
          rw [spelt] at abreast plain
          exact .inl (takes_quote plain (takes_of_abreast abreast inLine))

/-- A character that masking leaves opens no comment, and the reading takes it for code unless it is
misled. -/
theorem takes_or_misled {front' behind' : List Char} (clean : (mask text).issues = [])
    (taken : text = front ++ c :: behind) (left : (mask text).text = front' ++ c :: behind')
    (same : byteLength front' = byteLength front) (visible : c ≠ ' ') (inLine : c ≠ '\n') :
    opensComment (c :: behind) = false ∧
      ((code.along front).takes (some c) = true ∨ Misled text front) := by
  have consecutive : Consecutive (partsFrom .origin true [] text) := consecutive_partsFrom clean
  have taken' : takenOf (partsFrom .origin true [] text) = front ++ c :: behind := by
    rw [takenOf_partsFrom, taken]
  have left' : leftOf (partsFrom .origin true [] text) = front' ++ c :: behind' := by
    rw [← left, mask, maskFrom_eq_partsFrom]
  obtain ⟨plain, earlier, part, later, within, spelt, rfl, shows⟩ :=
    exists_part_of_leftOf consecutive taken' left' same visible inLine
  refine ⟨plain, ?_⟩
  rw [spelt] at consecutive
  by_cases straight : ∀ part ∈ earlier, part.misleads = false
  · have abreast := abreast_along_takenOf code consecutive straight (.inl rfl)
    rw [head?_takenOf consecutive.of_append.1] at abreast
    rw [along_append]
    obtain isCode | ⟨began, misleads⟩ := shows.takes_or_misleads abreast inLine
    · exact .inl isCode
    · exact .inr ⟨earlier, part, later, within, spelt, misleads, rfl, began⟩
  · right
    simp only [not_forall, Bool.not_eq_false] at straight
    obtain ⟨misleading, mem, misleads⟩ := straight
    exact misled_of_mem (consecutive.sound_of_mem (List.mem_append_left _ mem)) spelt mem misleads within

theorem level_of_maskFrom {issue : Issue} (mem : issue ∈ (maskFrom place lineStart before text).issues) :
    issue.level = .error := by
  fun_induction maskFrom place lineStart before text with
  | case1 => cases mem
  | case2 place lineStart before c rest part ih =>
      obtain here | later := List.mem_append.1 mem
      · obtain ⟨message, -, rfl, -⟩ := issues_of_firstPart here
        rfl
      · exact ih later

/-- Nothing is wrong with the literals and comments of a text about which no error is reported. -/
theorem issues_of_not_hasError {text : String} (valid : hasError (formIssues text) = false) :
    (mask text.toList).issues = [] := by
  rw [List.eq_nil_iff_forall_not_mem]
  intro issue mem
  have reported : issue ∈ formIssues text := by
    simp only [formIssues, List.mem_mergeSort, List.mem_append]
    exact .inl (.inl (.inl mem))
  have level := level_of_maskFrom mem
  have noError := List.any_eq_false.1 valid issue reported
  rw [level] at noError
  exact noError rfl

/-- In a text about which no error is reported, code that masking leaves is code to the scan for hazards
too, unless a literal or a directive that begins in front of it holds what begins a comment. What is code to
the scan is kept on its line behind what is kept in front of it, and each rule that finds what it looks for
there is reported with the number of the line, unless what is kept starts with a hash. -/
theorem retained_of_not_hasError (text : String) (valid : hasError (formIssues text) = false)
    {front stretch behind front' behind' : List Char} (whole : text.toList = front ++ stretch ++ behind)
    (left : (mask text.toList).text = front' ++ stretch ++ behind')
    (same : byteLength front' = byteLength front) (visible : stretch.head?.any (!isAsciiBlank ·) = true)
    (inLine : ∀ c ∈ stretch, c ≠ '\n' ∧ c ≠ '\r') :
    ((code.along front).takes stretch.head? = true ∨ Misled text.toList front) ∧
      ((code.along front).takes stretch.head? = true → ∃ index lineFront lineBehind,
        index + 1 = (Place.origin.advance front).line ∧ lineFront <:+ front ∧ lineBehind <+: behind ∧
          (linesOf text.toList)[index]? = some (lineFront ++ stretch ++ lineBehind) ∧
            let opened := openAfter false ((linesOf text.toList).take index)
            let kept := (stripComments opened (lineFront ++ stretch ++ lineBehind)).1
            kept = (stripComments opened lineFront).1 ++ stretch ++ (stripComments false lineBehind).1 ∧
              ∀ rule ∈ hazardRules, rule.pattern.isIn (String.ofList kept) = true →
                (kept.dropWhile isBlank).head? ≠ some '#' →
                  ⟨rule.id, rule.severity, rule.message, index + 1⟩ ∈ hazards text) := by
  have clean := issues_of_not_hasError valid
  have filled : stretch ≠ [] := by
    rintro rfl
    cases visible
  -- no slash of the stretch opens a comment
  have plain : ∀ before c after, stretch = before ++ c :: after →
      opensComment (c :: after ++ behind) = false := by
    rintro before c after rfl
    by_cases slash : c = '/'
    · have whole' : text.toList = (front ++ before) ++ c :: (after ++ behind) := by simp [whole]
      have left' : (mask text.toList).text = (front' ++ before) ++ c :: (after ++ behind') := by
        simp [left]
      have same' : byteLength (front' ++ before) = byteLength (front ++ before) := by simp [same]
      exact (takes_or_misled clean whole' left' same' (by rw [slash]; decide)
        (by rw [slash]; decide)).1
    · rw [Bool.eq_false_iff, List.cons_append, ne_eq, opensComment_cons_iff]
      exact fun opens => slash opens.1
  constructor
  · obtain ⟨c, stretch, rfl⟩ := List.exists_cons_of_ne_nil filled
    have solid : isAsciiBlank c = false := by simpa using visible
    have whole' : text.toList = front ++ c :: (stretch ++ behind) := by simp [whole]
    have left' : (mask text.toList).text = front' ++ c :: (stretch ++ behind') := by simp [left]
    exact (takes_or_misled clean whole' left' same (by rintro rfl; cases solid)
      (inLine c List.mem_cons_self).1).2
  · intro isCode
    have ends : stretch.getLast? ≠ some '\r' := fun last =>
      (inLine '\r' (List.mem_of_getLast? last)).2 rfl
    obtain ⟨index, lineFront, lineBehind, number, here, before, after, kept⟩ :=
      exists_line_of_takes isCode plain (fun mem => (inLine '\n' mem).1 rfl) filled ends
    rw [← whole] at here kept
    refine ⟨index, lineFront, lineBehind, number, before, after, here, kept, ?_⟩
    intro rule known found code
    apply mem_hazardsFrom here
    rw [Nat.add_comm 1]
    exact mem_hazardsOnLine known code found

def slashed : String := "void f(char *b)\n\x7b\n    /* \" */ puts(\"a / b\"); gets(b);\n\x7d\n"

/-- Neither of them hides the call behind. -/
theorem hazards_of_slashed :
    hasError (formIssues slashed) = false ∧
      ⟨"unsafe-gets", .critical, "gets cannot be used safely; use fgets", 3⟩ ∈ hazards slashed := by
  have valid : hasError (formIssues slashed) = false := by decide +kernel
  refine ⟨valid, ?_⟩
  let front := "void f(char *b)\n\x7b\n    /* \" */ puts(\"a / b\"); ".toList
  let front' := "void f(char *b)\n\x7b\n            puts(\"     \"); ".toList
  let stretch := "gets(b)".toList
  let behind := ";\n\x7d\n".toList
  let line := "    /* \" */ puts(\"a / b\"); gets(b);".toList
  have whole : slashed.toList = front ++ stretch ++ behind := by decide +kernel
  have left : (mask slashed.toList).text = front' ++ stretch ++ behind := by decide +kernel
  have third : (linesOf slashed.toList)[2]? = some line := by decide +kernel
  have inLine : ∀ c ∈ stretch, c ≠ '\n' ∧ c ≠ '\r' := by simp [stretch]
  have retained := retained_of_not_hasError slashed valid whole left (by decide +kernel)
    (by decide +kernel) inLine
  obtain ⟨index, lineFront, lineBehind, number, -, -, here, -, reported⟩ := retained.2 (by decide +kernel)
  have place : (Place.origin.advance front).line = 3 := by decide +kernel
  obtain rfl : index = 2 := by omega
  rw [third] at here
  rw [← Option.some.inj here] at reported
  let rule : HazardRule :=
    ⟨"unsafe-gets", callOf ["gets"], .critical, "gets cannot be used safely; use fgets"⟩
  have known : rule ∈ hazardRules := by
    simp [hazardRules, rule]
  exact reported rule known (by decide +kernel) (by decide +kernel)

def commentedLiteral : String := "void f(char *b)\n\x7b\n    puts(\"/*\");\n    gets(b);\n\x7d\n"

/-- Not all code that masking leaves is kept for the rules: behind a literal that holds what begins a comment
all is lost. -/
theorem not_always_retained :
    ¬∀ text : String, hasError (formIssues text) = false →
      ∀ (index : Nat) (masked line : List Char),
      (splitAtChar '\n' (mask text.toList).text)[index]? = some masked →
        (linesOf text.toList)[index]? = some line →
          (masked.filter (!isAsciiBlank ·)).Sublist
            (stripComments (openAfter false ((linesOf text.toList).take index)) line).1 := by
  intro always
  have masked : (splitAtChar '\n' (mask commentedLiteral.toList).text)[3]? =
      some "    gets(b);".toList := by decide +kernel
  have line : (linesOf commentedLiteral.toList)[3]? = some "    gets(b);".toList := by decide +kernel
  have lost : (stripComments (openAfter false ((linesOf commentedLiteral.toList).take 3))
      "    gets(b);".toList).1 = [] := by decide +kernel
  have kept := always commentedLiteral (by decide +kernel) 3 _ _ masked line
  rw [lost] at kept
  exact absurd (List.sublist_nil.1 kept) (by decide +kernel)

end Graft.Code
