import Graft.Verdict.Issue
import Graft.Text.Place
import Graft.Text.Blank
import Graft.Text.Search
import Graft.Text.Numeral

/-!
Masking a text: comments, directives and the contents of literals become spaces, one for each byte,
so that what is left is code at its place. Line feeds stay. Literals and comments that are not
closed are reported.
-/

namespace Graft.Code

open Graft.Text

def isWordByte (c : Char) : Bool := c.isAlphanum || c == '_' || 0x80 ≤ c.toNat

/-- A stretch of text with a space for each byte but the line feeds. -/
def blankOut (text : List Char) : List Char :=
  text.flatMap fun c => if c = '\n' then ['\n'] else List.replicate c.utf8Size ' '

theorem byteLength_replicate_space (n : Nat) : byteLength (List.replicate n ' ') = n := by
  induction n with
  | zero => rfl
  | succ n ih => simp [List.replicate_succ, ih]; rw [show ' '.utf8Size = 1 from rfl]; omega

/-- Masking keeps the length in bytes. -/
theorem byteLength_blankOut (text : List Char) : byteLength (blankOut text) = byteLength text := by
  induction text with
  | nil => rfl
  | cons c rest ih =>
      have step : blankOut (c :: rest) =
          (if c = '\n' then ['\n'] else List.replicate c.utf8Size ' ') ++ blankOut rest := rfl
      rw [step, byteLength_append, byteLength_cons, ih]
      by_cases h : c = '\n'
      · subst h; rfl
      · simp [h, byteLength_replicate_space]

def errorAt (place : Place) (message : String) : Issue :=
  ⟨.error, message, some place.line, some place.column⟩

/-- A directive up to its line end, which a backslash in front of it makes part of the directive. -/
def directivePart : List Char → List Char × List Char
  | [] => ([], [])
  | '\\' :: '\n' :: rest =>
      let (part, rest) := directivePart rest
      ('\\' :: '\n' :: part, rest)
  | '\\' :: '\r' :: '\n' :: rest =>
      let (part, rest) := directivePart rest
      ('\\' :: '\r' :: '\n' :: part, rest)
  | c :: rest =>
      if c = '\n' then ([], c :: rest)
      else
        let (part, rest) := directivePart rest
        (c :: part, rest)

def linePart : List Char → List Char × List Char
  | [] => ([], [])
  | c :: rest =>
      if c = '\n' then ([], c :: rest)
      else
        let (part, rest) := linePart rest
        (c :: part, rest)

/-- The content of a quoted literal, what follows it, and whether that is its closing quote. -/
def quotedPart (quote : Char) : List Char → List Char × List Char × Bool
  | [] => ([], [], false)
  | ['\\'] => (['\\'], [], false)
  | '\\' :: c :: rest =>
      let (part, rest, closed) := quotedPart quote rest
      ('\\' :: c :: part, rest, closed)
  | c :: rest =>
      if c = '\n' then ([], c :: rest, false)
      else if c = quote then ([], c :: rest, true)
      else
        let (part, rest, closed) := quotedPart quote rest
        (c :: part, rest, closed)

/-- The delimiter of a raw string and the text behind its opening parenthesis, if that stands among
the first so many bytes. -/
def rawDelimiter? : Nat → List Char → Option (List Char × List Char)
  | _, [] => none
  | room, c :: rest =>
      if room = 0 then none
      else if c = '(' then some ([], rest)
      else (rawDelimiter? (room - c.utf8Size) rest).map fun (delimiter, rest) =>
        (c :: delimiter, rest)

/-- How many bytes behind a quote the delimiter of a raw string may reach, its parenthesis
included. -/
def rawDelimiterRoom : Nat := 17

def rawWords : List (List Char) :=
  ["R".toList, "u8R".toList, "uR".toList, "UR".toList, "LR".toList]

/-- Whether the text before a quote, nearest character first, makes a raw string of it. -/
def opensRaw (before : List Char) : Bool :=
  before.head? == some 'R' && rawWords.contains (before.takeWhile isWordByte).reverse

/-- Whether a quote between the text before it, nearest character first, and the text after it
separates digits of a number. -/
def isDigitSeparator (before after : List Char) : Bool :=
  before.head?.any Char.isAlphanum && after.head?.any (fun c => (hexDigit? c).isSome) &&
    ((before.takeWhile fun c => isWordByte c || c == '\'').getLast?.any Char.isDigit)

/-- What masking leaves of a text, and what is wrong with its literals and comments. -/
structure Masked where
  text : List Char
  issues : List Issue
  deriving Repr, DecidableEq, Inhabited

def Masked.behind (rest : Masked) (text : List Char) (issues : List Issue) : Masked :=
  ⟨text ++ rest.text, issues ++ rest.issues⟩

/-- The next part of a text: as many characters as were taken, what masking leaves of them, the
rest, what is wrong, and whether a directive may still start on this line. -/
structure Part where
  taken : List Char
  masked : List Char
  rest : List Char
  issues : List Issue
  lineStart : Bool

/-- The part that a quote opens, which makes a raw string of it. -/
def rawPart (place : Place) (quote : Char) (rest : List Char) : Part :=
  match rawDelimiter? rawDelimiterRoom rest with
  | none =>
      ⟨[quote], [quote], rest, [errorAt place "invalid raw string delimiter"], false⟩
  | some (delimiter, body) =>
      let closing := ')' :: delimiter
      match find? (closing ++ ['"']) body with
      | some (content, after) =>
          let inner := delimiter ++ '(' :: content ++ closing
          ⟨quote :: inner ++ ['"'], quote :: blankOut inner ++ ['"'], after, [], false⟩
      | none =>
          ⟨quote :: rest, quote :: blankOut rest, [], [errorAt place "unterminated raw string"], false⟩

def firstPart (place : Place) (lineStart : Bool) (before : List Char) (c : Char)
    (rest : List Char) : Part :=
  if c = '\n' then ⟨[c], [c], rest, [], true⟩
  else if c = '#' ∧ lineStart then
    let (part, after) := directivePart (c :: rest)
    ⟨part, blankOut part, after, [], lineStart⟩
  else if c = '/' ∧ rest.head? = some '/' then
    let (part, after) := linePart (c :: rest)
    ⟨part, blankOut part, after, [], lineStart⟩
  else if c = '/' ∧ rest.head? = some '*' then
    match find? ['*', '/'] (rest.drop 1) with
    | some (content, after) =>
        let part := c :: '*' :: content ++ ['*', '/']
        ⟨part, blankOut part, after, [], lineStart⟩
    | none =>
        ⟨c :: rest, blankOut (c :: rest), [], [errorAt place "unterminated comment"], lineStart⟩
  else if c = '"' ∧ opensRaw before then rawPart place c rest
  else if (c = '"' ∨ c = '\'') ∧ ¬(c = '\'' ∧ isDigitSeparator before rest) then
    match quotedPart c rest with
    | (content, _ :: after, true) =>
        ⟨c :: content ++ [c], c :: blankOut content ++ [c], after, [], false⟩
    | (content, after, _) =>
        ⟨c :: content, c :: blankOut content, after,
          [errorAt place s!"missing terminating {c} character"], false⟩
  else ⟨[c], [c], rest, [], lineStart && isAsciiBlank c⟩

theorem directivePart_append (text : List Char) :
    (directivePart text).1 ++ (directivePart text).2 = text := by
  fun_induction directivePart text <;> simp_all

theorem linePart_append (text : List Char) : (linePart text).1 ++ (linePart text).2 = text := by
  fun_induction linePart text <;> simp_all

theorem quotedPart_append (quote : Char) (text : List Char) :
    (quotedPart quote text).1 ++ (quotedPart quote text).2.1 = text := by
  fun_induction quotedPart quote text <;> simp_all

/-- What `quotedPart` leaves starts with the quote, if it reports the literal as closed. -/
theorem quotedPart_closed {quote : Char} {text content after : List Char}
    (h : quotedPart quote text = (content, after, true)) : after.head? = some quote := by
  fun_induction quotedPart quote text generalizing content after <;> grind

theorem rawDelimiter?_append {room : Nat} {text delimiter rest : List Char}
    (h : rawDelimiter? room text = some (delimiter, rest)) : text = delimiter ++ '(' :: rest := by
  fun_induction rawDelimiter? room text generalizing delimiter with
  | case1 => simp at h
  | case2 => simp at h
  | case3 => simp_all
  | case4 room c tail _ _ ih =>
      obtain ⟨⟨first, second⟩, hrest, heq⟩ := Option.map_eq_some_iff.1 h
      simp only [Prod.mk.injEq] at heq
      obtain ⟨rfl, rfl⟩ := heq
      simp [ih hrest]

theorem directivePart_ne_nil {c : Char} {rest : List Char} (h : c ≠ '\n') :
    (directivePart (c :: rest)).1 ≠ [] := by
  unfold directivePart
  split <;> simp_all

theorem linePart_ne_nil {c : Char} {rest : List Char} (h : c ≠ '\n') :
    (linePart (c :: rest)).1 ≠ [] := by
  simp [linePart, h]

theorem rawPart_append (place : Place) (quote : Char) (rest : List Char) :
    (rawPart place quote rest).taken ++ (rawPart place quote rest).rest = quote :: rest := by
  unfold rawPart
  split
  · rfl
  · next delimiter body hdelimiter =>
      simp only
      split
      · next content after hfind =>
          have hbody := eq_append_of_find? hfind
          rw [rawDelimiter?_append hdelimiter, hbody]
          simp
      · simp

/-- The first part and the rest are the text. -/
theorem firstPart_append (place : Place) (lineStart : Bool) (before : List Char) (c : Char)
    (rest : List Char) :
    (firstPart place lineStart before c rest).taken ++ (firstPart place lineStart before c rest).rest
      = c :: rest := by
  unfold firstPart
  split
  · rfl
  split
  · exact directivePart_append (c :: rest)
  split
  · exact linePart_append (c :: rest)
  split
  · next _ _ h =>
      cases rest with
      | nil => simp at h
      | cons d tail =>
          simp only [List.head?_cons, Option.some.injEq] at h
          obtain ⟨_, rfl⟩ := h
          split
          · next content after hfind =>
              have htail := eq_append_of_find? hfind
              simp only [List.drop_succ_cons, List.drop_zero] at htail
              simp [htail]
          · simp
  split
  · exact rawPart_append place c rest
  split
  · have whole := quotedPart_append c rest
    split
    · next content head after heq =>
        have hhead := quotedPart_closed heq
        rw [heq] at whole
        simp only [List.head?_cons, Option.some.injEq] at hhead
        subst hhead
        simpa using whole
    · next content after flag _ heq =>
        rw [heq] at whole
        simpa using whole
  · rfl

theorem firstPart_ne_nil (place : Place) (lineStart : Bool) (before : List Char) (c : Char)
    (rest : List Char) : (firstPart place lineStart before c rest).taken ≠ [] := by
  unfold firstPart
  split
  · simp
  next hc =>
  split
  · exact directivePart_ne_nil hc
  split
  · exact linePart_ne_nil hc
  split
  · split <;> simp
  split
  · unfold rawPart
    split
    · simp
    · simp only
      split <;> simp
  split
  · split <;> simp
  · simp

theorem length_firstPart_lt (place : Place) (lineStart : Bool) (before : List Char) (c : Char)
    (rest : List Char) :
    (firstPart place lineStart before c rest).rest.length < (c :: rest).length := by
  have whole := congrArg List.length (firstPart_append place lineStart before c rest)
  have some := List.length_pos_iff.2 (firstPart_ne_nil place lineStart before c rest)
  rw [List.length_append] at whole
  omega

/-- Masks a text that starts at a place, behind other text that is given nearest character first. -/
def maskFrom (place : Place) (lineStart : Bool) (before : List Char) : List Char → Masked
  | [] => ⟨[], []⟩
  | c :: rest =>
      let part := firstPart place lineStart before c rest
      (maskFrom (place.advance part.taken) part.lineStart (part.taken.reverse ++ before)
        part.rest).behind part.masked part.issues
termination_by text => text.length
decreasing_by exact length_firstPart_lt place lineStart before c rest

def mask (text : List Char) : Masked := maskFrom .origin true [] text

end Graft.Code
