import Graft.Proofs.Code.Nesting
import Graft.Proofs.Code.Positions
import Mathlib.Data.List.Nodup
import Mathlib.Data.List.Perm.Subperm

/-!
What is reported about the pairing of delimiters. The stack of the open ones is carried on behind every
fault, so a text is free of reports exactly when its delimiters are a well-nested word
(`delimiterIssuesFrom_eq_nil_iff`), and the places of the reports are places of delimiters, none of them
twice (`subperm_of_delimiterIssuesFrom`). The pairing goes through characters, but a byte of a longer
character is as little a delimiter as the character, so what holds of texts holds of all strings of bytes
(`pairing_of_bytes`).
-/

namespace Graft.Code

open Graft.Text

variable {place : Place} {opened : List Opened} {text front : List Char} {issue : Issue} {c : Char}

def delimitersIn (text : List Char) : List Char := text.filter (· ∈ delimiters)

theorem delimitersIn_cons_of_mem (rest : List Char) (mem : c ∈ delimiters) :
    delimitersIn (c :: rest) = c :: delimitersIn rest := by
  simp [delimitersIn, mem]

theorem delimitersIn_cons_of_not_mem (rest : List Char) (plain : c ∉ delimiters) :
    delimitersIn (c :: rest) = delimitersIn rest := by
  simp [delimitersIn, plain]

theorem delimitersIn_append (front rest : List Char) :
    delimitersIn (front ++ rest) = delimitersIn front ++ delimitersIn rest :=
  List.filter_append front rest

theorem not_mem_delimiters (opens : Delimiter.ofOpening? c = none)
    (closes : Delimiter.ofClosing? c = none) : c ∉ delimiters := by
  intro mem
  simp only [delimiters, List.mem_cons, List.not_mem_nil, or_false] at mem
  obtain rfl | rfl | rfl | rfl | rfl | rfl := mem
  all_goals simp [Delimiter.ofOpening?, Delimiter.ofClosing?] at opens closes

theorem of_not_mem_delimiters (plain : c ∉ delimiters) :
    Delimiter.ofOpening? c = none ∧ Delimiter.ofClosing? c = none := by
  simp only [delimiters, List.mem_cons, List.not_mem_nil, or_false, not_or] at plain
  simp [Delimiter.ofOpening?, Delimiter.ofClosing?, plain]

/-! Acceptance -/

/-- Nothing is reported exactly when the delimiters close those that are open and all that they open. -/
theorem delimiterIssuesFrom_eq_nil_iff :
    delimiterIssuesFrom place opened text = [] ↔
      closes (opened.map Prod.fst) (delimitersIn text) = true := by
  fun_induction delimiterIssuesFrom place opened text with
  | case1 place opened => simp [delimitersIn, closes]
  | case2 place opened c rest next kind opens ih =>
      obtain rfl := Delimiter.eq_of_ofOpening? opens
      rw [delimitersIn_cons_of_mem rest (opening_mem_delimiters kind), closes_opening]
      exact ih
  | case3 place opened c rest next closes opens ih =>
      rw [delimitersIn_cons_of_not_mem rest (not_mem_delimiters opens closes)]
      exact ih
  | case4 place c rest next kind closing _ _ =>
      obtain rfl := Delimiter.eq_of_ofClosing? closing
      rw [delimitersIn_cons_of_mem rest (closing_mem_delimiters kind)]
      simp [closes]
  | case5 place c rest next _ top outer closing ih =>
      obtain rfl := Delimiter.eq_of_ofClosing? closing
      rw [delimitersIn_cons_of_mem rest (closing_mem_delimiters top.1), List.map_cons, closes_closing]
      exact ih
  | case6 place c rest next kind closing _ top outer differ _ =>
      obtain rfl := Delimiter.eq_of_ofClosing? closing
      rw [delimitersIn_cons_of_mem rest (closing_mem_delimiters kind)]
      simp [closes, differ]

theorem delimiterIssues_eq_nil_iff : delimiterIssues text = [] ↔ WellNested (delimitersIn text) := by
  rw [wellNested_iff_closes]
  exact delimiterIssuesFrom_eq_nil_iff

/-! Places -/

def spotOf (issue : Issue) : Option Nat × Option Nat := (issue.line, issue.column)

def spotsFrom (place : Place) : List Char → List (Option Nat × Option Nat)
  | [] => []
  | c :: rest =>
      if c ∈ delimiters then (some place.line, some place.column) :: spotsFrom (place.step c) rest
      else spotsFrom (place.step c) rest

/-- No delimiter stands in front of the place where the text starts. -/
theorem le_of_mem_spotsFrom {spot : Option Nat × Option Nat} (mem : spot ∈ spotsFrom place text) :
    ∃ line column, spot = (some line, some column) ∧
      (place.line < line ∨ place.line = line ∧ place.column ≤ column) := by
  induction text generalizing place with
  | nil => cases mem
  | cons c rest ih =>
      have later (mem : spot ∈ spotsFrom (place.step c) rest) :
          ∃ line column, spot = (some line, some column) ∧
            (place.line < line ∨ place.line = line ∧ place.column ≤ column) := by
        obtain ⟨line, column, rfl, order⟩ := ih mem
        refine ⟨line, column, rfl, ?_⟩
        by_cases ends : c = '\n'
        · simp only [Place.step, if_pos ends] at order
          omega
        · simp only [Place.step, if_neg ends] at order
          omega
      rw [spotsFrom] at mem
      split at mem
      · obtain rfl | mem := List.mem_cons.1 mem
        · exact ⟨place.line, place.column, rfl, .inr ⟨rfl, Nat.le_refl _⟩⟩
        · exact later mem
      · exact later mem

/-- No two delimiters have the same line and column. -/
theorem nodup_spotsFrom (place : Place) (text : List Char) : (spotsFrom place text).Nodup := by
  induction text generalizing place with
  | nil => exact List.nodup_nil
  | cons c rest ih =>
      rw [spotsFrom]
      split
      · next mem =>
          refine List.nodup_cons.2 ⟨fun again => ?_, ih (place.step c)⟩
          obtain ⟨line, column, same, order⟩ := le_of_mem_spotsFrom again
          simp only [Prod.mk.injEq, Option.some.injEq] at same
          have inLine : c ≠ '\n' := (solid_of_mem_delimiters mem).2
          have positive := Char.utf8Size_pos c
          simp only [Place.step, if_neg inLine] at order
          omega
      · exact ih (place.step c)

/-- The places of the reports are places of delimiters that are open or follow, none of them twice: every
delimiter is pushed once, and is popped or reported once. -/
theorem subperm_of_delimiterIssuesFrom (place : Place) (opened : List Opened) (text : List Char) :
    ((delimiterIssuesFrom place opened text).map spotOf).Subperm
      (opened.map (fun entry => (some entry.2.line, some entry.2.column)) ++ spotsFrom place text) := by
  fun_induction delimiterIssuesFrom place opened text with
  | case1 place opened =>
      rw [List.map_map, spotsFrom, List.append_nil]
      exact ((List.reverse_perm opened).map _).subperm
  | case2 place opened c rest next kind opens ih =>
      obtain rfl := Delimiter.eq_of_ofOpening? opens
      rw [spotsFrom, if_pos (opening_mem_delimiters kind)]
      exact ih.trans List.perm_middle.symm.subperm
  | case3 place opened c rest next closes opens ih =>
      rw [spotsFrom, if_neg (not_mem_delimiters opens closes)]
      exact ih
  | case4 place c rest next kind closes _ ih =>
      obtain rfl := Delimiter.eq_of_ofClosing? closes
      rw [spotsFrom, if_pos (closing_mem_delimiters kind)]
      exact (List.subperm_cons _).2 ih
  | case5 place c rest next _ top outer closes ih =>
      obtain rfl := Delimiter.eq_of_ofClosing? closes
      rw [spotsFrom, if_pos (closing_mem_delimiters top.1), List.map_cons, List.cons_append]
      have fewer := (List.Sublist.refl (outer.map fun entry => (some entry.2.line, some entry.2.column))).append
        (List.sublist_cons_self (some place.line, some place.column) (spotsFrom (place.step top.1.closing) rest))
      exact ih.trans (fewer.cons _).subperm
  | case6 place c rest next kind closes _ top outer differ ih =>
      obtain rfl := Delimiter.eq_of_ofClosing? closes
      rw [spotsFrom, if_pos (closing_mem_delimiters kind), List.map_cons, List.map_cons,
        List.cons_append]
      have reported := (List.subperm_cons (some place.line, some place.column)).2 ih
      have placed := reported.trans List.perm_middle.symm.subperm
      exact placed.trans (List.sublist_cons_self _ _).subperm

def pointsBehind (front : List Char) (issue : Issue) : Bool :=
  issue.line == some (Place.origin.advance front).line &&
    issue.column == some (Place.origin.advance front).column

/-- Of what stands at one place at most one issue speaks. -/
theorem countP_pointsBehind_le_one (front text : List Char) :
    (delimiterIssues text).countP (pointsBehind front) ≤ 1 := by
  let spot := (some (Place.origin.advance front).line, some (Place.origin.advance front).column)
  have places : ((delimiterIssues text).map spotOf).Subperm (spotsFrom .origin text) :=
    subperm_of_delimiterIssuesFrom .origin [] text
  calc (delimiterIssues text).countP (pointsBehind front)
      = (delimiterIssues text).countP ((· == spot) ∘ spotOf) := by
        apply List.countP_congr
        intro issue _
        simp [pointsBehind, spotOf, spot]
    _ = ((delimiterIssues text).map spotOf).count spot := (List.countP_map ..).symm
    _ ≤ (spotsFrom .origin text).count spot := places.count_le spot
    _ ≤ 1 := List.nodup_iff_count_le_one.1 (nodup_spotsFrom .origin text) spot

/-! Bytes -/

/-- The character that stands for a byte: the ASCII character that it is, and a space for a byte of a
longer character, which is no delimiter either. -/
def byteChar (b : UInt8) : Char := if b < 0x80 then Char.ofNat b.toNat else ' '

def delimiterIssuesOfBytes (bytes : Bytes) : List Issue := delimiterIssues (bytes.map byteChar)

/-- The bytes of a character stand for the character itself, or for spaces. -/
theorem map_byteChar_utf8EncodeChar (c : Char) :
    (String.utf8EncodeChar c).map byteChar =
      if c.val.toNat ≤ 0x7F then [c] else List.replicate c.utf8Size ' ' := by
  split
  · next short =>
      have bound : c.val.toNat < 2 ^ 8 := by omega
      have value : (UInt8.ofNat c.val.toNat).toNat = c.val.toNat := by
        rw [UInt8.toNat_ofNat', Nat.mod_eq_of_lt bound]
      have ascii : UInt8.ofNat c.val.toNat < 0x80 := by
        rw [UInt8.lt_iff_toNat_lt, value]
        exact Nat.lt_succ_of_le short
      simp only [String.utf8EncodeChar, if_pos short, List.map_cons, List.map_nil, byteChar,
        if_pos ascii, value]
      exact congrArg (fun d => [d]) (Char.ofNat_toNat c)
  · next long =>
      refine List.eq_replicate_iff.2 ⟨?_, fun d mem => ?_⟩
      · rw [List.length_map, String.length_utf8EncodeChar]
      · obtain ⟨b, inside, rfl⟩ := List.mem_map.1 mem
        have high := le_of_mem_utf8EncodeChar inside (Nat.not_le.1 long)
        refine if_neg fun ascii => ?_
        rw [UInt8.lt_iff_toNat_lt] at ascii
        exact absurd high (Nat.not_le.2 ascii)

/-- What stands in front of a text without any delimiter changes but the places. -/
theorem delimiterIssuesFrom_append (plain : ∀ c ∈ front, c ∉ delimiters) :
    delimiterIssuesFrom place opened (front ++ text) =
      delimiterIssuesFrom (place.advance front) opened text := by
  induction front generalizing place with
  | nil => rfl
  | cons c front ih =>
      rw [List.forall_mem_cons] at plain
      obtain ⟨opens, closes⟩ := of_not_mem_delimiters plain.1
      rw [List.cons_append, delimiterIssuesFrom, opens, closes]
      exact ih plain.2

theorem isAscii_of_mem_delimiters (mem : c ∈ delimiters) : c.val.toNat ≤ 0x7F := by
  simp only [delimiters, List.mem_cons, List.not_mem_nil, or_false] at mem
  obtain rfl | rfl | rfl | rfl | rfl | rfl := mem <;> decide

/-- The pairing goes through the bytes of a text as it goes through its characters. -/
theorem delimiterIssues_eq_ofBytes (text : String) :
    delimiterIssues text.toList = delimiterIssuesOfBytes (encode text) := by
  have bytes : encode text = text.toList.flatMap String.utf8EncodeChar := by
    rw [← encode_ofList, String.ofList_toList]
  rw [delimiterIssuesOfBytes, delimiterIssues, delimiterIssues, bytes]
  generalize Place.origin = place, ([] : List Opened) = opened
  induction text.toList generalizing place opened with
  | nil => rfl
  | cons c rest ih =>
      rw [List.flatMap_cons, List.map_append, map_byteChar_utf8EncodeChar]
      split
      · rw [List.singleton_append, delimiterIssuesFrom, delimiterIssuesFrom]
        simp only [ih]
      · next long =>
          have plain : c ∉ delimiters := fun mem => long (isAscii_of_mem_delimiters mem)
          have inLine : c ≠ '\n' := by
            rintro rfl
            exact long (by decide)
          have spaces : ∀ d ∈ List.replicate c.utf8Size ' ', d ∉ delimiters := by
            intro d mem
            rw [List.eq_of_mem_replicate mem]
            decide
          have step : place.advance (List.replicate c.utf8Size ' ') = place.step c := by
            simpa using advance_of_masks (.blank inLine .nil) place
          have single : ∀ d ∈ [c], d ∉ delimiters := by simpa using plain
          rw [delimiterIssuesFrom_append spaces, step, ← ih]
          exact delimiterIssuesFrom_append single

/-- For every string of bytes: nothing is reported about its delimiters exactly when they are a well-nested
word; every report is about the delimiter at its place, an opening one that stays open, or a closing one
that meets nothing or another kind; and of no place there are two reports. What is reported of a text is
what is reported of its bytes. -/
theorem pairing_of_bytes (bytes : Bytes) :
    (delimiterIssuesOfBytes bytes = [] ↔ WellNested (delimitersIn (bytes.map byteChar))) ∧
      (∀ issue ∈ delimiterIssuesOfBytes bytes, ∃ (front : Bytes) (b : UInt8) (behind : Bytes),
        bytes = front ++ b :: behind ∧ Faults (Place.origin.advance (front.map byteChar)) (byteChar b) issue) ∧
      (∀ front : Bytes, (delimiterIssuesOfBytes bytes).countP (pointsBehind (front.map byteChar)) ≤ 1) ∧
      ∀ text : String, delimiterIssues text.toList = delimiterIssuesOfBytes (encode text) := by
  refine ⟨delimiterIssues_eq_nil_iff, ?_, ?_, delimiterIssues_eq_ofBytes⟩
  · intro issue mem
    obtain ⟨entry, none, -⟩ | ⟨front, c, behind, whole, faults⟩ := faults_of_delimiterIssuesFrom mem
    · cases none
    · obtain ⟨front, rest, rfl, rfl, spelt⟩ := List.map_eq_append_iff.1 whole
      obtain ⟨b, behind, rfl, rfl, -⟩ := List.map_eq_cons_iff.1 spelt
      exact ⟨front, b, behind, rfl, faults⟩
  · intro front
    exact countP_pointsBehind_le_one (front.map byteChar) (bytes.map byteChar)

/-- Behind a fault the pairing goes on: each closing delimiter takes one open delimiter away. -/
example : (delimiterIssues "([)]\x7d(".toList).map (fun issue => (issue.message, issue.column)) =
    [("mismatched ')', expected ']' to close '[' from line 1", some 3),
      ("mismatched ']', expected ')' to close '(' from line 1", some 4),
      ("unmatched '\x7d'", some 5), ("unclosed '('", some 6)] := by decide +kernel

end Graft.Code
