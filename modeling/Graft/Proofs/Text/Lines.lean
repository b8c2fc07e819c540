import Graft.Text.Lines
import Graft.Text.Place

/-!
A text line by line. What a text is split into at its line feeds is told by its parts
(`splitAtChar_append`), and every front of a text is some lines with their line feeds and the start of
one more (`exists_ended`), whose number and offset are those of the place behind it.
-/

namespace Graft.Text

theorem splitAtChar_append (separator : Char) (before after : List Char) :
    splitAtChar separator (before ++ separator :: after) =
      splitAtChar separator before ++ splitAtChar separator after := by
  induction before with
  | nil => simp [splitAtChar]
  | cons c rest ih =>
      by_cases same : c = separator
      · simp [splitAtChar, same, ih]
      · cases pieces : splitAtChar separator rest with
        | nil => exact absurd pieces (splitAtChar_ne_nil separator rest)
        | cons piece others => simp [splitAtChar, same, ih, pieces]

theorem splitAtChar_of_not_mem {separator : Char} {text : List Char} (h : separator ∉ text) :
    splitAtChar separator text = [text] := by
  induction text with
  | nil => rfl
  | cons c rest ih =>
      have first : c ≠ separator := (List.ne_of_not_mem_cons h).symm
      simp [splitAtChar, first, ih (List.not_mem_of_not_mem_cons h)]

theorem splitAtChar_append_of_not_mem {separator : Char} {front rest piece : List Char}
    {pieces : List (List Char)} (none : separator ∉ front)
    (spelt : splitAtChar separator rest = piece :: pieces) :
    splitAtChar separator (front ++ rest) = (front ++ piece) :: pieces := by
  induction front with
  | nil => exact spelt
  | cons c front ih =>
      rw [List.mem_cons, not_or] at none
      rw [List.cons_append, splitAtChar, if_neg (Ne.symm none.1), ih none.2]
      rfl

theorem count_le_byteLength (c : Char) (text : List Char) : text.count c ≤ byteLength text := by
  induction text with
  | nil => exact Nat.le_refl 0
  | cons first rest ih =>
      have filled := first.utf8Size_pos
      rw [List.count_cons, byteLength_cons]
      split <;> omega

/-- There is at most one piece more than there are bytes, and none has more bytes than the text. -/
theorem splitAtChar_bounds (separator : Char) (text : List Char) :
    (splitAtChar separator text).length ≤ byteLength text + 1 ∧
      ∀ piece ∈ splitAtChar separator text, byteLength piece ≤ byteLength text := by
  induction text with
  | nil => simp [splitAtChar]
  | cons c rest ih =>
      obtain ⟨few, short⟩ := ih
      have filled := c.utf8Size_pos
      rw [splitAtChar, byteLength_cons]
      split
      · refine ⟨by rw [List.length_cons]; omega, ?_⟩
        intro piece listed
        obtain rfl | later := List.mem_cons.1 listed
        · exact Nat.zero_le _
        · exact Nat.le_trans (short piece later) (Nat.le_add_left _ _)
      · split
        · next none => exact absurd none (splitAtChar_ne_nil separator rest)
        · next first pieces spelt =>
            rw [spelt] at few short
            obtain ⟨shortFirst, shortRest⟩ := List.forall_mem_cons.1 short
            refine ⟨by rw [List.length_cons] at few ⊢; omega, ?_⟩
            intro piece listed
            obtain rfl | later := List.mem_cons.1 listed
            · rw [byteLength_cons]
              omega
            · exact Nat.le_trans (shortRest piece later) (Nat.le_add_left _ _)

theorem length_linesOf_le (text : List Char) : (linesOf text).length ≤ byteLength text + 1 := by
  have few := (splitAtChar_bounds '\n' text).1
  obtain ⟨init, last, spelt⟩ : ∃ init last, splitAtChar '\n' text = init ++ [last] :=
    ⟨_, _, (List.dropLast_concat_getLast (splitAtChar_ne_nil '\n' text)).symm⟩
  rw [spelt, List.length_append, List.length_singleton] at few
  cases last with
  | nil =>
      simp only [linesOf, spelt, List.dropLast_concat, List.getLast?_concat, List.length_map]
      omega
  | cons c last =>
      simp only [linesOf, spelt, List.dropLast_concat, List.getLast?_concat, List.length_append,
        List.length_map, List.length_singleton]
      omega

/-- The first piece is what stands in front of the first separator. -/
theorem exists_splitAtChar (separator : Char) (text : List Char) :
    ∃ pieces, splitAtChar separator text = text.takeWhile (· != separator) :: pieces := by
  induction text with
  | nil => exact ⟨[], rfl⟩
  | cons c rest ih =>
      obtain ⟨pieces, spelt⟩ := ih
      by_cases same : c = separator
      · exact ⟨splitAtChar separator rest, by simp [splitAtChar, same]⟩
      · exact ⟨pieces, by simp [splitAtChar, same, spelt]⟩

theorem not_mem_of_mem_splitAtChar {separator : Char} {text piece : List Char}
    (listed : piece ∈ splitAtChar separator text) : separator ∉ piece := by
  induction text generalizing piece with
  | nil =>
      obtain rfl := List.mem_singleton.1 listed
      exact List.not_mem_nil
  | cons c rest ih =>
      rw [splitAtChar] at listed
      split at listed
      · obtain rfl | later := List.mem_cons.1 listed
        · exact List.not_mem_nil
        · exact ih later
      · next other =>
        split at listed
        · obtain rfl := List.mem_singleton.1 listed
          simpa using Ne.symm other
        · next first pieces spelt =>
          rw [spelt] at ih
          obtain rfl | later := List.mem_cons.1 listed
          · exact List.not_mem_cons_of_ne_of_not_mem (Ne.symm other) (ih List.mem_cons_self)
          · exact ih (List.mem_cons_of_mem _ later)

/-! Lines with their line feeds -/

def ended (lines : List (List Char)) : List Char := lines.flatMap (· ++ ['\n'])

@[simp] theorem ended_nil : ended [] = [] := rfl

@[simp] theorem ended_cons (line : List Char) (lines : List (List Char)) :
    ended (line :: lines) = line ++ '\n' :: ended lines := by
  simp [ended]

variable {lines : List (List Char)} {last : List Char}

/-- Every text is some lines with their line feeds, and one more line. -/
theorem exists_ended (text : List Char) :
    ∃ lines last, text = ended lines ++ last ∧ (∀ line ∈ lines, '\n' ∉ line) ∧ '\n' ∉ last := by
  induction text with
  | nil => exact ⟨[], [], rfl, nofun, List.not_mem_nil⟩
  | cons c rest ih =>
      obtain ⟨lines, last, rfl, inLines, inLast⟩ := ih
      by_cases ends : c = '\n'
      · refine ⟨[] :: lines, last, by simp [ends], ?_, inLast⟩
        exact List.forall_mem_cons.2 ⟨List.not_mem_nil, inLines⟩
      · cases lines with
        | nil =>
            refine ⟨[], c :: last, rfl, nofun, ?_⟩
            exact List.not_mem_cons_of_ne_of_not_mem (Ne.symm ends) inLast
        | cons line lines =>
            rw [List.forall_mem_cons] at inLines
            refine ⟨(c :: line) :: lines, last, by simp, ?_, inLast⟩
            refine List.forall_mem_cons.2 ⟨?_, inLines.2⟩
            exact List.not_mem_cons_of_ne_of_not_mem (Ne.symm ends) inLines.1

theorem splitAtChar_ended_append (inLines : ∀ line ∈ lines, '\n' ∉ line) (rest : List Char) :
    splitAtChar '\n' (ended lines ++ rest) = lines ++ splitAtChar '\n' rest := by
  induction lines with
  | nil => rfl
  | cons line lines ih =>
      rw [List.forall_mem_cons] at inLines
      rw [ended_cons, List.append_assoc, List.cons_append, splitAtChar_append,
        splitAtChar_of_not_mem inLines.1, ih inLines.2]
      rfl

theorem byteLength_ended_cons (line : List Char) (lines : List (List Char)) :
    byteLength (ended (line :: lines)) = byteLength line + 1 + byteLength (ended lines) := by
  have lineFeed : '\n'.utf8Size = 1 := rfl
  rw [ended_cons, byteLength_append, byteLength_cons, lineFeed, Nat.add_assoc]

theorem line_advance_ended (place : Place) (inLines : ∀ line ∈ lines, '\n' ∉ line)
    (inLast : '\n' ∉ last) :
    (place.advance (ended lines ++ last)).line = place.line + lines.length := by
  rw [Place.line_advance, List.count_append, List.count_eq_zero.2 inLast]
  induction lines with
  | nil => rfl
  | cons line lines ih =>
      rw [List.forall_mem_cons] at inLines
      have later := ih inLines.2
      rw [ended_cons, List.count_append, List.count_eq_zero.2 inLines.1, List.count_cons_self,
        List.length_cons]
      omega

theorem column_advance_of_not_mem (place : Place) (inLast : '\n' ∉ last) :
    (place.advance last).column = place.column + byteLength last := by
  induction last generalizing place with
  | nil => rfl
  | cons c last ih =>
      rw [List.mem_cons, not_or] at inLast
      rw [Place.advance_cons, ih _ inLast.2, Place.step, if_neg (Ne.symm inLast.1), byteLength_cons,
        Nat.add_assoc]

/-- The column behind some lines and the start of one more counts from the start of that one. -/
theorem column_advance_ended (place : Place) (lines : List (List Char)) (inLast : '\n' ∉ last) :
    (place.advance (ended lines ++ last)).column =
      (if lines = [] then place.column else 1) + byteLength last := by
  induction lines generalizing place with
  | nil => exact column_advance_of_not_mem place inLast
  | cons line lines ih =>
      have onward : place.advance (ended (line :: lines) ++ last) =
          ((place.advance line).step '\n').advance (ended lines ++ last) := by
        rw [ended_cons, List.append_assoc, List.cons_append, Place.advance_append, Place.advance_cons]
      have first : ((place.advance line).step '\n').column = 1 := rfl
      rw [onward, ih, first, ite_self, if_neg (List.cons_ne_nil line lines)]

/-! Lines without their endings -/

/-- Lines with their line feeds in front of a text are its first lines, without their endings. -/
theorem linesOf_ended_append (inLines : ∀ line ∈ lines, '\n' ∉ line) (rest : List Char) :
    linesOf (ended lines ++ rest) = lines.map dropReturn ++ linesOf rest := by
  obtain ⟨init, last, spelt⟩ : ∃ init last, splitAtChar '\n' rest = init ++ [last] :=
    ⟨_, _, (List.dropLast_concat_getLast (splitAtChar_ne_nil '\n' rest)).symm⟩
  simp only [linesOf, splitAtChar_ended_append inLines, spelt, ← List.append_assoc,
    List.dropLast_concat, List.getLast?_concat, List.map_append]
  cases last with
  | nil => rfl
  | cons c last => exact List.append_assoc _ _ _

theorem dropReturn_append {front : List Char} (solid : front.getLast? ≠ some '\r') (rest : List Char) :
    ∃ tail, dropReturn (front ++ rest) = front ++ tail ∧ tail <+: rest := by
  unfold dropReturn
  split
  · next ends =>
      have filled : rest ≠ [] := by
        rintro rfl
        rw [List.append_nil] at ends
        exact solid ends
      exact ⟨rest.dropLast, List.dropLast_append_of_ne_nil filled, List.dropLast_prefix rest⟩
  · exact ⟨rest, rfl, List.prefix_refl rest⟩

/-- The start of a text that ends no line is the start of its first line. -/
theorem exists_linesOf_append {front : List Char} (inLine : '\n' ∉ front) (filled : front ≠ [])
    (solid : front.getLast? ≠ some '\r') (rest : List Char) :
    ∃ tail others, linesOf (front ++ rest) = (front ++ tail) :: others ∧ tail <+: rest := by
  obtain ⟨pieces, spelt⟩ := exists_splitAtChar '\n' rest
  have first : rest.takeWhile (· != '\n') <+: rest := List.takeWhile_prefix _
  cases pieces with
  | nil =>
      refine ⟨rest.takeWhile (· != '\n'), [], ?_, first⟩
      obtain ⟨c, front, rfl⟩ := List.exists_cons_of_ne_nil filled
      rw [linesOf, splitAtChar_append_of_not_mem inLine spelt]
      rfl
  | cons next pieces =>
      obtain ⟨tail, dropped, inside⟩ := dropReturn_append solid (rest.takeWhile (· != '\n'))
      simp only [linesOf, splitAtChar_append_of_not_mem inLine spelt, List.dropLast_cons_cons,
        List.map_cons, dropped]
      split
      · exact ⟨tail, _, rfl, inside.trans first⟩
      · exact ⟨tail, _, rfl, inside.trans first⟩
      · exact ⟨tail, _, List.cons_append, inside.trans first⟩

theorem linesOf_of_not_mem (inLast : '\n' ∉ last) (filled : last ≠ []) : linesOf last = [last] := by
  rw [linesOf, splitAtChar_of_not_mem inLast]
  obtain ⟨c, last, rfl⟩ := List.exists_cons_of_ne_nil filled
  rfl

/-- Texts on lines of their own are the lines of all of it, if none of them is empty or ends in a carriage
return. -/
theorem lines_intercalate {texts : List String} (inLines : ∀ text ∈ texts, '\n' ∉ text.toList)
    (filled : ∀ text ∈ texts, text.toList ≠ [])
    (solid : ∀ text ∈ texts, text.toList.getLast? ≠ some '\r') :
    Text.lines ("\n".intercalate texts) = texts := by
  induction texts with
  | nil => rfl
  | cons text rest ih =>
      rw [List.forall_mem_cons] at inLines filled solid
      have others := ih inLines.2 filled.2 solid.2
      cases rest with
      | nil =>
          rw [String.intercalate_singleton, Text.lines, linesOf_of_not_mem inLines.1 filled.1]
          simp
      | cons next rest =>
          have joined : ("\n".intercalate (text :: next :: rest)).toList =
              ended [text.toList] ++ ("\n".intercalate (next :: rest)).toList := by
            simp [String.intercalate_cons_cons]
          have first : ∀ line ∈ [text.toList], '\n' ∉ line := by simpa using inLines.1
          have same : dropReturn text.toList = text.toList := if_neg solid.1
          rw [Text.lines, joined, linesOf_ended_append first, List.map_append, ← Text.lines, others]
          simp [same]

end Graft.Text
