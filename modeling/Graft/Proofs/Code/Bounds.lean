import Graft.Code.Hazard
import Graft.Proofs.Code.Naming
import Graft.Proofs.Code.Positions

/-!
How large the numbers are that are counted in a text. A text has at most one line more than it has
bytes, no column reaches further than a byte behind the text, and no more functions are located than
there are bytes. So lines, columns and ordinals are numbers of 32 bits in every text of less than four
gibibytes (`numbers_fit`).
-/

namespace Graft.Code

open Graft.Text

variable {text : String}

theorem line_le_of_discover {definitions : List Definition} (found : discover text = .ok definitions) :
    ∀ definition ∈ definitions, definition.line ≤ byteLength text.toList + 1 := by
  intro definition member
  obtain ⟨passed, behind, whole, -, line⟩ := line_of_discover found definition member
  have few := count_le_byteLength '\n' passed
  rw [line, whole, byteLength_append]
  omega

theorem ordinal_le_of_locate {identifiers : List String} {spans : List Span}
    (located : locate text identifiers = .ok spans) :
    ∀ span ∈ spans, span.ordinal ≤ byteLength text.toList := by
  intro span member
  cases found : discover text with
  | error error =>
      rw [locate, found] at located
      cases located
  | ok definitions =>
      obtain ⟨chosen, chooses, rfl⟩ := chooses_of_locate found located
      obtain ⟨index, short, rfl⟩ := List.mem_mapIdx.1 member
      exact (Nat.succ_le_of_lt short).trans
        (chooses.ordered.length_le.trans (length_le_byteLength found))

theorem line_placeAt_go_le (place : Place) (text : List Char) (offset : Nat) :
    (placeAt.go offset place text).line ≤ place.line + byteLength text := by
  induction text generalizing place with
  | nil => exact Nat.le_refl _
  | cons c rest ih =>
      have filled := c.utf8Size_pos
      rw [placeAt.go, byteLength_cons]
      split
      · have further := ih (place.step c)
        rw [Place.line_step] at further
        split at further <;> omega
      · omega

theorem position_le_of_formIssues {issue : Issue} (mem : issue ∈ formIssues text) :
    ∃ line column, issue.line = some line ∧ issue.column = some column ∧
      line ≤ byteLength text.toList + 1 ∧ column ≤ byteLength text.toList + 1 := by
  obtain ⟨index, stretch, column, here, -, line, column_eq, -, short⟩ := (points_of_formIssues mem).1
  obtain ⟨few, pieces⟩ := splitAtChar_bounds '\n' text.toList
  have inText := pieces stretch (List.mem_of_getElem? here)
  have inside := (List.getElem?_eq_some_iff.1 here).1
  exact ⟨1 + index, column, line, column_eq, by omega, by omega⟩

theorem line_lt_of_hazardsFrom {number : Nat} {inBlock : Bool} {lines : List (List Char)}
    {finding : Finding} (mem : finding ∈ hazardsFrom number inBlock lines) :
    finding.line < number + lines.length := by
  induction lines generalizing number inBlock with
  | nil => cases mem
  | cons line rest ih =>
      rw [hazardsFrom, List.mem_append] at mem
      rw [List.length_cons]
      obtain here | later := mem
      · have same : finding.line = number := by
          unfold hazardsOnLine at here
          split at here
          · cases here
          · obtain ⟨rule, -, found⟩ := List.mem_filterMap.1 here
            split at found
            · exact Option.some.inj found ▸ rfl
            · cases found
        omega
      · have bounded := ih later
        omega

theorem line_le_of_hazards {finding : Finding} (mem : finding ∈ hazards text) :
    finding.line ≤ byteLength text.toList + 1 := by
  have before := line_lt_of_hazardsFrom mem
  have few := length_linesOf_le text.toList
  omega

/-- In a text of less than four gibibytes, the lines of definitions and of offsets, the ordinals of spans,
the lines and columns of issues and the lines of findings are numbers of 32 bits. -/
theorem numbers_fit (small : byteLength text.toList < maxUnsigned 32) :
    (∀ definitions, discover text = .ok definitions →
      ∀ definition ∈ definitions, definition.line ≤ maxUnsigned 32) ∧
    (∀ offset, (placeAt text.toList offset).line ≤ maxUnsigned 32) ∧
    (∀ identifiers spans, locate text identifiers = .ok spans →
      ∀ span ∈ spans, span.ordinal ≤ maxUnsigned 32) ∧
    (∀ issue ∈ formIssues text, ∃ line column, issue.line = some line ∧ issue.column = some column ∧
      line ≤ maxUnsigned 32 ∧ column ≤ maxUnsigned 32) ∧
    ∀ finding ∈ hazards text, finding.line ≤ maxUnsigned 32 := by
  refine ⟨?_, ?_, ?_, ?_, ?_⟩
  · intro definitions found definition member
    exact (line_le_of_discover found definition member).trans small
  · intro offset
    have bounded := line_placeAt_go_le .origin text.toList offset
    rw [Nat.add_comm] at bounded
    exact bounded.trans small
  · intro identifiers spans located span member
    exact (ordinal_le_of_locate located span member).trans (Nat.le_of_lt small)
  · intro issue mem
    obtain ⟨line, column, hasLine, hasColumn, lines, columns⟩ := position_le_of_formIssues mem
    exact ⟨line, column, hasLine, hasColumn, lines.trans small, columns.trans small⟩
  · intro finding mem
    exact (line_le_of_hazards mem).trans small

end Graft.Code
