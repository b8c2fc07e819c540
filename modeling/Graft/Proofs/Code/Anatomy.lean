import Graft.Proofs.Code.Placed
import Graft.Proofs.Code.Stretch
import Mathlib.Data.List.Basic

/-!
What the definitions of a text are. They lie one behind the other, each of them reads as a stretch of
the tokens of the text, from the first token of its statement to the brace that closes its body, and
its line is that of its start (`definitions_of_discover`).
-/

namespace Graft.Code

open Graft.Text

/-- The definitions of a text read as stretches of its tokens, one behind the other. -/
theorem definedIn_of_discover {text : String} {definitions : List Definition}
    (found : discover text = .ok definitions) : DefinedIn (tokens text.toList) definitions :=
  definedIn_of_scans (scans_definitionsFrom [] [] (tokens text.toList)) found

namespace Definition

variable {definition : Definition} {parts : Parts}

/-- Whether a definition lies in front of another one, with nothing in common. -/
structure Precedes (first second : Definition) : Prop where
  starts : first.start < second.start
  apart : first.stop ≤ second.start

/-- The last token of a definition is the brace that closes its body. -/
theorem Reads.getLast?_tokens (reads : definition.Reads parts) :
    ∃ last, parts.tokens.getLast? = some last ∧ last.isMark '}' ∧
      definition.stop = last.stop.offset := by
  obtain ⟨last, hlast, closes, hstop⟩ := reads.stops
  refine ⟨last, ?_, closes, hstop⟩
  rw [Parts.tokens, List.getLast?_append, hlast]
  rfl

/-- A definition in a text stops behind its start. -/
theorem Reads.start_lt_stop {text : List Char} (reads : definition.Reads parts)
    (part : parts.tokens <:+: tokens text) : definition.start < definition.stop := by
  obtain ⟨first, hfirst, hstart, -⟩ := reads.starts
  obtain ⟨last, hlast, -, hstop⟩ := reads.getLast?_tokens
  have firstForwards := start_lt_stop_of_mem_tokens (part.subset (List.mem_of_head? hfirst))
  have lastForwards := start_lt_stop_of_mem_tokens (part.subset (List.mem_of_getLast? hlast))
  obtain ⟨more, htokens⟩ := List.head?_eq_some_iff.1 hfirst
  have ordered := (placedIn_tokens text).ordered.sublist part.sublist
  rw [htokens] at ordered hlast
  rw [hstart, hstop]
  obtain rfl | later := List.mem_cons.1 (List.mem_of_getLast? hlast)
  · exact firstForwards
  · have between := (List.pairwise_cons.1 ordered).1 last later
    omega

end Definition

/-- Definitions that read as stretches of tokens one behind the other end before the next ones start. -/
theorem DefinedIn.pairwise {tokens : List Token} {definitions : List Definition}
    (defined : DefinedIn tokens definitions)
    (ordered : tokens.Pairwise fun first second => first.stop.offset ≤ second.start.offset) :
    definitions.Pairwise fun first second => first.stop ≤ second.start := by
  induction defined with
  | none => exact .nil
  | @next definition parts before behind others reads later ih =>
      obtain ⟨-, behindOrdered, across⟩ := List.pairwise_append.1 ordered
      refine List.pairwise_cons.2 ⟨fun other member => ?_, ih behindOrdered⟩
      obtain ⟨front, otherParts, rest, rfl, otherReads⟩ := later.exists_parts member
      obtain ⟨last, hlast, -, hstop⟩ := reads.getLast?_tokens
      obtain ⟨first, hfirst, hstart, -⟩ := otherReads.starts
      have lastMember := List.mem_of_getLast? hlast
      have firstMember := List.mem_of_head? hfirst
      rw [hstop, hstart]
      exact across last (by simp [lastMember]) first (by simp [firstMember])

/-- Definitions as they lie in a text: none is empty, and they come one behind the other. -/
structure InOrder (definitions : List Definition) : Prop where
  forwards : ∀ definition ∈ definitions, definition.start < definition.stop
  ordered : definitions.Pairwise Definition.Precedes

theorem inOrder_of_discover {text : String} {definitions : List Definition}
    (found : discover text = .ok definitions) : InOrder definitions := by
  have defined := definedIn_of_discover found
  have forwards : ∀ definition ∈ definitions, definition.start < definition.stop := by
    intro definition member
    obtain ⟨before, parts, behind, whole, reads⟩ := defined.exists_parts member
    exact reads.start_lt_stop ⟨before, behind, whole.symm⟩
  have apart := defined.pairwise (placedIn_tokens text.toList).ordered
  refine ⟨forwards, apart.imp_of_mem fun {first second} member _ apart => ⟨?_, apart⟩⟩
  exact Nat.lt_of_lt_of_le (forwards first member) apart

/-- A definition that starts and stops between characters of the text, not before it starts. -/
structure Definition.FitsIn (definition : Definition) (text : List Char) : Prop where
  forwards : definition.start ≤ definition.stop
  start : isBoundary text definition.start
  stop : isBoundary text definition.stop

/-- Every definition that is found in a text fits into it. -/
theorem fitsIn_of_discover {text : String} {definitions : List Definition}
    (found : discover text = .ok definitions) :
    ∀ definition ∈ definitions, definition.FitsIn text.toList := by
  intro definition member
  obtain ⟨before, parts, behind, whole, reads⟩ := (definedIn_of_discover found).exists_parts member
  have part : parts.tokens <:+: tokens text.toList := ⟨before, behind, whole.symm⟩
  obtain ⟨first, hfirst, hstart, -⟩ := reads.starts
  obtain ⟨last, hlast, -, hstop⟩ := reads.getLast?_tokens
  have placed := placedIn_tokens text.toList
  have sliceFirst := placed.sliced first (part.subset (List.mem_of_head? hfirst))
  have sliceLast := placed.sliced last (part.subset (List.mem_of_getLast? hlast))
  exact ⟨Nat.le_of_lt (reads.start_lt_stop part), hstart ▸ (isBoundary_of_slice? sliceFirst).1,
    hstop ▸ (isBoundary_of_slice? sliceLast).2⟩

/-- The line of a definition is one more than the number of line ends before it. -/
theorem line_of_discover {text : String} {definitions : List Definition}
    (found : discover text = .ok definitions) :
    ∀ definition ∈ definitions, ∃ passed behind, text.toList = passed ++ behind ∧
      byteLength passed = definition.start ∧ definition.line = passed.count '\n' + 1 := by
  intro definition member
  obtain ⟨before, parts, behind, whole, reads⟩ := (definedIn_of_discover found).exists_parts member
  obtain ⟨first, hfirst, hstart, hline⟩ := reads.starts
  have inText : first ∈ tokens text.toList := by
    rw [whole]
    simp [List.mem_of_head? hfirst]
  rw [hstart, hline]
  exact ((placedIn_tokens text.toList).stands first inText).line_start

/-- The definitions of a text lie one behind the other in the order of the text. Each of them starts with
a token and stops behind a closing brace, its name is made of the tokens up to a word that is not
reserved and is followed by an opening parenthesis, its last tokens are a group of braces, the body, and
its line is one more than the number of line ends before its start. -/
theorem definitions_of_discover {text : String} {definitions : List Definition}
    (found : discover text = .ok definitions) :
    definitions.Pairwise Definition.Precedes ∧
    ∀ definition ∈ definitions,
      definition.start < definition.stop ∧
      (∃ before parts behind, tokens text.toList = before ++ parts.tokens ++ behind ∧
        definition.Reads parts) ∧
      ∃ passed behind, text.toList = passed ++ behind ∧ byteLength passed = definition.start ∧
        definition.line = passed.count '\n' + 1 := by
  obtain ⟨forwards, ordered⟩ := inOrder_of_discover found
  refine ⟨ordered, fun definition member => ?_⟩
  obtain ⟨before, parts, behind, whole, reads⟩ := (definedIn_of_discover found).exists_parts member
  exact ⟨forwards definition member, ⟨before, parts, behind, whole, reads⟩,
    line_of_discover found definition member⟩

/-- A function, and a destructor in a namespace behind it. -/
theorem definitions_of_discover_in_namespace :
    let function : Definition := ⟨"f", 0, 26, 1⟩
    let destructor : Definition := ⟨"C::~C", 41, 60, 2⟩
    discover "int f(int x) { return x; }\nnamespace n { C::~C() noexcept {} }\n" =
        .ok [function, destructor] ∧
      function.Precedes destructor ∧ ∃ parts, destructor.Reads parts := by
  intro function destructor
  have found : discover "int f(int x) { return x; }\nnamespace n { C::~C() noexcept {} }\n" =
      .ok [function, destructor] := by decide +kernel
  obtain ⟨ordered, each⟩ := definitions_of_discover found
  have precedes := (List.pairwise_cons.1 ordered).1 destructor (by simp)
  obtain ⟨-, ⟨_, parts, _, _, reads⟩, -⟩ := each destructor (by simp)
  exact ⟨found, precedes, parts, reads⟩

end Graft.Code
