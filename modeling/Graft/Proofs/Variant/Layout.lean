import Graft.Proofs.Text.Slice
import Graft.Variant.Merge

/-!
Spans that lie in a text as merging wants them: numbered from one in their order, none before the
end of the one ahead of it, and all of them between characters. `checkSpans_eq_ok_iff` says that the
check of the spans accepts exactly these, one for each function of the unit.
-/

namespace Graft.Variant

open Graft.Text Graft.Code

structure LaidOut (text : String) (spans : List Span) : Prop where
  numbered : spans.map (·.ordinal) = List.range' 1 spans.length
  ordered : spans.Pairwise fun first second => first.stop ≤ second.start
  forwards : ∀ span ∈ spans, span.start ≤ span.stop
  inside : ∀ span ∈ spans, span.stop ≤ byteLength text.toList
  between : ∀ span ∈ spans,
    isBoundary text.toList span.start ∧ isBoundary text.toList span.stop

/-- The check of the spans behind some others accepts exactly those that go on with the numbers,
lie behind the bound and one behind the other, and start and stop between characters. -/
theorem checkSpansFrom_eq_ok_iff (text : String) (ordinal bound : Nat) (spans : List Span) :
    checkSpansFrom text ordinal bound spans = .ok () ↔
      spans.map (·.ordinal) = List.range' (ordinal + 1) spans.length ∧
      (∀ span ∈ spans, bound ≤ span.start) ∧
      (spans.Pairwise fun first second => first.stop ≤ second.start) ∧
      (∀ span ∈ spans, span.start ≤ span.stop) ∧
      ∀ span ∈ spans, isBoundary text.toList span.start ∧ isBoundary text.toList span.stop := by
  induction spans generalizing ordinal bound with
  | nil => simp [checkSpansFrom]
  | cons span rest ih =>
      unfold checkSpansFrom
      split
      · next misnumbered =>
          simp only [List.map_cons, List.length_cons, List.range'_succ, List.cons.injEq, reduceCtorEq,
            false_iff]
          exact fun accepted => misnumbered accepted.1.1
      · next numbered =>
          have hordinal : span.ordinal = ordinal + 1 := by simpa using numbered
          split
          · next fits =>
              obtain ⟨hbound, hforwards, hstart, hstop⟩ := fits
              rw [ih]
              simp only [List.map_cons, List.length_cons, List.range'_succ, List.cons.injEq,
                List.forall_mem_cons, List.pairwise_cons, hordinal]
              constructor
              · rintro ⟨hnumbers, hbehind, hordered, hrest, hbetween⟩
                refine ⟨⟨trivial, hnumbers⟩, ⟨hbound, fun other member => ?_⟩,
                  ⟨hbehind, hordered⟩, ⟨hforwards, hrest⟩, ⟨hstart, hstop⟩, hbetween⟩
                have := hbehind other member
                omega
              · rintro ⟨⟨-, hnumbers⟩, -, ⟨hbehind, hordered⟩, ⟨-, hrest⟩, -, hbetween⟩
                exact ⟨hnumbers, hbehind, hordered, hrest, hbetween⟩
          · next fits =>
              simp only [reduceCtorEq, List.forall_mem_cons, false_iff]
              rintro ⟨-, ⟨hbound, -⟩, -, ⟨hforwards, -⟩, ⟨hstart, hstop⟩, -⟩
              exact fits ⟨hbound, hforwards, hstart, hstop⟩

/-- The spans of a unit are accepted exactly when there is one for each function and they are laid
out in its text. -/
theorem checkSpans_eq_ok_iff (unit : SourceUnit) (spans : List Span) :
    checkSpans unit spans = .ok () ↔ spans.length = unit.count ∧ LaidOut unit.text spans := by
  unfold checkSpans
  split
  · next different => simp [different]
  · next same =>
      have hlength : spans.length = unit.count := by simpa using same
      rw [checkSpansFrom_eq_ok_iff]
      constructor
      · rintro ⟨hnumbered, -, hordered, hforwards, hbetween⟩
        exact ⟨hlength, hnumbered, hordered, hforwards,
          fun span member => le_of_isBoundary (hbetween span member).2, hbetween⟩
      · rintro ⟨-, laid⟩
        exact ⟨laid.numbered, by simp, laid.ordered, laid.forwards, laid.between⟩

end Graft.Variant
