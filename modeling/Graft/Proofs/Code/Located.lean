import Graft.Proofs.Code.Anatomy
import Graft.Proofs.Code.Resolution
import Graft.Proofs.Variant.Segments

/-!
Spans that are located in a text can be merged into it. Every token is the slice of the text at its
place, whatever characters the text holds, and tokens lie one behind the other; so a definition
starts and stops between characters, and the spans of a list of identifiers pass the check of the
spans. `located_spans_accepted` says this of all texts and identifiers.
-/

namespace Graft.Code

open Graft.Text Graft.Variant

/-- The spans of identifiers are as many as these, and go on behind the spans selected before as the
check wants them to. -/
theorem checkSpansFrom_locateFrom {text : String} {definitions : List Definition}
    {selected spans : List Span} {identifiers : List String}
    (fits : ∀ definition ∈ definitions, definition.FitsIn text.toList)
    (h : locateFrom definitions selected identifiers = .ok spans) :
    spans.length = identifiers.length ∧
      checkSpansFrom text selected.length ((selected.getLast?.map Span.stop).getD 0) spans =
        .ok () := by
  induction identifiers generalizing selected spans with
  | nil =>
      obtain rfl : [] = spans := Except.ok.inj h
      exact ⟨rfl, rfl⟩
  | cons identifier rest ih =>
      unfold locateFrom at h
      cases hresolve : resolve definitions identifier with
      | error error => simp [hresolve, bind, Except.bind] at h
      | ok definition =>
          simp only [hresolve, bind, Except.bind] at h
          split at h
          · simp at h
          split at h
          · simp at h
          · next behind =>
              split at h
              · simp at h
              · next others hothers =>
                  obtain rfl := Except.ok.inj h
                  obtain ⟨hlength, hcheck⟩ := ih hothers
                  obtain ⟨hforwards, hstart, hstop⟩ := fits definition (mem_of_resolve hresolve)
                  have hbound : (selected.getLast?.map Span.stop).getD 0 ≤ definition.start := by
                    cases hlast : selected.getLast? with
                    | none => simp
                    | some span => simpa [hlast] using behind
                  refine ⟨by simp [hlength], ?_⟩
                  simpa [checkSpansFrom, hbound, hforwards, hstart, hstop] using hcheck

/-- The check accepts the spans that locating finds. -/
theorem checkSpans_of_locate {unit : SourceUnit} {spans : List Span}
    (located : locate unit.text unit.functions = .ok spans) : checkSpans unit spans = .ok () := by
  unfold locate at located
  cases hdiscover : discover unit.text with
  | error error => simp [hdiscover, bind, Except.bind] at located
  | ok definitions =>
      simp only [hdiscover, bind, Except.bind] at located
      obtain ⟨hlength, hcheck⟩ := checkSpansFrom_locateFrom (fitsIn_of_discover hdiscover) located
      simpa [checkSpans, hlength, SourceUnit.count] using hcheck

/-- Merging complains of the spans only where their check does. -/
theorem merge_ne_spanMismatch {σ : Type} (store : CandidateStore σ) (content : σ) {unit : SourceUnit}
    {spans : List Span} (accepted : checkSpans unit spans = .ok ()) (selection : Selection)
    (reason : String) : merge store content unit spans selection ≠ .error (.spanMismatch reason) := by
  unfold merge check
  rw [accepted]
  intro h
  have selectionError : checkSelection unit selection ≠ .error (.spanMismatch reason) := by
    unfold checkSelection
    dsimp only
    split
    · simp
    split
    · simp
    split <;> simp
  cases hselection : checkSelection unit selection with
  | error error => simp_all [bind, Except.bind]
  | ok _ =>
      cases hfetch : fetch store content unit.id selection.entries with
      | error error => simp [hselection, hfetch, bind, Except.bind, Except.mapError] at h
      | ok candidates =>
          simp [hselection, hfetch, bind, Except.bind, Except.mapError, pure, Except.pure] at h

/-- Every slice that locating takes is there: the token at each place is the slice of the text. And
the spans that it finds are one for each identifier, numbered from one, in their order, and between
characters of the text, so that their check accepts them, merging never complains of them, and their
own slices and the woven text exist for any replacements. -/
theorem located_spans_accepted (unit : SourceUnit) :
    (∀ token ∈ tokens unit.text.toList,
      slice? unit.text.toList token.start.offset token.stop.offset = some token.text) ∧
    ∀ spans, locate unit.text unit.functions = .ok spans →
      checkSpans unit spans = .ok () ∧
      spans.length = unit.functions.length ∧
      LaidOut unit.text spans ∧
      (∀ {σ : Type} (store : CandidateStore σ) (content : σ) (selection : Selection)
        (reason : String),
        merge store content unit spans selection ≠ .error (.spanMismatch reason)) ∧
      (∀ span ∈ spans, (span.slice? unit.text).isSome) ∧
      ∀ replacements, (weave? unit.text spans replacements).isSome := by
  refine ⟨(placedIn_tokens unit.text.toList).sliced, fun spans located => ?_⟩
  have accepted := checkSpans_of_locate located
  obtain ⟨hlength, laid⟩ := (checkSpans_eq_ok_iff unit spans).1 accepted
  obtain ⟨segments, tail, hsegments⟩ := exists_segments?_of_checkSpans accepted
  refine ⟨accepted, hlength, laid, fun store content => merge_ne_spanMismatch store content accepted,
    fun span member => ?_, fun replacements => by
      simp [weave?_of_segments? hsegments replacements]⟩
  obtain ⟨hstart, hstop⟩ := laid.between span member
  obtain ⟨found, hfound⟩ := exists_slice?_of_isBoundary (laid.forwards span member) hstart hstop
  simp [Span.slice?, hfound]

/-- A definition behind a comment, both with characters outside ASCII. -/
theorem located_spans_accepted_outside_ascii :
    let unit : SourceUnit := ⟨"umlaut.c", "/* é */ int größe(void) { return 1; }\n", ["größe"], 1⟩
    locate unit.text unit.functions = .ok [⟨1, 9, 40⟩] ∧
      checkSpans unit [⟨1, 9, 40⟩] = .ok () := by
  intro unit
  have located : locate unit.text unit.functions = .ok [⟨1, 9, 40⟩] := by decide +kernel
  exact ⟨located, ((located_spans_accepted unit).2 _ located).1⟩

end Graft.Code
