import Graft.Proofs.Variant.Layout
import Mathlib.Data.List.Basic

/-!
What weaving replacements into a text gives. Spans cut a text into segments, each a gap and the text
that the span covers, and a tail. The weaving copies lazily, from the end of one replaced span to
the start of the next; `weave?_eq_woven_segments` says that it still comes to the segments one after
the other, each with its gap as it was and with the replacement of its span where there is one.
-/

namespace Graft.Variant

open Graft.Text Graft.Code

/-- The text that a span covers, behind the gap between it and the span ahead. -/
structure Segment where
  gap : List Char
  span : Span
  body : List Char
  deriving Repr, DecidableEq

namespace Segment

def kept (segment : Segment) : List Char := segment.gap ++ segment.body

/-- The segment with the replacement of its span, or as it stands when there is none. -/
def woven (replacements : OrdinalMap String) (segment : Segment) : List Char :=
  segment.gap ++ ((replacements.get? segment.span.ordinal).map String.toList).getD segment.body

theorem woven_of_get?_eq_none {replacements : OrdinalMap String} {segment : Segment}
    (h : replacements.get? segment.span.ordinal = none) :
    segment.woven replacements = segment.kept := by
  simp [woven, kept, h]

theorem woven_of_get?_eq_some {replacements : OrdinalMap String} {segment : Segment}
    {replacement : String} (h : replacements.get? segment.span.ordinal = some replacement) :
    segment.woven replacements = segment.gap ++ replacement.toList := by
  simp [woven, h]

/-- A segment depends on the replacements of its own ordinal only. -/
theorem woven_congr {first second : OrdinalMap String} {segment : Segment}
    (h : first.get? segment.span.ordinal = second.get? segment.span.ordinal) :
    segment.woven first = segment.woven second := by
  simp only [woven, h]

end Segment

/-- The segments and the tail into which spans cut the text from a byte offset on. -/
def segmentsFrom? (text : List Char) (offset : Nat) :
    List Span → Option (List Segment × List Char)
  | [] => do
      let (_, tail) ← cut? text offset
      return ([], tail)
  | span :: spans => do
      let gap ← slice? text offset span.start
      let body ← slice? text span.start span.stop
      let (segments, tail) ← segmentsFrom? text span.stop spans
      return (⟨gap, span, body⟩ :: segments, tail)

def segments? (text : String) (spans : List Span) : Option (List Segment × List Char) :=
  segmentsFrom? text.toList 0 spans

theorem segmentsFrom?_nil_eq_some_iff {text tail : List Char} {offset : Nat}
    {segments : List Segment} :
    segmentsFrom? text offset [] = some (segments, tail) ↔
      segments = [] ∧ ∃ before, cut? text offset = some (before, tail) := by
  simp only [segmentsFrom?, Option.bind_eq_bind, Option.pure_def, Option.bind_eq_some_iff,
    Prod.exists, Option.some.injEq, Prod.mk.injEq]
  constructor
  · rintro ⟨before, rest, hcut, rfl, rfl⟩
    exact ⟨rfl, before, hcut⟩
  · rintro ⟨rfl, before, hcut⟩
    exact ⟨before, tail, hcut, rfl, rfl⟩

theorem segmentsFrom?_cons_eq_some_iff {text tail : List Char} {offset : Nat} {span : Span}
    {spans : List Span} {segments : List Segment} :
    segmentsFrom? text offset (span :: spans) = some (segments, tail) ↔
      ∃ gap body rest, slice? text offset span.start = some gap ∧
        slice? text span.start span.stop = some body ∧
        segmentsFrom? text span.stop spans = some (rest, tail) ∧
        segments = ⟨gap, span, body⟩ :: rest := by
  simp only [segmentsFrom?, Option.bind_eq_bind, Option.pure_def, Option.bind_eq_some_iff,
    Prod.exists, Option.some.injEq, Prod.mk.injEq]
  constructor
  · rintro ⟨gap, hgap, body, hbody, rest, _, hrest, rfl, rfl⟩
    exact ⟨gap, body, rest, hgap, hbody, hrest, rfl⟩
  · rintro ⟨gap, body, rest, hgap, hbody, hrest, rfl⟩
    exact ⟨gap, hgap, body, hbody, rest, tail, hrest, rfl, rfl⟩

/-- Spans that the check accepts cut the text into segments. -/
theorem exists_segmentsFrom? {text : String} {ordinal bound : Nat} {spans : List Span}
    (start : isBoundary text.toList bound)
    (accepted : checkSpansFrom text ordinal bound spans = .ok ()) :
    ∃ segments tail, segmentsFrom? text.toList bound spans = some (segments, tail) := by
  induction spans generalizing ordinal bound with
  | nil =>
      obtain ⟨⟨before, tail⟩, hcut⟩ := Option.isSome_iff_exists.1 start
      exact ⟨[], tail, segmentsFrom?_nil_eq_some_iff.2 ⟨rfl, before, hcut⟩⟩
  | cons span rest ih =>
      unfold checkSpansFrom at accepted
      split at accepted
      · simp at accepted
      split at accepted
      · next fits =>
          obtain ⟨hbound, hforwards, hstart, hstop⟩ := fits
          obtain ⟨gap, hgap⟩ := exists_slice?_of_isBoundary hbound start hstart
          obtain ⟨body, hbody⟩ := exists_slice?_of_isBoundary hforwards hstart hstop
          obtain ⟨segments, tail, hrest⟩ := ih hstop accepted
          exact ⟨⟨gap, span, body⟩ :: segments, tail, segmentsFrom?_cons_eq_some_iff.2
            ⟨gap, body, segments, hgap, hbody, hrest, rfl⟩⟩
      · simp at accepted

/-- Each segment belongs to a span, in the order of the spans, and holds the text that the span
covers. -/
theorem span_segmentsFrom? {text tail : List Char} {offset : Nat} {spans : List Span}
    {segments : List Segment} (h : segmentsFrom? text offset spans = some (segments, tail)) :
    segments.map (·.span) = spans ∧
      ∀ segment ∈ segments,
        slice? text segment.span.start segment.span.stop = some segment.body := by
  induction spans generalizing offset segments with
  | nil =>
      obtain ⟨rfl, -⟩ := segmentsFrom?_nil_eq_some_iff.1 h
      simp
  | cons span spans ih =>
      obtain ⟨gap, body, rest, -, hbody, hrest, rfl⟩ := segmentsFrom?_cons_eq_some_iff.1 h
      obtain ⟨hspans, hbodies⟩ := ih hrest
      exact ⟨by simp [hspans], List.forall_mem_cons.2 ⟨hbody, hbodies⟩⟩

/-- The segments as they stand and the tail are the text from the offset on. -/
theorem join_segmentsFrom? {text tail : List Char} {offset : Nat} {spans : List Span}
    {segments : List Segment} (h : segmentsFrom? text offset spans = some (segments, tail)) :
    ∃ before, cut? text offset = some (before, segments.flatMap Segment.kept ++ tail) := by
  induction spans generalizing offset segments with
  | nil =>
      obtain ⟨rfl, before, hcut⟩ := segmentsFrom?_nil_eq_some_iff.1 h
      exact ⟨before, hcut⟩
  | cons span spans ih =>
      obtain ⟨gap, body, rest, hgap, hbody, hrest, rfl⟩ := segmentsFrom?_cons_eq_some_iff.1 h
      obtain ⟨before, hcut⟩ := ih hrest
      obtain ⟨first, hfirst⟩ := cut?_of_slice? (slice?_append hgap hbody) hcut
      exact ⟨first, by simpa [Segment.kept] using hfirst⟩

/-- The invariant of the weaving. The cursor stays at `offset`, the end of the span that was replaced
last, while the spans are passed up to `bound`; the text `pending` between the two is still to be
copied. -/
theorem weaveFrom?_eq {text pending tail : List Char} {offset bound : Nat} {spans : List Span}
    {segments : List Segment} (replacements : OrdinalMap String)
    (hpending : slice? text offset bound = some pending)
    (hsegments : segmentsFrom? text bound spans = some (segments, tail)) :
    weaveFrom? text replacements offset spans =
      some (pending ++ segments.flatMap (Segment.woven replacements) ++ tail) := by
  induction spans generalizing offset bound pending segments with
  | nil =>
      obtain ⟨rfl, before, hcut⟩ := segmentsFrom?_nil_eq_some_iff.1 hsegments
      obtain ⟨first, hfirst⟩ := cut?_of_slice? hpending hcut
      simp [weaveFrom?, hfirst]
  | cons span spans ih =>
      obtain ⟨gap, body, rest, hgap, hbody, hrest, rfl⟩ :=
        segmentsFrom?_cons_eq_some_iff.1 hsegments
      cases hreplacement : replacements.get? span.ordinal with
      | none =>
          have hpassed := slice?_append (slice?_append hpending hgap) hbody
          have hsegment : Segment.woven replacements ⟨gap, span, body⟩ = gap ++ body :=
            Segment.woven_of_get?_eq_none hreplacement
          simp only [weaveFrom?, hreplacement, ih hpassed hrest, List.flatMap_cons, hsegment,
            List.append_assoc]
      | some replacement =>
          have hcopied := slice?_append hpending hgap
          have hnone := slice?_self (isBoundary_of_slice? hbody).2
          have hsegment :
              Segment.woven replacements ⟨gap, span, body⟩ = gap ++ replacement.toList :=
            Segment.woven_of_get?_eq_some hreplacement
          simp only [weaveFrom?, hreplacement, hcopied, ih hnone hrest, List.flatMap_cons, hsegment,
            Option.bind_eq_bind, Option.bind_some, Option.pure_def, List.nil_append,
            List.append_assoc]

theorem exists_segments?_of_checkSpans {unit : SourceUnit} {spans : List Span}
    (accepted : checkSpans unit spans = .ok ()) :
    ∃ segments tail, segments? unit.text spans = some (segments, tail) := by
  have hlength := ((checkSpans_eq_ok_iff unit spans).1 accepted).1
  have fromStart : checkSpansFrom unit.text 0 0 spans = .ok () := by
    simpa [checkSpans, hlength] using accepted
  exact exists_segmentsFrom? (isBoundary_zero unit.text.toList) fromStart

theorem weave?_of_segments? {text : String} {spans : List Span} {segments : List Segment}
    {tail : List Char} (h : segments? text spans = some (segments, tail))
    (replacements : OrdinalMap String) :
    weave? text spans replacements =
      some (String.ofList (segments.flatMap (Segment.woven replacements) ++ tail)) := by
  simp [weave?, weaveFrom?_eq replacements (slice?_self (isBoundary_zero text.toList)) h]

/-- The segments as they stand and the tail are the text. -/
theorem join_segments? {text : String} {spans : List Span} {segments : List Segment}
    {tail : List Char} (h : segments? text spans = some (segments, tail)) :
    String.ofList (segments.flatMap Segment.kept ++ tail) = text := by
  obtain ⟨before, hcut⟩ := join_segmentsFrom? h
  simp only [cut?, Option.some.injEq, Prod.mk.injEq] at hcut
  rw [← hcut.2, String.ofList_toList]

/-- Weaving that leaves every segment as it stands leaves the text as it is. -/
theorem weave?_eq_self {text : String} {spans : List Span} {segments : List Segment}
    {tail : List Char} (h : segments? text spans = some (segments, tail))
    {replacements : OrdinalMap String}
    (kept : ∀ segment ∈ segments, segment.woven replacements = segment.kept) :
    weave? text spans replacements = some text := by
  rw [weave?_of_segments? h, List.flatMap_congr kept, join_segments? h]

/-- Where the spans are numbered one after the other, no other segment has the ordinal of a segment. -/
theorem ordinal_ne_of_numbered {segments before after : List Segment} {segment : Segment}
    (distinct : (segments.map (·.span.ordinal)).Nodup)
    (hsplit : segments = before ++ segment :: after) {other : Segment}
    (member : other ∈ before ∨ other ∈ after) : other.span.ordinal ≠ segment.span.ordinal := by
  subst hsplit
  simp only [List.map_append, List.map_cons, List.nodup_append, List.nodup_cons, List.mem_map,
    List.mem_cons] at distinct
  obtain ⟨-, ⟨later, -⟩, earlier⟩ := distinct
  rcases member with member | member
  · exact earlier _ ⟨other, member, rfl⟩ _ (.inl rfl)
  · exact fun equal => later ⟨other, member, equal⟩

/-- Weaving comes to the segments one after the other: every gap as it was, every span with its
replacement or else as it was, and the tail. So a text without replacements stays as it is, and so
does one in which each replacement is what its span covers; and of two sets of replacements that
differ in one ordinal the results differ in the segment of that ordinal only. -/
theorem weave?_eq_woven_segments (unit : SourceUnit) (spans : List Span)
    (accepted : checkSpans unit spans = .ok ()) :
    ∃ segments tail, segments? unit.text spans = some (segments, tail) ∧
      segments.map (·.span) = spans ∧
      (∀ replacements : OrdinalMap String, weave? unit.text spans replacements =
        some (String.ofList (segments.flatMap (Segment.woven replacements) ++ tail))) ∧
      weave? unit.text spans ∅ = some unit.text ∧
      (∀ replacements : OrdinalMap String,
        (∀ span ∈ spans, ∀ replacement, replacements.get? span.ordinal = some replacement →
          span.slice? unit.text = some replacement) →
        weave? unit.text spans replacements = some unit.text) ∧
      ∀ (replacements other : OrdinalMap String) (before after : List Segment) (segment : Segment),
        segments = before ++ segment :: after →
        (∀ ordinal, ordinal ≠ segment.span.ordinal →
          other.get? ordinal = replacements.get? ordinal) →
        weave? unit.text spans other = some (String.ofList
          (before.flatMap (Segment.woven replacements) ++ segment.woven other ++
            after.flatMap (Segment.woven replacements) ++ tail)) := by
  obtain ⟨-, laid⟩ := (checkSpans_eq_ok_iff unit spans).1 accepted
  obtain ⟨segments, tail, hsegments⟩ := exists_segments?_of_checkSpans accepted
  obtain ⟨hspans, hbodies⟩ := span_segmentsFrom? hsegments
  have woven := weave?_of_segments? hsegments
  refine ⟨segments, tail, hsegments, hspans, woven, ?_, ?_, ?_⟩
  · exact weave?_eq_self hsegments fun segment _ => Segment.woven_of_get?_eq_none rfl
  · intro replacements own
    refine weave?_eq_self hsegments fun segment member => ?_
    cases hreplacement : replacements.get? segment.span.ordinal with
    | none => exact Segment.woven_of_get?_eq_none hreplacement
    | some replacement =>
        have hspan : segment.span ∈ spans := hspans ▸ List.mem_map_of_mem member
        have hslice := own segment.span hspan replacement hreplacement
        rw [Span.slice?, hbodies segment member] at hslice
        have hbody : segment.body = replacement.toList := by
          simpa using congrArg String.toList (Option.some.inj hslice)
        rw [Segment.woven_of_get?_eq_some hreplacement, Segment.kept, hbody]
  · intro replacements other before after segment hsplit agree
    have distinct : (segments.map (·.span.ordinal)).Nodup := by
      have hordinals : segments.map (·.span.ordinal) = spans.map (·.ordinal) := by
        rw [← hspans, List.map_map]
        rfl
      rw [hordinals, laid.numbered]
      exact List.nodup_range'
    have same {neighbour : Segment} (member : neighbour ∈ before ∨ neighbour ∈ after) :
        neighbour.woven other = neighbour.woven replacements :=
      Segment.woven_congr (agree _ (ordinal_ne_of_numbered distinct hsplit member))
    rw [woven, hsplit, List.flatMap_append, List.flatMap_cons,
      List.flatMap_congr fun _ member => same (.inl member),
      List.flatMap_congr fun _ member => same (.inr member), ← List.append_assoc]

/-- Two spans that touch, of which the second one is replaced, and an empty one at the end. -/
theorem weave?_eq_woven_touching_segments :
    let unit : SourceUnit := ⟨"touching.c", "α{}β{};", ["α", "β", "γ"], 1⟩
    let spans : List Span := [⟨1, 0, 4⟩, ⟨2, 4, 8⟩, ⟨3, 9, 9⟩]
    let replacements : OrdinalMap String := .ofList [(2, "β(){}"), (7, "δ")]
    checkSpans unit spans = .ok () ∧
      ∃ segments tail, segments? unit.text spans = some (segments, tail) ∧
        weave? unit.text spans replacements =
          some (String.ofList (segments.flatMap (Segment.woven replacements) ++ tail)) := by
  intro unit spans replacements
  have accepted : checkSpans unit spans = .ok () := by decide +kernel
  obtain ⟨segments, tail, hsegments, -, woven, -⟩ := weave?_eq_woven_segments unit spans accepted
  exact ⟨accepted, segments, tail, hsegments, woven replacements⟩

example : weave? "α{}β{};" [⟨1, 0, 4⟩, ⟨2, 4, 8⟩, ⟨3, 9, 9⟩] (.ofList [(2, "β(){}"), (7, "δ")]) =
    some "α{}β(){};" := by decide

end Graft.Variant
