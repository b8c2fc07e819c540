import Graft.Proofs.OrdinalMap
import Graft.Proofs.Variant.Segments

/-!
What merging comes to. The spans are judged first, then the selection, and then the candidates are
read in the order of their ordinals; whatever is wrong first gives the error (`Variant.ComesTo`).
`Variant.merge_eq_iff_comesTo` says that merging comes to this and to nothing else, and that there is a
variant exactly when the spans are accepted, the selection has no gap and every candidate that it
names can be read.
-/

namespace Graft

namespace Variant

open Code

variable {σ : Type} {store : CandidateStore σ} {content : σ} {unit : SourceUnit} {spans : List Span}
  {selection : Selection}

def Reads (store : CandidateStore σ) (content : σ) (unit : UnitId) (ordinal attempt : Nat) : Prop :=
  ∃ text, store.get unit ordinal attempt content = .ok text

/-- That a map holds the candidates of a selection and nothing else. -/
structure Holds (store : CandidateStore σ) (content : σ) (unit : UnitId) (selection : Selection)
    (candidates : OrdinalMap String) : Prop where
  read : ∀ {ordinal attempt}, selection.get? ordinal = some attempt →
    ∃ text, store.get unit ordinal attempt content = .ok text ∧ candidates.get? ordinal = some text
  only : ∀ {ordinal}, selection.get? ordinal = none → candidates.get? ordinal = none

/-- What merging comes to: whatever is wrong first gives the error, and if nothing is, the text is
woven of the candidates. -/
inductive ComesTo (store : CandidateStore σ) (content : σ) (unit : SourceUnit) (spans : List Span)
    (selection : Selection) : Except MergeError Variant → Prop
  | misplaced {reason : String} (unfit : checkSpans unit spans = .error (.spanMismatch reason)) :
      ComesTo store content unit spans selection (.error (.spanMismatch reason))
  | beyond {highest : Nat} (fits : checkSpans unit spans = .ok ())
      (member : highest ∈ selection.keys) (all : ∀ ordinal ∈ selection.keys, ordinal ≤ highest)
      (above : unit.count < highest) :
      ComesTo store content unit spans selection (.error (.ordinalOutOfRange highest unit.count))
  | gap {highest : Nat} {missing : List Nat} (fits : checkSpans unit spans = .ok ())
      (member : highest ∈ selection.keys) (all : ∀ ordinal ∈ selection.keys, ordinal ≤ highest)
      (within : highest ≤ unit.count) (some : missing ≠ [])
      (ascending : missing.Pairwise (· < ·))
      (each : ∀ ordinal,
        ordinal ∈ missing ↔ 1 ≤ ordinal ∧ ordinal < highest ∧ ordinal ∉ selection.keys) :
      ComesTo store content unit spans selection (.error (.incompleteSelection highest missing))
  | zero {last : Nat} (fits : checkSpans unit spans = .ok ())
      (selected : selection.keys = List.range' 0 (last + 1)) (within : last ≤ unit.count) :
      ComesTo store content unit spans selection (.error (.ordinalOutOfRange 0 unit.count))
  | unread {last ordinal attempt : Nat} {error : StoreError} (fits : checkSpans unit spans = .ok ())
      (selected : selection.keys = List.range' 1 last) (within : last ≤ unit.count)
      (chosen : selection.get? ordinal = some attempt)
      (failed : store.get unit.id ordinal attempt content = .error error)
      (before : ∀ {earlier other}, earlier < ordinal → selection.get? earlier = some other →
        Reads store content unit.id earlier other) :
      ComesTo store content unit spans selection (.error (.store error))
  | woven {last : Nat} {candidates : OrdinalMap String} {text : String}
      (fits : checkSpans unit spans = .ok ())
      (selected : selection.keys = List.range' 1 last) (within : last ≤ unit.count)
      (holds : Holds store content unit.id selection candidates)
      (made : weave? unit.text spans candidates = some text) :
      ComesTo store content unit spans selection (.ok ⟨unit.id, last, selection, text⟩)

/-! Reading the candidates -/

theorem fetch_cons (store : CandidateStore σ) (content : σ) (id : UnitId) (ordinal attempt : Nat)
    (rest : List (Nat × Nat)) :
    fetch store content id ((ordinal, attempt) :: rest) =
      match store.get id ordinal attempt content with
      | .error error => .error error
      | .ok text => (fetch store content id rest).map ((ordinal, text) :: ·) := by
  rw [fetch]
  cases store.get id ordinal attempt content with
  | error error => rfl
  | ok text => cases fetch store content id rest <;> rfl

/-- The first candidate that cannot be read gives the error. -/
theorem fetch_eq_error_iff {id : UnitId} {entries : List (Nat × Nat)} {error : StoreError}
    (ascending : entries.Pairwise fun a b => a.1 < b.1) :
    fetch store content id entries = .error error ↔
      ∃ ordinal attempt, (ordinal, attempt) ∈ entries ∧
        store.get id ordinal attempt content = .error error ∧
        ∀ earlier other, earlier < ordinal → (earlier, other) ∈ entries →
          Reads store content id earlier other := by
  induction entries with
  | nil => simp [fetch]
  | cons entry rest ih =>
      obtain ⟨first, attempt⟩ := entry
      obtain ⟨behind, later⟩ := List.pairwise_cons.1 ascending
      rw [fetch_cons]
      cases read : store.get id first attempt content with
      | error found =>
          simp only [Except.error.injEq]
          constructor
          · rintro rfl
            refine ⟨first, attempt, List.mem_cons_self, read, ?_⟩
            intro earlier other before member
            obtain same | member := List.mem_cons.1 member
            · obtain ⟨rfl, -⟩ := Prod.mk.inj same
              exact absurd before (Nat.lt_irrefl _)
            · exact absurd before (Nat.lt_asymm (behind _ member))
          · rintro ⟨ordinal, chosen, member, failed, before⟩
            obtain same | member := List.mem_cons.1 member
            · obtain ⟨rfl, rfl⟩ := Prod.mk.inj same
              exact Except.error.inj (read.symm.trans failed)
            · obtain ⟨text, found⟩ := before first attempt (behind _ member) List.mem_cons_self
              rw [read] at found
              cases found
      | ok text =>
          have onward : (fetch store content id rest).map ((first, text) :: ·) = .error error ↔
              fetch store content id rest = .error error := by
            cases fetch store content id rest <;> simp [Except.map]
          simp only [onward, ih later]
          constructor
          · rintro ⟨ordinal, chosen, member, failed, before⟩
            refine ⟨ordinal, chosen, List.mem_cons_of_mem _ member, failed, ?_⟩
            intro earlier other lower member
            obtain same | member := List.mem_cons.1 member
            · obtain ⟨rfl, rfl⟩ := Prod.mk.inj same
              exact ⟨text, read⟩
            · exact before earlier other lower member
          · rintro ⟨ordinal, chosen, member, failed, before⟩
            obtain same | member := List.mem_cons.1 member
            · obtain ⟨rfl, rfl⟩ := Prod.mk.inj same
              rw [read] at failed
              cases failed
            · exact ⟨ordinal, chosen, member, failed, fun earlier other lower mem =>
                before earlier other lower (List.mem_cons_of_mem _ mem)⟩

/-- The candidates that are read are those of the entries. -/
theorem lookup_of_fetch {id : UnitId} {entries : List (Nat × Nat)}
    {candidates : List (Nat × String)} (fetched : fetch store content id entries = .ok candidates) :
    candidates.map Prod.fst = entries.map Prod.fst ∧
      ∀ ordinal, candidates.lookup ordinal = (entries.lookup ordinal).bind fun attempt =>
        (store.get id ordinal attempt content).toOption := by
  induction entries generalizing candidates with
  | nil =>
      obtain rfl := Except.ok.inj fetched
      exact ⟨rfl, fun _ => rfl⟩
  | cons entry rest ih =>
      obtain ⟨first, attempt⟩ := entry
      rw [fetch_cons] at fetched
      cases read : store.get id first attempt content with
      | error error =>
          rw [read] at fetched
          cases fetched
      | ok text =>
          rw [read] at fetched
          cases later : fetch store content id rest with
          | error error =>
              rw [later] at fetched
              cases fetched
          | ok others =>
              rw [later] at fetched
              obtain rfl := Except.ok.inj fetched
              obtain ⟨keys, lookups⟩ := ih later
              refine ⟨congrArg (first :: ·) keys, fun ordinal => ?_⟩
              rw [OrdinalMap.lookup_cons_if, OrdinalMap.lookup_cons_if, lookups]
              split
              · next same =>
                  subst same
                  simp [read, Except.toOption]
              · rfl

/-- What is read is the set of candidates of the selection. -/
theorem exists_holds_of_fetch {id : UnitId} {found : List (Nat × String)}
    (fetched : fetch store content id selection.entries = .ok found) :
    ∃ candidates : OrdinalMap String, candidates.entries = found ∧
      Holds store content id selection candidates := by
  obtain ⟨keys, lookups⟩ := lookup_of_fetch fetched
  have ascending : found.Pairwise fun a b => a.1 < b.1 := by
    have sorted := OrdinalMap.pairwise_keys selection
    rw [OrdinalMap.keys, ← keys] at sorted
    exact List.pairwise_map.1 sorted
  refine ⟨⟨found, ascending⟩, rfl, ?_, ?_⟩
  · intro ordinal attempt chosen
    have member : ordinal ∈ OrdinalMap.keys ⟨found, ascending⟩ := by
      rw [show OrdinalMap.keys ⟨found, ascending⟩ = selection.keys from keys]
      exact OrdinalMap.mem_keys_iff.2 ⟨attempt, chosen⟩
    obtain ⟨text, held⟩ := OrdinalMap.mem_keys_iff.1 member
    have looked : (store.get id ordinal attempt content).toOption = some text := by
      rw [← held, show OrdinalMap.get? ⟨found, ascending⟩ ordinal = _ from lookups ordinal,
        show selection.entries.lookup ordinal = some attempt from chosen, Option.bind_some]
    refine ⟨text, ?_, held⟩
    cases read : store.get id ordinal attempt content with
    | ok other =>
        rw [read] at looked
        rw [Option.some.inj looked]
    | error error =>
        rw [read] at looked
        cases looked
  · intro ordinal chosen
    rw [show OrdinalMap.get? ⟨found, ascending⟩ ordinal = _ from lookups ordinal,
      show selection.entries.lookup ordinal = none from chosen, Option.bind_none]

/-- A selection has one set of candidates. -/
theorem Holds.unique {id : UnitId} {candidates others : OrdinalMap String}
    (first : Holds store content id selection candidates)
    (second : Holds store content id selection others) : candidates = others := by
  apply OrdinalMap.ext_get?
  intro ordinal
  cases chosen : selection.get? ordinal with
  | none => rw [first.only chosen, second.only chosen]
  | some attempt =>
      obtain ⟨text, read, held⟩ := first.read chosen
      obtain ⟨other, again, kept⟩ := second.read chosen
      rw [read] at again
      rw [held, kept, Except.ok.inj again]

/-- All candidates of a selection are read exactly when each of them can be. -/
theorem fetch_eq_ok_iff {id : UnitId} {candidates : OrdinalMap String} :
    fetch store content id selection.entries = .ok candidates.entries ↔
      Holds store content id selection candidates := by
  constructor
  · intro fetched
    obtain ⟨others, same, holds⟩ := exists_holds_of_fetch fetched
    rwa [← OrdinalMap.ofList_entries candidates, ← same, OrdinalMap.ofList_entries]
  · intro holds
    cases fetched : fetch store content id selection.entries with
    | error error =>
        obtain ⟨ordinal, attempt, member, failed, -⟩ :=
          (fetch_eq_error_iff selection.ascending).1 fetched
        obtain ⟨text, read, -⟩ := holds.read (OrdinalMap.mem_entries_iff.1 member)
        rw [failed] at read
        cases read
    | ok found =>
        obtain ⟨others, rfl, held⟩ := exists_holds_of_fetch fetched
        rw [held.unique holds]

/-! What merging comes to -/

theorem merge_eq (store : CandidateStore σ) (content : σ) (unit : SourceUnit) (spans : List Span)
    (selection : Selection) :
    merge store content unit spans selection =
      match checkSpans unit spans, checkSelection unit selection,
        fetch store content unit.id selection.entries with
      | .error error, _, _ => .error error
      | .ok (), .error error, _ => .error error
      | .ok (), .ok (), .error error => .error (.store error)
      | .ok (), .ok (), .ok candidates => .ok (assemble unit spans selection candidates) := by
  unfold merge check
  cases checkSpans unit spans with
  | error error => rfl
  | ok =>
      cases checkSelection unit selection with
      | error error => rfl
      | ok => cases fetch store content unit.id selection.entries <;> rfl

/-! What the selection alone decides: one lemma for each answer of its check -/

theorem checkSelection_of_beyond {highest : Nat} (member : highest ∈ selection.keys)
    (all : ∀ ordinal ∈ selection.keys, ordinal ≤ highest) (above : unit.count < highest) :
    checkSelection unit selection = .error (.ordinalOutOfRange highest unit.count) := by
  have window := Selection.window_eq_of_highest member all
  simp [checkSelection, window, above]

theorem checkSelection_of_gap {highest : Nat} {missing : List Nat}
    (member : highest ∈ selection.keys) (all : ∀ ordinal ∈ selection.keys, ordinal ≤ highest)
    (within : highest ≤ unit.count) (some : missing ≠ []) (ascending : missing.Pairwise (· < ·))
    (each : ∀ ordinal,
      ordinal ∈ missing ↔ 1 ≤ ordinal ∧ ordinal < highest ∧ ordinal ∉ selection.keys) :
    checkSelection unit selection = .error (.incompleteSelection highest missing) := by
  have window := Selection.window_eq_of_highest member all
  have same : Selection.missing selection = missing := by
    apply (Selection.pairwise_missing selection).eq_of_mem_iff ascending
    intro ordinal
    rw [Selection.mem_missing_iff, each, window]
    -- the highest ordinal is selected, so it does not matter whether the search stops before it
    constructor
    · rintro ⟨positive, low, absent⟩
      refine ⟨positive, Nat.lt_of_le_of_ne low ?_, absent⟩
      rintro rfl
      exact absent member
    · rintro ⟨positive, low, absent⟩
      exact ⟨positive, Nat.le_of_lt low, absent⟩
  simp [checkSelection, window, same, some, Nat.not_lt.2 within]

theorem checkSelection_of_zero {last : Nat} (selected : selection.keys = List.range' 0 (last + 1))
    (within : last ≤ unit.count) :
    checkSelection unit selection = .error (.ordinalOutOfRange 0 unit.count) := by
  have mem {ordinal : Nat} : ordinal ∈ selection.keys ↔ ordinal ≤ last := by
    rw [selected, List.mem_range'_1]
    omega
  have window : Selection.window selection = last :=
    Selection.window_eq_of_highest (mem.2 (Nat.le_refl last)) fun _ => mem.1
  have missing : Selection.missing selection = [] :=
    Selection.missing_eq_nil (Nat.le_of_eq window) fun _ _ => mem.2
  have zero : OrdinalMap.contains selection 0 = true :=
    OrdinalMap.contains_iff_mem_keys.2 (mem.2 (Nat.zero_le last))
  simp [checkSelection, window, missing, zero, Nat.not_lt.2 within]

theorem checkSelection_of_selected {last : Nat} (selected : selection.keys = List.range' 1 last)
    (within : last ≤ unit.count) : checkSelection unit selection = .ok () := by
  have window : Selection.window selection = last := Selection.window_eq selected
  have missing : Selection.missing selection = [] := by
    apply Selection.missing_eq_nil (Nat.le_of_eq window)
    intro ordinal positive low
    rw [selected, List.mem_range'_1]
    omega
  have zero : OrdinalMap.contains selection 0 = false := by
    rw [Bool.eq_false_iff, Ne, OrdinalMap.contains_iff_mem_keys, selected, List.mem_range'_1]
    omega
  simp [checkSelection, window, missing, zero, Nat.not_lt.2 within]

theorem eq_of_comesTo {result : Except MergeError Variant}
    (h : ComesTo store content unit spans selection result) :
    merge store content unit spans selection = result := by
  rw [merge_eq]
  cases h with
  | misplaced unfit => rw [unfit]
  | beyond fits member all above => rw [fits, checkSelection_of_beyond member all above]
  | gap fits member all within some ascending each =>
      rw [fits, checkSelection_of_gap member all within some ascending each]
  | zero fits selected within => rw [fits, checkSelection_of_zero selected within]
  | unread fits selected within chosen failed before =>
      have fetched := (fetch_eq_error_iff selection.ascending).2
        ⟨_, _, OrdinalMap.mem_entries_iff.2 chosen, failed,
          fun earlier other lower member => before lower (OrdinalMap.mem_entries_iff.1 member)⟩
      rw [fits, checkSelection_of_selected selected within, fetched]
  | @woven last candidates text fits selected within holds made =>
      have fetched := fetch_eq_ok_iff.2 holds
      have window : Selection.window selection = last := Selection.window_eq selected
      rw [fits, checkSelection_of_selected selected within, fetched]
      simp only [assemble, OrdinalMap.ofList_entries, made, window, Option.getD_some]

theorem exists_reason_of_checkSpansFrom {text : String} {ordinal bound : Nat} {error : MergeError}
    (refused : checkSpansFrom text ordinal bound spans = .error error) :
    ∃ reason, error = .spanMismatch reason := by
  induction spans generalizing ordinal bound with
  | nil => cases refused
  | cons span rest ih =>
      unfold checkSpansFrom at refused
      split at refused
      · exact ⟨_, (Except.error.inj refused).symm⟩
      split at refused
      · exact ih refused
      · exact ⟨_, (Except.error.inj refused).symm⟩

theorem exists_reason_of_checkSpans {error : MergeError}
    (refused : checkSpans unit spans = .error error) : ∃ reason, error = .spanMismatch reason := by
  unfold checkSpans at refused
  split at refused
  · exact ⟨_, (Except.error.inj refused).symm⟩
  · exact exists_reason_of_checkSpansFrom refused

/-- With spans and a selection that are accepted, candidates that are read make a variant. -/
theorem exists_variant_of_fetch {last : Nat} {found : List (Nat × String)}
    (fits : checkSpans unit spans = .ok ()) (selected : selection.keys = List.range' 1 last)
    (within : last ≤ unit.count) (fetched : fetch store content unit.id selection.entries = .ok found) :
    ∃ variant, ComesTo store content unit spans selection (.ok variant) := by
  obtain ⟨candidates, -, holds⟩ := exists_holds_of_fetch fetched
  obtain ⟨segments, tail, cut⟩ := exists_segments?_of_checkSpans fits
  exact ⟨_, .woven fits selected within holds (weave?_of_segments? cut _)⟩

theorem exists_comesTo_of_selected {last : Nat} (store : CandidateStore σ) (content : σ)
    (fits : checkSpans unit spans = .ok ()) (selected : selection.keys = List.range' 1 last)
    (within : last ≤ unit.count) : ∃ result, ComesTo store content unit spans selection result := by
  cases fetched : fetch store content unit.id selection.entries with
  | error error =>
      obtain ⟨ordinal, attempt, member, failed, before⟩ :=
        (fetch_eq_error_iff selection.ascending).1 fetched
      exact ⟨_, .unread fits selected within (OrdinalMap.mem_entries_iff.1 member) failed
        fun lower chosen => before _ _ lower (OrdinalMap.mem_entries_iff.2 chosen)⟩
  | ok found =>
      obtain ⟨variant, comes⟩ := exists_variant_of_fetch fits selected within fetched
      exact ⟨_, comes⟩

theorem exists_comesTo (store : CandidateStore σ) (content : σ) (unit : SourceUnit) (spans : List Span)
    (selection : Selection) : ∃ result, ComesTo store content unit spans selection result := by
  cases fits : checkSpans unit spans with
  | error error =>
      obtain ⟨reason, rfl⟩ := exists_reason_of_checkSpans fits
      exact ⟨_, .misplaced fits⟩
  | ok =>
      have all : ∀ ordinal ∈ selection.keys, ordinal ≤ Selection.window selection :=
        fun _ => Selection.le_window
      by_cases above : unit.count < Selection.window selection
      · have member := Selection.window_mem (Nat.ne_zero_of_lt above)
        exact ⟨_, .beyond fits member all above⟩
      · have within := Nat.not_lt.1 above
        cases missing : Selection.missing selection with
        | cons first rest =>
            have lacking : first ∈ Selection.missing selection := by
              rw [missing]
              exact List.mem_cons_self
            obtain ⟨positive, low, -⟩ := Selection.mem_missing_iff.1 lacking
            have member : Selection.window selection ∈ selection.keys :=
              Selection.window_mem (by omega)
            refine ⟨_, .gap fits member all within (by rw [missing]; exact List.cons_ne_nil _ _)
              (Selection.pairwise_missing selection) fun ordinal => ?_⟩
            rw [Selection.mem_missing_iff]
            constructor
            · rintro ⟨positive, low, absent⟩
              exact ⟨positive, Nat.lt_of_le_of_ne low fun same => absent (same ▸ member), absent⟩
            · rintro ⟨positive, low, absent⟩
              exact ⟨positive, Nat.le_of_lt low, absent⟩
        | nil =>
            have selected := Selection.keys_of_missing_eq_nil missing
            split at selected
            · exact ⟨_, .zero fits selected within⟩
            · exact exists_comesTo_of_selected store content fits selected within

/-- What a variant takes. -/
theorem ComesTo.accepted {result : Except MergeError Variant} {variant : Variant}
    (h : ComesTo store content unit spans selection result) (made : result = .ok variant) :
    checkSpans unit spans = .ok () ∧ (∃ last ≤ unit.count, selection.keys = List.range' 1 last) ∧
      ∀ ordinal attempt, selection.get? ordinal = some attempt →
        Reads store content unit.id ordinal attempt := by
  cases h with
  | misplaced | beyond | gap | zero | unread => cases made
  | woven fits selected within holds _ =>
      refine ⟨fits, ⟨_, within, selected⟩, fun ordinal attempt chosen => ?_⟩
      obtain ⟨text, read, -⟩ := holds.read chosen
      exact ⟨text, read⟩

/-- Merging makes a variant exactly when the spans are accepted, the selection names an attempt for
each ordinal from one up to some ordinal of the unit and for no other, and the store has all of
them. What it comes to otherwise is the error of the spans, of an ordinal above the unit's, of the
gaps, of the ordinal zero, or of the first candidate that cannot be read, in this order. -/
theorem merge_eq_iff_comesTo (store : CandidateStore σ) (content : σ) (unit : SourceUnit) (spans : List Span)
    (selection : Selection) :
    ((∃ variant, merge store content unit spans selection = .ok variant) ↔
      checkSpans unit spans = .ok () ∧
      (∃ last ≤ unit.count, selection.keys = List.range' 1 last) ∧
      ∀ ordinal attempt, selection.get? ordinal = some attempt →
        Reads store content unit.id ordinal attempt) ∧
    ∀ result, merge store content unit spans selection = result ↔
      ComesTo store content unit spans selection result := by
  obtain ⟨outcome, comes⟩ := exists_comesTo store content unit spans selection
  have merged := eq_of_comesTo comes
  refine ⟨⟨?_, ?_⟩, fun result => ⟨?_, eq_of_comesTo⟩⟩
  · rintro ⟨variant, made⟩
    exact comes.accepted (merged.symm.trans made)
  · rintro ⟨fits, ⟨last, within, selected⟩, readable⟩
    cases fetched : fetch store content unit.id selection.entries with
    | error error =>
        obtain ⟨ordinal, attempt, member, failed, -⟩ :=
          (fetch_eq_error_iff selection.ascending).1 fetched
        obtain ⟨text, read⟩ := readable ordinal attempt (OrdinalMap.mem_entries_iff.1 member)
        rw [failed] at read
        cases read
    | ok found =>
        obtain ⟨variant, makes⟩ := exists_variant_of_fetch fits selected within fetched
        exact ⟨variant, eq_of_comesTo makes⟩
  · rintro rfl
    rwa [merged]

/-- A gap is reported before the ordinal zero. -/
example : checkSelection ⟨"f.c", "", ["f", "g"], 1⟩ (.ofList [(0, 1), (2, 1)]) =
    .error (.incompleteSelection 2 [1]) := by decide

end Variant

end Graft
