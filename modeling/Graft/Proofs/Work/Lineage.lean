import Graft.Proofs.Code.Located
import Graft.Proofs.Work.Restored

/-!
Where the variants of windows come from. `Made` says that a variant can be merged again from a store, by
the attempts that it names. `Lineage` is the invariant of growing: the variant of each window was made
by the attempts that are selected up to its function, and these stay selected while further windows
grow. `windows_reproducible` says so of every run that comes to an outcome, for the store as it is
then and later.
-/

namespace Graft

open Code Generation Work

def BornOut (log : CandidateLog) (happenings : List Happening) : Prop :=
  ∀ unit ordinal attempt text, ⟨.get unit ordinal attempt, .ok text⟩ ∈ happenings →
    CandidateLog.store.get unit ordinal attempt log = .ok text

theorem BornOut.of_subset {log : CandidateLog} {happenings rest : List Happening}
    (bornOut : BornOut log happenings) (part : rest ⊆ happenings) : BornOut log rest := by
  intro unit ordinal attempt text member
  exact bornOut unit ordinal attempt text (part member)

/-- Later archives bear out what was read. -/
theorem Archive.bornOut_of_steps {archive after later : Archive} {happenings : List Happening}
    (steps : Steps Step archive happenings after) (within : after.Within later) :
    BornOut later.log happenings := by
  intro unit ordinal attempt text member
  have now := get_of_mem steps member
  exact CandidateLog.get_of_prefix (within unit ordinal) now

def Made (log : CandidateLog) (unit : SourceUnit) (spans : List Span) (variant : Variant) : Prop :=
  Variant.merge CandidateLog.store log unit spans variant.provenance = .ok variant

theorem fetch_of_within {archive after : Archive} {id : UnitId} {entries : List (Nat × Nat)}
    {candidates : List (Nat × String)} (within : archive.Within after)
    (fetched : Variant.fetch CandidateLog.store archive.log id entries = .ok candidates) :
    Variant.fetch CandidateLog.store after.log id entries = .ok candidates := by
  induction entries generalizing candidates with
  | nil => exact fetched
  | cons entry others ih =>
      obtain ⟨ordinal, attempt⟩ := entry
      unfold Variant.fetch at fetched ⊢
      cases read : CandidateLog.store.get id ordinal attempt archive.log with
      | error error =>
          rw [read] at fetched
          cases fetched
      | ok text =>
          have still := CandidateLog.get_of_prefix (within id ordinal) read
          cases rest : Variant.fetch CandidateLog.store archive.log id others with
          | error error =>
              rw [read, rest] at fetched
              cases fetched
          | ok found =>
              rw [read, rest] at fetched
              rw [still, ih rest]
              exact fetched

namespace Made

variable {unit : SourceUnit} {spans : List Span} {variant other : Variant}

/-- What a store makes it makes from then on. -/
theorem of_within {archive after : Archive} (made : Made archive.log unit spans variant)
    (within : archive.Within after) : Made after.log unit spans variant := by
  unfold Made Variant.merge at made ⊢
  cases checked : Variant.check unit spans variant.provenance with
  | error error =>
      rw [checked] at made
      cases made
  | ok =>
      cases fetched : Variant.fetch CandidateLog.store archive.log unit.id
          variant.provenance.entries with
      | error error =>
          rw [checked, fetched] at made
          cases made
      | ok candidates =>
          rw [checked, fetched] at made
          rw [fetch_of_within within fetched]
          exact made

/-- A store makes one variant of the attempts that are named. -/
theorem eq_of_provenance {log : CandidateLog} (first : Made log unit spans variant)
    (second : Made log unit spans other) (same : variant.provenance = other.provenance) :
    variant = other := by
  unfold Made at first second
  rw [same, second] at first
  exact (Except.ok.inj first).symm

end Made

namespace Variant

theorem weave?_empty (text : String) (spans : List Span) : weave? text spans ∅ = some text := by
  have stays : weaveFrom? text.toList ∅ 0 spans = some text.toList := by
    induction spans with
    | nil => simp [weaveFrom?, Text.cut?]
    | cons span rest ih => exact ih
  simp [weave?, stays]

/-- The unit's own text is made of no candidates. -/
theorem made_unchanged {unit : SourceUnit} {spans : List Span} (log : CandidateLog)
    (located : locate unit.text unit.functions = .ok spans) :
    Made log unit spans (unchanged unit) := by
  have checked : check unit spans ∅ = .ok () := by
    unfold check
    rw [checkSpans_of_locate located]
    rfl
  have empty : (∅ : OrdinalMap String) = .ofList [] := rfl
  have own : assemble unit spans ∅ [] = unchanged unit := by
    simp only [assemble, ← empty, weave?_empty]
    rfl
  show merge CandidateLog.store log unit spans ∅ = .ok (unchanged unit)
  unfold merge
  rw [checked, ← own]
  rfl

end Variant

/-- How the variant of a window goes back to a selection: it can be made again, from one attempt for each
function of the window, and these are the ones that are selected. -/
structure WindowOutcome.GoesBack (log : CandidateLog) (unit : SourceUnit) (spans : List Span)
    (selection : Selection) (outcome : WindowOutcome) : Prop where
  made : Made log unit spans outcome.variant
  named : OrdinalMap.keys outcome.variant.provenance = List.range' 1 outcome.window
  selected : ∀ ordinal ≤ outcome.window,
    outcome.variant.provenance.get? ordinal = selection.get? ordinal

/-- The invariant of growing: there are windows up to the last one only, and they go back to what is
selected. -/
def Lineage (log : CandidateLog) (unit : SourceUnit) (spans : List Span) (last : Nat)
    (progress : Progress) : Prop :=
  ∀ outcome ∈ progress.windows, outcome.window ≤ last ∧
    outcome.GoesBack log unit spans progress.selection

theorem Lineage.of_le {log : CandidateLog} {unit : SourceUnit} {spans : List Span} {last final : Nat}
    {progress : Progress} (lineage : Lineage log unit spans last progress) (hle : last ≤ final) :
    Lineage log unit spans final progress := by
  intro outcome member
  obtain ⟨hlast, back⟩ := lineage outcome member
  exact ⟨by omega, back⟩

namespace Work

variable {policy : Policy} {settings : WorkSettings} {unit : SourceUnit} {spans : List Span}
  {happenings : List Happening} {previous : Option Checkpoint} {log : CandidateLog}

theorem fetch_of_fetches {id : UnitId} {entries : List (Nat × Nat)}
    {candidates : List (Nat × String)} (fetches : Fetches id entries happenings (.ok candidates))
    (bornOut : BornOut log happenings) :
    Variant.fetch CandidateLog.store log id entries = .ok candidates := by
  generalize hresult : Except.ok candidates = result at fetches
  induction fetches generalizing candidates with
  | nil =>
      cases hresult
      rfl
  | missing => cases hresult
  | @cons ordinal attempt others text rest found later ih =>
      cases found with
      | error => cases hresult
      | ok found =>
          obtain rfl := Except.ok.inj hresult
          have read := bornOut id ordinal attempt text List.mem_cons_self
          have fetched := ih (bornOut.of_subset (List.subset_cons_self _ _)) rfl
          unfold Variant.fetch
          rw [read, fetched]
          rfl

/-- Merging makes a variant of the selection that can be made again. -/
theorem made_of_merges {selection : Selection} {variant : Variant}
    (merges : Merges unit spans selection happenings (.ok variant))
    (bornOut : BornOut log happenings) :
    variant.provenance = selection ∧ Made log unit spans variant := by
  generalize hresult : Except.ok variant = result at merges
  cases merges with
  | unfit => cases hresult
  | @fetched _ found check fetches =>
      cases found with
      | error => cases hresult
      | ok candidates =>
          obtain rfl := Except.ok.inj hresult
          refine ⟨rfl, ?_⟩
          show Variant.merge CandidateLog.store log unit spans selection = _
          unfold Variant.merge
          rw [check, fetch_of_fetches fetches bornOut]
          rfl

theorem made_of_mendCalls {remaining : Nat} {mending : Mending} {result : Except Failure Mending}
    (calls : MendCalls policy unit spans remaining mending happenings result)
    (bornOut : BornOut log happenings) (made : Made log unit spans mending.variant) :
    ∀ mended, result = .ok mended → Made log unit spans mended.variant := by
  induction calls with
  | spent =>
      rintro _ ⟨⟩
      exact made
  | priorMissing => simp
  | rejected =>
      rintro _ ⟨⟩
      exact made
  | unanswered mending prior taken herror later ih =>
      have part := bornOut.of_subset (List.subset_append_right _ _)
      exact ih (part.of_subset (List.subset_cons_self _ _)) made
  | notStored => simp
  | notMerged => simp
  | @accepted _ mending _ _ _ attempt merging variant verdict taken merges isAccepted =>
      have read : BornOut log merging := bornOut.of_subset fun _ member => by simp [member]
      rintro _ ⟨⟩
      exact (made_of_merges merges read).2
  | @stillFailing _ mending _ _ _ attempt merging rest variant verdict _ taken merges notAccepted
      later ih =>
      have read : BornOut log merging := bornOut.of_subset fun _ member => by simp [member]
      have part : BornOut log rest := bornOut.of_subset fun _ member => by simp [member]
      exact ih part (made_of_merges merges read).2

theorem made_of_mends {mending mended : Mending}
    (mends : Mends policy unit spans mending happenings (.ok mended))
    (bornOut : BornOut log happenings) (made : Made log unit spans mending.variant) :
    Made log unit spans mended.variant := by
  cases mends with
  | unwanted =>
      exact made
  | wanted fix calls => exact made_of_mendCalls calls bornOut made mended rfl

/-- A window adds itself to the windows, with a variant that is made of what is selected behind it; what
is selected for other functions stays. -/
theorem made_of_windowSettles {last attempt : Nat} {progress after : Progress}
    (settles : WindowSettles settings unit spans (last + 1) attempt progress happenings (.ok after))
    (selected : OrdinalMap.keys progress.selection = List.range' 1 last)
    (numbered : NumberedUpTo (last + 1) progress.repairs) (bornOut : BornOut log happenings) :
    OrdinalMap.SameBut (last + 1) progress.selection after.selection ∧
      ∃ outcome : WindowOutcome, after.windows = progress.windows ++ [outcome] ∧
        outcome.window = last + 1 ∧ outcome.variant.provenance = after.selection ∧
        Made log unit spans outcome.variant := by
  have hselected := keys_insert_succ selected attempt
  have same := (OrdinalMap.SameBut.refl (last + 1) progress.selection).insert attempt
  cases settled_of_windowSettles settles with
  | @accepted merging _ _ _ _ merges isAccepted repair =>
      have read : BornOut log merging := bornOut.of_subset fun _ member => by simp [member]
      obtain ⟨provenance, made⟩ := made_of_merges merges read
      exact ⟨same, _, rfl, rfl, provenance, made⟩
  | @rejected merging mending _ _ mended merges notAccepted mends =>
      have read : BornOut log merging := bornOut.of_subset fun _ member => by simp [member]
      have part : BornOut log mending := bornOut.of_subset fun _ member => by simp [member]
      obtain ⟨provenance, made⟩ := made_of_merges merges read
      have ends := ends_of_mends mends
        ⟨Nat.succ_pos last, ordinal_repairFor numbered, hselected⟩ ⟨provenance, notAccepted⟩
      exact ⟨same.trans ends.selected, _, rfl, rfl, ends.provenance,
        made_of_mends mends part made⟩

/-- A window preserves the invariant. -/
theorem lineage_of_window {last : Nat} {progress after : Progress}
    (window : Window settings unit spans previous (last + 1) progress happenings (.ok after))
    (hprevious : Numbered previous) (reached : Reached last progress)
    (bornOut : BornOut log happenings) (lineage : Lineage log unit spans last progress) :
    Lineage log unit spans (last + 1) after := by
  cases window with
  | noAttempt =>
      exact lineage.of_le (Nat.le_succ last)
  | settled attempts settles =>
      have numbered := numbered_of_firstAttempt attempts hprevious reached.numbered
      have further := ((concerns_of_windowSettles settles reached.selected numbered).2 after rfl).1
      obtain ⟨same, added, hwindows, own, provenance, made⟩ := made_of_windowSettles settles
        reached.selected numbered (bornOut.of_subset (List.subset_append_right _ _))
      intro outcome member
      rw [hwindows] at member
      rcases List.mem_append.1 member with earlier | hadded
      · obtain ⟨hlast, back⟩ := lineage outcome earlier
        refine ⟨by omega, back.made, back.named, fun ordinal hle => ?_⟩
        rw [back.selected ordinal hle, same ordinal (by omega)]
      · obtain rfl := List.mem_singleton.1 hadded
        refine ⟨Nat.le_of_eq own, made, ?_, fun ordinal _ => by rw [provenance]⟩
        rw [provenance, own, further.selected]

/-- In every run that comes to an outcome, over an archive whose checkpoint has its repairs under their
own ordinals, as runs leave them: the variant of each window is what its attempts make of the text at
the spans of the functions, from the store as it is behind the run, and as it is whatever happens
then. A window has an attempt for each ordinal from one up to its own, and those of an earlier window
are the same in each later one. -/
theorem windows_reproducible {mergeBack : Nat} {archive after later : Archive}
    {outcome : UnitOutcome} {others : List Happening}
    (numbered : Numbered (archive.checkpoints unit.id))
    (course : Course (onUnit settings unit mergeBack) happenings (.ok outcome))
    (steps : Archive.Steps Archive.Step archive happenings after)
    (afterwards : Archive.Steps Archive.Step after others later) :
    ∃ spans, locate unit.text unit.functions = .ok spans ∧
      (∀ window ∈ outcome.windows,
        Variant.merge CandidateLog.store later.log unit spans window.variant.provenance =
          .ok window.variant ∧
        OrdinalMap.keys window.variant.provenance = List.range' 1 window.window) ∧
      ∀ first ∈ outcome.windows, ∀ second ∈ outcome.windows, first.window ≤ second.window →
        ∀ ordinal ≤ first.window,
          second.variant.provenance.get? ordinal = first.variant.provenance.get? ordinal := by
  have within := Archive.within_of_steps afterwards
  have bornOut := Archive.bornOut_of_steps steps within
  obtain ⟨spans, _, _, _, windows, growing, progress, _, located, loads, opens, grows, -, rfl, rfl⟩ :=
    stages_of_course course
  have hprevious :=
    Archive.numbered_of_restored numbered (previous_of_loads loads steps)
  have read : BornOut later.log growing := bornOut.of_subset fun _ member => by simp [member]
  have opened : Lineage later.log unit spans 0 ⟨∅, ∅, windows, none⟩ := by
    intro window member
    cases opens with
    | none => cases member
    | unchanged =>
        obtain rfl := List.mem_singleton.1 member
        exact ⟨Nat.le_refl 0, Variant.made_unchanged later.log located, rfl, fun _ _ => rfl⟩
  obtain ⟨last, lineage⟩ : ∃ last, Lineage later.log unit spans last progress :=
    invariant_of_grows (fun last progress _ => Lineage later.log unit spans last progress) []
      grows hprevious (reached_zero windows) (fun window part reached =>
        lineage_of_window window hprevious reached (read.of_subset part)) opened
  refine ⟨spans, located, fun window member => ?_, ?_⟩
  · obtain ⟨-, back⟩ := lineage window member
    exact ⟨back.made, back.named⟩
  · intro first hfirst second hsecond hle ordinal hordinal
    have earlier := (lineage first hfirst).2.selected ordinal hordinal
    have now := (lineage second hsecond).2.selected ordinal (by omega)
    rw [now, earlier]

/-- A window is accepted, the next one only with its second candidate; then another candidate is put. -/
theorem windows_reproducible_after_put :
    let unit : SourceUnit :=
      ⟨"f.c", "int f(void) { return 1; }\nint g(void) { return 2; }\n", ["f", "g"], 1⟩
    ∃ archive happenings outcome after later, Numbered (archive.checkpoints unit.id) ∧
      Course (onUnit ⟨⟨1, true, 30⟩, false, true⟩ unit 2) happenings (.ok outcome) ∧
      Archive.Steps Archive.Step archive happenings after ∧
      Archive.Steps Archive.Step after [⟨.put unit.id 1 "w", .ok 2⟩] later ∧
      outcome.windows.map (fun window => window.variant.provenance.entries) =
        [[(1, 1)], [(1, 1), (2, 2)]] ∧
      ∃ spans, locate unit.text unit.functions = .ok spans ∧ ∀ window ∈ outcome.windows,
        Variant.merge CandidateLog.store later.log unit spans window.variant.provenance =
          .ok window.variant := by
  intro _
  let unit : SourceUnit := Sample.pair "f.c"
  let spans : List Span := Sample.pairSpans
  let settings : WorkSettings := ⟨⟨1, true, 30⟩, false, true⟩
  let one : Selection := Sample.selection 1
  let two : Selection := Sample.both 1 1
  let first : Variant := .assemble unit spans one [(1, "x")]
  let second : Variant := .assemble unit spans two [(1, "x"), (2, "y")]
  let verdict : Verdict := .compiled [] [] .zero .succeeded ""
  let start : Archive := ⟨.empty, fun _ => none⟩
  have bad : (Verdict.malformed []).isAccepted = false := rfl
  have good : verdict.isAccepted = true := rfl
  have answered (text : String) : settings.policy.taken (.answer (.ok text)) = .ok text := rfl
  have unrepaired : Settles unit 1 1 (∅ : OrdinalMap RepairState) [] ∅ :=
    .untouched fun _ found => nomatch found
  have settlesOne : WindowSettles settings unit spans 1 1 ⟨∅, ∅, [], none⟩ _ (.ok _) :=
    .accepted (Sample.merges_first "f.c" 1 "x") good unrepaired
  have better := Sample.merges_both "f.c" 1 2 "x" "z"
  have mends : Mends settings.policy unit spans ⟨two, .start 2 1 1, second, .malformed []⟩ _ (.ok _) :=
    .wanted rfl (.accepted _ "y" 2 (answered "z") better good)
  have settlesTwo : WindowSettles settings unit spans 2 1 ⟨one, ∅, [⟨1, first, verdict⟩], none⟩ _
      (Except.map _ _) := .rejected (Sample.merges_both "f.c" 1 1 "x" "y") bad mends
  have grows : Grows settings unit spans none [1, 2] ⟨∅, ∅, [], none⟩ _ (.ok _) :=
    .further (.settled (.uncached ⟨.ok (.stored 1), .stored 1 (answered "x"), rfl⟩) settlesOne) rfl
      (.further (.settled (.uncached ⟨.ok (.stored 1), .stored 1 (answered "y"), rfl⟩) settlesTwo)
        rfl (.done _))
  -- Each candidate takes the next place of its function, and stays readable.
  obtain ⟨hasX, hasY, putX, onlyX, putY, keepsX, onlyY⟩ :=
    start.exists_puts_of_two unit.id "x" "y" Nat.one_ne_zero Nat.one_lt_two fun _ => rfl
  obtain ⟨hasZ, putZ, textsZ, othersZ⟩ := hasY.exists_puts unit.id "z" (Nat.succ_ne_zero 1)
  rw [onlyY] at putZ textsZ
  have lastX : hasZ.log.texts unit.id 1 = ["x"] := by
    rw [othersZ 1 (by decide), keepsX]
  have readX : CandidateLog.store.get unit.id 1 1 hasX.log = .ok "x" := by
    simp [CandidateLog.store, onlyX]
  have readY : CandidateLog.store.get unit.id 2 1 hasY.log = .ok "y" := by
    simp [CandidateLog.store, onlyY]
  have readZ : CandidateLog.store.get unit.id 2 2 hasZ.log = .ok "z" := by
    simp [CandidateLog.store, textsZ]
  have againX : CandidateLog.store.get unit.id 1 1 hasY.log = .ok "x" := by
    simp [CandidateLog.store, keepsX]
  have stillX : CandidateLog.store.get unit.id 1 1 hasZ.log = .ok "x" := by
    simp [CandidateLog.store, lastX]
  have numbered : Numbered (start.checkpoints unit.id) := by simp [Numbered, start]
  obtain ⟨happenings, outcome, course, hentries, after, steps, same⟩ : ∃ happenings outcome,
      Course (onUnit settings unit 2) happenings (.ok outcome) ∧
      outcome.windows.map (fun window => window.variant.provenance.entries) =
        [[(1, 1)], [(1, 1), (2, 2)]] ∧
      ∃ after, Archive.Steps Archive.Step start happenings after ∧
        after.log.texts unit.id 1 = ["x"] := by
    refine ⟨_, _, Runs.course (.loaded (Sample.located_pair "f.c") (.unused rfl)
      (.none (Nat.succ_ne_zero 1)) grows (.finished (.saved rfl (.ok ())) rfl)), rfl, ?_⟩
    refine ⟨_, .cons (.inl (.tell _)) <| .cons (.inl (.ask _ _)) <| .cons putX <|
      .cons (.inl (.tell _)) <| .cons (Archive.reads readX) <| .cons (.inl (.validate _ _ _)) <|
      .cons (.inl (.tell _)) <| .cons (.inl (.ask _ _)) <| .cons putY <| .cons (.inl (.tell _)) <|
      .cons (Archive.reads againX) <| .cons (Archive.reads readY) <|
      .cons (.inl (.validate _ _ _)) <| .cons (.inl (.tell _)) <| .cons (.inl (.tell _)) <|
      .cons (Archive.reads readY) <| .cons (.inl (.ask _ _)) <| .cons putZ <|
      .cons (.inl (.tell _)) <| .cons (Archive.reads stillX) <| .cons (Archive.reads readZ) <|
      .cons (.inl (.validate _ _ _)) <| .cons (.inl (.tell _)) <| .cons (.inl (.tell _)) <|
      .cons (.inl (.save unit.id _ _ default)) <| .cons (.inl (.tell _)) <| .nil _, lastX⟩
  obtain ⟨later, put, -⟩ := after.exists_puts unit.id "w" Nat.one_ne_zero
  rw [same] at put
  have afterwards := Archive.Steps.cons put (.nil later)
  obtain ⟨found, hfound, reproduced, -⟩ :=
    windows_reproducible numbered course steps afterwards
  exact ⟨start, happenings, outcome, after, later, numbered, course, steps, afterwards, hentries,
    found, hfound, fun window member => (reproduced window member).1⟩

end Work

end Graft
