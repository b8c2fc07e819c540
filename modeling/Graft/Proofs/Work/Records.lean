import Graft.Proofs.Work.Completion
import Graft.Proofs.Work.Lineage
import Graft.Proofs.Work.Outcome

/-!
What a run leaves of the windows that it accepted. A checkpoint records them (`Records`) if they go back
to what it selects, this is stored, and repairs have succeeded with it. `records_of_course` says that a
run which keeps checkpoints and comes to an outcome records all its windows, or those before the function
at which it halts.
-/

namespace Graft

open Code Generation Work

def JudgedBy (judge : Variant → String → Verdict) (happenings : List Happening) : Prop :=
  ∀ variant fileName verdict, ⟨.validate variant fileName, verdict⟩ ∈ happenings →
    verdict = judge variant fileName

theorem JudgedBy.of_subset {judge : Variant → String → Verdict} {happenings rest : List Happening}
    (judged : JudgedBy judge happenings) (part : rest ⊆ happenings) : JudgedBy judge rest := by
  intro variant fileName verdict member
  exact judged variant fileName verdict (part member)

theorem JudgedBy.append {judge : Variant → String → Verdict} {happenings rest : List Happening}
    (judged : JudgedBy judge happenings) (later : JudgedBy judge rest) :
    JudgedBy judge (happenings ++ rest) := by
  intro variant fileName verdict member
  rcases List.mem_append.1 member with first | last
  · exact judged variant fileName verdict first
  · exact later variant fileName verdict last

theorem judgedBy_answering {α : Type} (reply : Request → Reply) (judge : Variant → String → Verdict)
    (work : Work α) (archive : Archive) :
    JudgedBy judge (work.trace (Archive.answering reply judge) archive) := by
  intro variant fileName verdict member
  obtain ⟨_, same⟩ := answer_of_mem_trace member
  exact same

/-- What a checkpoint records of accepted windows: they go back to what it selects, which is stored, and
the repairs of their functions have succeeded with it. -/
structure Checkpoint.Records (archive : Archive) (unit : SourceUnit) (spans : List Span)
    (judge : Variant → String → Verdict) (windows : List WindowOutcome) (checkpoint : Checkpoint) :
    Prop where
  numbered : windows.map (·.window) = List.range' 1 windows.length
  goesBack : ∀ window ∈ windows, window.GoesBack archive.log unit spans checkpoint.selection
  judged : ∀ window ∈ windows, window.verdict = judge window.variant (window.variant.fileName unit)
  accepted : ∀ window ∈ windows, window.verdict.isAccepted = true
  stored : ∀ ordinal attempt, 1 ≤ ordinal → ordinal ≤ windows.length →
    checkpoint.selection.get? ordinal = some attempt → archive.log.Has unit.id ordinal attempt
  repaired : ∀ ordinal state, 1 ≤ ordinal → ordinal ≤ windows.length →
    checkpoint.repairs.get? ordinal = some state →
    state.status = .repaired ∧ checkpoint.selection.get? ordinal = some state.lastTried

namespace Checkpoint.Records

variable {archive later : Archive} {unit : SourceUnit} {spans : List Span}
  {judge : Variant → String → Verdict} {windows : List WindowOutcome} {checkpoint : Checkpoint}

/-- Candidates that are put since leave what is recorded. -/
theorem of_within (records : checkpoint.Records archive unit spans judge windows)
    (within : archive.Within later) : checkpoint.Records later unit spans judge windows :=
  { records with
    goesBack := fun window member =>
      let back := records.goesBack window member
      ⟨back.made.of_within within, back.named, back.selected⟩
    stored := fun ordinal attempt positive hle hget =>
      within.has (records.stored ordinal attempt positive hle hget) }

/-- The window at a place is the one for the function behind it. -/
theorem window_getElem (records : checkpoint.Records archive unit spans judge windows) {count : Nat}
    (within : count < windows.length) : windows[count].window = count + 1 := by
  have mapped : (windows.map (·.window))[count]? = (List.range' 1 windows.length)[count]? := by
    rw [records.numbered]
  rw [List.getElem?_map, List.getElem?_eq_getElem within,
    List.getElem?_eq_getElem (by simpa using within)] at mapped
  simpa [Nat.add_comm] using mapped

/-- An attempt is selected for the function of each recorded window. -/
theorem exists_selected (records : checkpoint.Records archive unit spans judge windows) {count : Nat}
    (within : count < windows.length) :
    ∃ attempt, checkpoint.selection.get? (count + 1) = some attempt := by
  have back := records.goesBack windows[count] (List.getElem_mem within)
  have own := records.window_getElem within
  have named : count + 1 ∈ OrdinalMap.keys windows[count].variant.provenance := by
    rw [back.named, own, List.mem_range'_1]
    omega
  obtain ⟨⟨ordinal, attempt⟩, member, rfl⟩ := List.mem_map.1 named
  refine ⟨attempt, ?_⟩
  rw [← back.selected (count + 1) (Nat.le_of_eq own.symm)]
  exact OrdinalMap.mem_entries_iff.1 member

end Checkpoint.Records

namespace Work

variable {settings : WorkSettings} {unit : SourceUnit} {judge : Variant → String → Verdict}
  {happenings : List Happening} {archive : Archive}

/-- The accepted windows of a run are recorded in what it saves. -/
theorem records_of_grown {spans : List Span} {last final : Nat} {before progress : Progress} {updatedAt : Instant}
    (grown : Grown unit.id last before happenings) (part : before.windows <+: progress.windows)
    (others : ∀ ordinal ≤ last, progress.repairs.get? ordinal = before.repairs.get? ordinal)
    (lineage : Lineage archive.log unit spans final progress)
    (judged : ∀ window ∈ progress.windows,
      window.verdict = judge window.variant (window.variant.fileName unit))
    (stored : ∀ ordinal attempt, Known unit.id happenings ordinal attempt →
      archive.log.Has unit.id ordinal attempt) :
    Checkpoint.Records archive unit spans judge before.windows
      ⟨unit.id, progress.selection, progress.repairs, updatedAt⟩ := by
  have hlength : before.windows.length = last := length_windows grown
  have back : ∀ window ∈ before.windows,
      window.GoesBack archive.log unit spans progress.selection :=
    fun window member => (lineage window (part.subset member)).2
  -- The last window names what was selected with it, and what is selected in the end.
  have same : ∀ ordinal, 1 ≤ ordinal → ordinal ≤ last →
      progress.selection.get? ordinal = before.selection.get? ordinal := by
    intro ordinal positive hle
    have member : last ∈ before.windows.map (·.window) := by
      rw [grown.windows, List.mem_range'_1]
      omega
    obtain ⟨window, hwindow, rfl⟩ := List.mem_map.1 member
    rw [← (back window hwindow).selected ordinal hle, grown.provenance window hwindow ordinal hle]
  constructor
  · rw [hlength]
    exact grown.windows
  · exact back
  · exact fun window member => judged window (part.subset member)
  · exact grown.accepted
  · intro ordinal attempt positive hle hget
    rw [hlength] at hle
    apply stored
    apply grown.known
    rwa [← same ordinal positive hle]
  · intro ordinal state positive hle hget
    rw [hlength] at hle
    obtain ⟨status, selected⟩ := grown.repaired ordinal state ((others ordinal hle).symm.trans hget)
    exact ⟨status, (same ordinal positive hle).trans selected⟩

theorem windowRequested_of_course {mergeBack : Nat} {outcome : UnitOutcome}
    (course : Course (onUnit settings unit mergeBack) happenings (.ok outcome)) :
    outcome.windowRequested = min mergeBack unit.count := by
  obtain ⟨_, _, _, _, _, _, _, _, -, -, -, -, -, houtcome, -⟩ := stages_of_course course
  rw [houtcome]
  rfl

/-- What is saved without failure is the checkpoint of the unit. -/
theorem checkpoint_of_saves {after : Archive} {progress : Progress} {event : Event}
    (saves : Saves settings unit progress happenings (.ok ())) (kept : settings.keepsCheckpoints = true)
    (steps : Archive.Steps Archive.Step archive (happenings ++ [told event]) after) :
    ∃ updatedAt, after.checkpoints unit.id =
      some ⟨unit.id, progress.selection, progress.repairs, updatedAt⟩ := by
  cases saves with
  | unkept unkept => simp [kept] at unkept
  | saved =>
      obtain ⟨next, save, rest⟩ := Archive.steps_cons_iff.1 steps
      have same : after.checkpoints unit.id = next.checkpoints unit.id :=
        Archive.checkpoints_of_steps rest (by simp [told])
      obtain ⟨updatedAt, rfl⟩ := Archive.step_saved save rfl
      exact ⟨updatedAt, same.trans (Archive.checkpoints_keep archive _)⟩

/-- What a run that replaces functions has come to when it leaves its checkpoint. -/
theorem cameTo_of_course {mergeBack : Nat} {after : Archive} {outcome : UnitOutcome}
    (sound : archive.Sound unit.id) (kept : settings.keepsCheckpoints = true)
    (course : Course (onUnit settings unit mergeBack) happenings (.ok outcome))
    (steps : Archive.Steps Archive.Step archive happenings after)
    (judged : JudgedBy judge happenings) (replaces : outcome.windowRequested ≠ 0) :
    ∃ spans growing progress final updatedAt, locate unit.text unit.functions = .ok spans ∧
      outcome = progress.outcome unit (min mergeBack unit.count) ∧
      after.checkpoints unit.id =
        some ⟨unit.id, progress.selection, progress.repairs, updatedAt⟩ ∧
      CameTo unit.id (min mergeBack unit.count) progress growing ∧
      Lineage after.log unit spans final progress ∧
      (∀ window ∈ progress.windows,
        window.verdict = judge window.variant (window.variant.fileName unit)) ∧
      ∀ ordinal attempt, Known unit.id growing ordinal attempt →
        after.log.Has unit.id ordinal attempt := by
  obtain ⟨spans, previous, loading, opening, windows, growing, progress, saving, located, loads, opens,
    grows, saves, rfl, rfl⟩ := stages_of_course course
  obtain ⟨hprevious, lasting⟩ := lasting_of_loads sound loads steps
  have bornOut : BornOut after.log growing :=
    (Archive.bornOut_of_steps steps (.refl after)).of_subset fun _ member => by simp [member]
  have verdicts : ∀ window ∈ progress.windows,
      window.verdict = judge window.variant (window.variant.fileName unit) := by
    intro window member
    exact judged _ _ _ (judged_of_runs (runs_of_course course) window member)
  have stored : ∀ ordinal attempt, Known unit.id growing ordinal attempt →
      after.log.Has unit.id ordinal attempt := by
    intro ordinal attempt known
    exact Archive.has_of_known steps (known.of_subset fun _ member => by simp [member])
  obtain ⟨updatedAt, hcheckpoint⟩ : ∃ updatedAt, after.checkpoints unit.id =
      some ⟨unit.id, progress.selection, progress.repairs, updatedAt⟩ := by
    rw [← List.cons_append] at steps
    obtain ⟨_, -, ending⟩ := Archive.steps_append_iff.1 steps
    exact checkpoint_of_saves saves kept ending
  cases opens with
  | unchanged none => exact absurd none replaces
  | none =>
      have opened : Lineage after.log unit spans 0 ⟨∅, ∅, [], none⟩ := by
        intro window member
        cases member
      obtain ⟨final, lineage⟩ : ∃ final, Lineage after.log unit spans final progress :=
        invariant_of_grows (fun final progress _ => Lineage after.log unit spans final progress) []
          grows hprevious (reached_zero []) (fun window part reached =>
            lineage_of_window window hprevious reached (bornOut.of_subset part)) opened
      have zero : Grown unit.id 0 ⟨∅, ∅, [], none⟩ [] := .zero
      have cameTo := cameTo_of_grows grows hprevious lasting zero
      rw [Nat.zero_add, List.nil_append] at cameTo
      exact ⟨spans, growing, progress, final, updatedAt, located, rfl, hcheckpoint, cameTo, lineage,
        verdicts, stored⟩

/-- A run that replaces functions and keeps checkpoints records its accepted windows: all of them, or
those before the function at which it halts. -/
theorem records_of_course {mergeBack : Nat} {after : Archive} {outcome : UnitOutcome}
    (sound : archive.Sound unit.id) (kept : settings.keepsCheckpoints = true)
    (course : Course (onUnit settings unit mergeBack) happenings (.ok outcome))
    (steps : Archive.Steps Archive.Step archive happenings after)
    (judged : JudgedBy judge happenings) (replaces : outcome.windowRequested ≠ 0) :
    ∃ spans checkpoint last, locate unit.text unit.functions = .ok spans ∧
      after.checkpoints unit.id = some checkpoint ∧ checkpoint.repairs = outcome.repairs ∧
      (outcome.windows.take last).length = last ∧
      checkpoint.Records after unit spans judge (outcome.windows.take last) ∧
      (outcome.haltedAt = none → last = min mergeBack unit.count ∧ outcome.windows.length = last) ∧
      ∀ ordinal, outcome.haltedAt = some ordinal →
        ordinal = last + 1 ∧ ordinal ≤ min mergeBack unit.count ∧
        ∃ state, outcome.repairs.get? ordinal = some state ∧ state.status = .exhausted := by
  obtain ⟨spans, growing, progress, final, updatedAt, located, rfl, hcheckpoint, cameTo, lineage,
    verdicts, stored⟩ := cameTo_of_course sound kept course steps judged replaces
  cases cameTo with
  | all grown =>
      have length := length_windows grown
      have taken : progress.windows.take (min mergeBack unit.count) = progress.windows :=
        List.take_of_length_le (Nat.le_of_eq length)
      refine ⟨spans, _, min mergeBack unit.count, located, hcheckpoint, rfl, ?_, ?_, ?_, ?_⟩
      · show (progress.windows.take _).length = _
        rw [taken, length]
      · show Checkpoint.Records _ _ _ _ (progress.windows.take _) _
        rw [taken]
        exact records_of_grown grown (List.prefix_refl _) (fun _ _ => rfl) lineage verdicts stored
      · exact fun _ => ⟨rfl, length⟩
      · intro ordinal halted
        cases grown.goesOn.symm.trans halted
  | @halted last before within grown halts =>
      have length := length_windows grown
      have taken : progress.windows.take last = before.windows := by
        rw [← length]
        exact (List.prefix_iff_eq_take.1 halts.windows_prefix).symm
      refine ⟨spans, _, last, located, hcheckpoint, rfl, ?_, ?_, ?_, ?_⟩
      · show (progress.windows.take last).length = last
        rw [taken, length]
      · show Checkpoint.Records _ _ _ _ (progress.windows.take last) _
        rw [taken]
        refine records_of_grown grown halts.windows_prefix (fun ordinal hle => ?_) lineage verdicts
          stored
        exact halts.others ordinal (by omega)
      · intro goesOn
        cases halts.haltedAt.symm.trans goesOn
      · intro ordinal halted
        obtain rfl := Option.some.inj (halts.haltedAt.symm.trans halted)
        exact ⟨rfl, within, halts.exhausted⟩

end Work

end Graft
