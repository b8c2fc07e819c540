import Graft.Proofs.Work.Restored
import Mathlib.Data.List.Basic

/-!
The shape of what the work on a unit comes to. `outcome_of_history` says that in every run over an
archive that earlier runs left the windows are those from one up, that the work halts at most once and
where it says, and that repairs have come to the end that the windows show.
-/

namespace Graft

open Code Work

/-- The outcome when no function is to be replaced: the unit's own text. -/
structure UnitOutcome.Unreplaced (unit : SourceUnit) (outcome : UnitOutcome) : Prop where
  windows : ∃ verdict, outcome.windows = [⟨0, .unchanged unit, verdict⟩]
  repairs : ∀ ordinal, outcome.repairs.get? ordinal = none
  haltedAt : outcome.haltedAt = none

/-- The outcome when functions are to be replaced. All windows but the last are accepted; the work
halts at the function of a rejected window, or at the one behind the last window, and else comes to all
windows that were asked for. No repair is pending: that of an accepted function has succeeded with the
attempt in the window, and that of the function at which the work halts is exhausted. -/
structure UnitOutcome.Orderly (outcome : UnitOutcome) : Prop where
  windows : outcome.windows.map (·.window) = List.range' 1 outcome.windows.length
  requested : outcome.windows.length ≤ outcome.windowRequested
  earlier : ∀ window ∈ outcome.windows.dropLast, window.verdict.isAccepted = true
  complete : outcome.haltedAt = none → outcome.windows.length = outcome.windowRequested ∧
    ∀ window ∈ outcome.windows, window.verdict.isAccepted = true
  halted : ∀ ordinal, outcome.haltedAt = some ordinal →
    (ordinal = outcome.windows.length ∧
      ∃ window, outcome.windows.getLast? = some window ∧ window.verdict.isAccepted = false) ∨
    (ordinal = outcome.windows.length + 1 ∧
      ∀ window ∈ outcome.windows, window.verdict.isAccepted = true)
  repairs : ∀ ordinal state, outcome.repairs.get? ordinal = some state →
    state.ordinal = ordinal ∧ ordinal ≤ outcome.haltedAt.getD outcome.windows.length ∧
      state.status ≠ .pending
  repaired : ∀ window ∈ outcome.windows, window.verdict.isAccepted = true →
    ∀ state, outcome.repairs.get? window.window = some state →
      state.status = .repaired ∧
        window.variant.provenance.get? window.window = some state.lastTried
  exhausted : ∀ ordinal, outcome.haltedAt = some ordinal →
    ∃ state, outcome.repairs.get? ordinal = some state ∧ state.status = .exhausted

namespace Work

variable {settings : WorkSettings} {unit : SourceUnit} {mergeBack requested last : Nat}
  {happenings : List Happening} {progress before : Progress}

theorem length_windows {id : UnitId} (grown : Grown id last progress happenings) :
    progress.windows.length = last := by
  simpa using congrArg List.length grown.windows

/-- Work that comes to all windows has an orderly outcome. -/
theorem orderly_of_grown (grown : Grown unit.id requested progress happenings) :
    (progress.outcome unit requested).Orderly where
  windows := by
    simpa [Progress.outcome, length_windows grown] using grown.windows
  requested := Nat.le_of_eq (length_windows grown)
  earlier window member := grown.accepted window (List.dropLast_subset _ member)
  complete _ := ⟨length_windows grown, grown.accepted⟩
  halted ordinal h := by simp [Progress.outcome, grown.goesOn] at h
  repairs ordinal state hget := by
    obtain ⟨own, hle⟩ := grown.numbered ordinal state hget
    refine ⟨own, ?_, by simp [(grown.repaired ordinal state hget).1]⟩
    simpa [Progress.outcome, grown.goesOn, length_windows grown] using hle
  repaired window member _ state hget := by
    obtain ⟨status, selected⟩ := grown.repaired window.window state hget
    exact ⟨status, (grown.provenance window member _ (Nat.le_refl _)).trans selected⟩
  exhausted ordinal h := by simp [Progress.outcome, grown.goesOn] at h

/-- The windows of work that halts: those that were accepted before, and perhaps the one at which it
halts. -/
theorem windows_of_halts {id : UnitId} (grown : Grown id last before happenings)
    (halts : Halts last before progress) :
    (progress.windows = before.windows ∧ last + 1 = progress.windows.length + 1) ∨
      ∃ window : WindowOutcome, window.window = last + 1 ∧ window.verdict.isAccepted = false ∧
        progress.windows = before.windows ++ [window] ∧ last + 1 = progress.windows.length := by
  have hlength := length_windows grown
  rcases halts.windows with same | ⟨variant, verdict, rejected, same⟩
  · exact .inl ⟨same, by rw [same, hlength]⟩
  · exact .inr ⟨⟨last + 1, variant, verdict⟩, rfl, rejected, same, by simp [same, hlength]⟩

/-- An accepted window of work that halts was there before. -/
theorem mem_of_halts (halts : Halts last before progress) {window : WindowOutcome}
    (member : window ∈ progress.windows) (isAccepted : window.verdict.isAccepted = true) :
    window ∈ before.windows := by
  rcases halts.windows with same | ⟨variant, verdict, rejected, same⟩
  · exact same ▸ member
  · rw [same, List.mem_append, List.mem_singleton] at member
    rcases member with earlier | rfl
    · exact earlier
    · simp [rejected] at isAccepted

/-- The repairs of work that halts are those of accepted functions, and an exhausted one. -/
theorem repairs_of_halts {id : UnitId} (grown : Grown id last before happenings)
    (halts : Halts last before progress) {ordinal : Nat} {state : RepairState}
    (hget : progress.repairs.get? ordinal = some state) :
    (ordinal = last + 1 ∧ state.status = .exhausted) ∨
      (ordinal ≤ last ∧ before.repairs.get? ordinal = some state) := by
  by_cases same : ordinal = last + 1
  · subst same
    obtain ⟨stopped, hstopped, exhausted⟩ := halts.exhausted
    obtain rfl := Option.some.inj (hstopped.symm.trans hget)
    exact .inl ⟨rfl, exhausted⟩
  · rw [halts.others ordinal same] at hget
    exact .inr ⟨(grown.numbered ordinal state hget).2, hget⟩

/-- Work that halts has an orderly outcome. -/
theorem orderly_of_halts (within : last < requested) (grown : Grown unit.id last before happenings)
    (halts : Halts last before progress)
    (numbered : ∀ ordinal state, progress.repairs.get? ordinal = some state → state.ordinal = ordinal) :
    (progress.outcome unit requested).Orderly where
  windows := by
    show progress.windows.map (·.window) = List.range' 1 progress.windows.length
    rcases windows_of_halts grown halts with ⟨same, hlast⟩ | ⟨window, own, -, same, hlast⟩
    · rw [same, grown.windows, length_windows grown]
    · rw [← hlast, same, List.map_append, grown.windows, List.range'_1_concat, Nat.add_comm 1]
      simp [own]
  requested := by
    show progress.windows.length ≤ requested
    rcases windows_of_halts grown halts with ⟨-, hlast⟩ | ⟨_, -, -, -, hlast⟩ <;> omega
  earlier window member := by
    rcases windows_of_halts grown halts with ⟨same, -⟩ | ⟨_, -, -, same, -⟩
    · exact grown.accepted window (same ▸ List.dropLast_subset _ member)
    · exact grown.accepted window (by simpa [Progress.outcome, same] using member)
  complete h := by simp [Progress.outcome, halts.haltedAt] at h
  halted ordinal h := by
    obtain rfl := Option.some.inj (halts.haltedAt.symm.trans h)
    rcases windows_of_halts grown halts with ⟨same, hlast⟩ | ⟨window, -, rejected, same, hlast⟩
    · exact .inr ⟨hlast, fun window member => grown.accepted window (same ▸ member)⟩
    · exact .inl ⟨hlast, window, by simp [Progress.outcome, same], rejected⟩
  repairs ordinal state hget := by
    refine ⟨numbered ordinal state hget, ?_⟩
    show ordinal ≤ progress.haltedAt.getD _ ∧ _
    rw [halts.haltedAt, Option.getD_some]
    rcases repairs_of_halts grown halts hget with ⟨rfl, exhausted⟩ | ⟨hle, hbefore⟩
    · exact ⟨Nat.le_refl _, by simp [exhausted]⟩
    · exact ⟨by omega, by simp [(grown.repaired ordinal state hbefore).1]⟩
  repaired window member isAccepted state hget := by
    have hmember := mem_of_halts halts member isAccepted
    have hle := grown.window_le hmember
    rcases repairs_of_halts grown halts hget with ⟨own, -⟩ | ⟨-, hbefore⟩
    · omega
    · obtain ⟨status, selected⟩ := grown.repaired window.window state hbefore
      exact ⟨status, (grown.provenance window hmember _ (Nat.le_refl _)).trans selected⟩
  exhausted ordinal h := by
    obtain rfl := Option.some.inj (halts.haltedAt.symm.trans h)
    exact halts.exhausted

/-- In every run over an archive that earlier runs of the unit left, whatever their settings, and
whatever the service, the validator and the store answered in them and the candidates that were put in
between, the outcome is the unit's own text if no function is to be replaced, and else orderly. -/
theorem outcome_of_history {archive after : Archive} {outcome : UnitOutcome}
    (history : History unit archive)
    (course : Course (onUnit settings unit mergeBack) happenings (.ok outcome))
    (steps : Archive.Steps Archive.Step archive happenings after) :
    outcome.windowRequested = min mergeBack unit.count ∧
    (outcome.windowRequested = 0 → outcome.Unreplaced unit) ∧
    (outcome.windowRequested ≠ 0 → outcome.Orderly) := by
  obtain ⟨_, _, _, _, _, _, progress, _, -, loads, opens, grows, -, rfl, rfl⟩ :=
    stages_of_course course
  obtain ⟨hprevious, lasting⟩ := lasting_of_loads history.sound loads steps
  obtain ⟨final, numbered⟩ :=
    ((concerns_of_grows grows hprevious (reached_zero _) rfl).2 progress rfl).1
  refine ⟨rfl, ?_⟩
  rcases cameTo_of_opens opens grows hprevious lasting with ⟨zero, verdict, rfl⟩ | ⟨some, cameTo⟩
  · exact ⟨fun _ => ⟨⟨verdict, rfl⟩, fun _ => rfl, rfl⟩, fun some => absurd zero some⟩
  · refine ⟨fun zero => absurd zero some, fun _ => ?_⟩
    cases cameTo with
    | all grown => exact orderly_of_grown grown
    | halted within grown halts =>
        exact orderly_of_halts within grown halts fun ordinal state hget =>
          (numbered ordinal state hget).1

/-- A run halts at a function that the service refuses; a candidate is put for it, and the next run
goes on with that. -/
theorem outcome_of_history_with_put :
    let unit : SourceUnit := ⟨"f.c", "int f(void) { return 1; }", ["f"], 1⟩
    ∃ archive happenings outcome after checkpoint, History unit archive ∧
      Course (onUnit ⟨⟨1, true, 30⟩, true, true⟩ unit 1) happenings (.ok outcome) ∧
      Archive.Steps Archive.Step archive happenings after ∧
      archive.checkpoints unit.id = some checkpoint ∧
      (checkpoint.repairs.get? 1).map (·.status) = some .exhausted ∧
      outcome.windowRequested = 1 ∧ outcome.Orderly ∧
      (outcome.repairs.get? 1).map (·.status) = some .repaired := by
  intro _
  let settings : WorkSettings := ⟨⟨1, true, 30⟩, true, true⟩
  let verdict : Verdict := .compiled [] [] .zero .succeeded ""
  let refused : RepairState := ⟨1, .exhausted, 1, 1, 0, some "no", [⟨1, .rejected "no"⟩]⟩
  let resumed : RepairState := (refused.refreshBudget 1).resume 1
  let repairs : OrdinalMap RepairState := (∅ : OrdinalMap RepairState).insert 1 resumed
  let checkpoint : Checkpoint :=
    ⟨Sample.unit.id, ∅, (∅ : OrdinalMap RepairState).insert 1 refused, default⟩
  let start : Archive := ⟨.empty, fun _ => none⟩
  let halted : Archive := start.keep checkpoint
  let archive : Archive := halted.put Sample.unit.id 1 "x"
  let after : Archive :=
    archive.keep ⟨Sample.unit.id, Sample.selection 1, repairs.insert 1 (resumed.markRepaired 1),
      default⟩
  have refuses : settings.policy.taken (.answer (.error (.rejected "no"))) =
      .error (.rejected "no") := rfl
  have notThere : chosenAttempt? none 1 [] = none := rfl
  have firstGrows : Grows settings Sample.unit Sample.spans none [1] ⟨∅, ∅, [], none⟩ _ (.ok _) :=
    .halted (.noAttempt (.fresh rfl notThere ⟨.ok (.refused refused), .rejected refuses rfl, rfl⟩))
      (Option.some_ne_none 1)
  have firstCourse : Course (onUnit settings Sample.unit 1) _ _ := Runs.course (.loaded Sample.located
    (.loaded rfl (.ok none)) (.none Nat.one_ne_zero) firstGrows (.finished (.saved rfl (.ok ())) rfl))
  have history : History Sample.unit archive :=
    .put (.run (.start start rfl) firstCourse <| .cons (.inl (.tell _)) <|
      .cons (.inl (.load Sample.unit.id)) <| .cons (.inl (.attempts Sample.unit.id 1)) <|
      .cons (.inl (.ask _ _)) <| .cons (.inl (.tell _)) <|
      .cons (.inl (.save Sample.unit.id ∅ _ default)) <| .cons (.inl (.tell _)) <| .nil _)
      Sample.unit.id 1 "x"
  have restored : archive.checkpoints Sample.unit.id = some checkpoint := by
    rw [halted.checkpoints_put Sample.unit.id 1 "x"]
    exact start.checkpoints_keep checkpoint
  have texts : archive.log.texts Sample.unit.id 1 = ["x"] :=
    halted.texts_put Sample.unit.id "x" Nat.one_ne_zero
  have listed : CandidateLog.store.attempts Sample.unit.id 1 archive.log = .ok [1] := by
    simp [CandidateLog.store, texts]
  have found : CandidateLog.store.get Sample.unit.id 1 1 archive.log = .ok "x" := by
    simp [CandidateLog.store, texts]
  have resumes : continuation (refused.refreshBudget 1) [1] = .resumed 1 := rfl
  have accepts : verdict.isAccepted = true := rfl
  have pending : resumed.status ≠ .repaired := by decide
  have settles : WindowSettles settings Sample.unit Sample.spans 1 1 ⟨∅, repairs, [], none⟩ _
      (.ok _) :=
    .accepted (Sample.merges 1 "x") accepts (.repaired rfl pending)
  have grows : Grows settings Sample.unit Sample.spans (some checkpoint) [1] ⟨∅, ∅, [], none⟩ _
      (.ok _) :=
    .further (.settled (.resumed rfl resumes rfl) settles) rfl (.done _)
  have course : Course (onUnit settings Sample.unit 1) _ (.ok _) := Runs.course (.loaded
    Sample.located (.loaded rfl (.ok (some checkpoint))) (.none Nat.one_ne_zero) grows
    (.finished (.saved rfl (.ok ())) rfl))
  refine ⟨archive, _, _, after, checkpoint, history, course, ?steps, restored, rfl, rfl,
    (outcome_of_history history course ?steps).2.2 (by decide), rfl⟩
  case steps =>
    exact .cons (.inl (.tell _)) <| .cons (Archive.loads restored) <|
      .cons (Archive.lists listed) <| .cons (.inl (.tell _)) <| .cons (Archive.reads found) <|
      .cons (.inl (.validate _ _ _)) <| .cons (.inl (.tell _)) <| .cons (.inl (.tell _)) <|
      .cons (.inl (.save Sample.unit.id _ _ default)) <| .cons (.inl (.tell _)) <| .nil _

end Work

end Graft
