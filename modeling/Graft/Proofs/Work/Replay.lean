import Graft.Proofs.Work.Exchanges
import Graft.Proofs.Work.Records

/-!
Reruns. `replays_of_window` is the step of a rerun: as long as windows are recorded it takes the recorded
attempt, makes the recorded variant and gets the recorded verdict, and exchanges nothing with the
service or the store. `replays_of_grows` lifts this to as many windows as the rerun is told to grow,
and `replays_of_course` to a whole rerun, which goes on from there. `rerun_replays_accepted_windows`
is what follows for two whole runs.
-/

namespace Graft

open Code Generation Work

structure Checkpoint.Replays (windows : List WindowOutcome) (checkpoint : Checkpoint) (count : Nat)
    (progress : Progress) : Prop extends Reached count progress where
  selection : ∀ ordinal, 1 ≤ ordinal → ordinal ≤ count →
    progress.selection.get? ordinal = checkpoint.selection.get? ordinal
  windows : progress.windows = windows.take count
  goesOn : progress.haltedAt = none

namespace Work

variable {policy : Policy} {settings : WorkSettings} {unit : SourceUnit} {spans : List Span}
  {judge : Variant → String → Verdict} {windows : List WindowOutcome} {checkpoint : Checkpoint}
  {happenings : List Happening} {archive : Archive}

/-- A rerun takes the attempt that is recorded for a function, and asks for none. -/
theorem attempt_of_recorded {ordinal attempt : Nat} {repairs after : OrdinalMap RepairState}
    {attempt? : Option Nat}
    (attempts : FirstAttempt policy unit spans ordinal (some checkpoint) repairs true happenings
      (.ok (attempt?, after)))
    (selected : checkpoint.selection.get? ordinal = some attempt)
    (repaired : ∀ state, checkpoint.repairs.get? ordinal = some state →
      state.status = .repaired ∧ state.lastTried = attempt)
    (listed : ∀ stored, ⟨.attempts unit.id ordinal, .ok stored⟩ ∈ happenings → attempt ∈ stored)
    (fresh : repairs.get? ordinal = none) :
    attempt? = some attempt ∧ (∀ happening ∈ happenings, happening.1.exchanges = false) ∧
      ∀ state, after.get? ordinal = some state → state.status = .repaired := by
  have keeps {stored : List Nat} {state : RepairState} (stores : attempt ∈ stored)
      (restored : checkpoint.repairs.get? ordinal = some state) :
      continuation (state.refreshBudget policy.maxFixAttempts) stored = .kept attempt := by
    obtain ⟨status, rfl⟩ := repaired state restored
    exact continuation_eq_kept stores (.inl (by simpa using status))
  have chooses {stored : List Nat} (stores : attempt ∈ stored) :
      chosenAttempt? (some checkpoint) ordinal stored = some attempt := by
    simp [chosenAttempt?, selected, stores]
  cases attempts with
  | @kept stored state found restored goesOn =>
      have stores := listed stored List.mem_cons_self
      obtain rfl : attempt = found :=
        Continuation.kept.inj ((keeps stores restored).symm.trans goesOn)
      refine ⟨rfl, by simp [Action.exchanges], ?_⟩
      intro refreshed hget
      obtain rfl : _ = refreshed := by simpa using hget
      simpa using (repaired state restored).1
  | resumed restored goesOn =>
      have stores := listed _ List.mem_cons_self
      cases (keeps stores restored).symm.trans goesOn
  | lost restored goesOn =>
      have stores := listed _ List.mem_cons_self
      cases (keeps stores restored).symm.trans goesOn
  | @chosen stored found notRestored choice =>
      have stores := listed stored List.mem_cons_self
      obtain rfl : attempt = found := Option.some.inj ((chooses stores).symm.trans choice)
      exact ⟨rfl, by simp [Action.exchanges], by simp [fresh]⟩
  | fresh notRestored choice =>
      have stores := listed _ List.mem_cons_self
      cases (chooses stores).symm.trans choice

/-- The recorded attempts make the recorded variant again. -/
theorem variant_of_recorded {count attempt : Nat} {selection : Selection} {window : WindowOutcome}
    {variant : Variant}
    (merges : Merges unit spans (selection.insert (count + 1) attempt) happenings (.ok variant))
    (bornOut : BornOut archive.log happenings)
    (keys : OrdinalMap.keys selection = List.range' 1 count)
    (same : ∀ ordinal, 1 ≤ ordinal → ordinal ≤ count →
      selection.get? ordinal = checkpoint.selection.get? ordinal)
    (back : window.GoesBack archive.log unit spans checkpoint.selection)
    (own : window.window = count + 1)
    (selected : checkpoint.selection.get? (count + 1) = some attempt) : variant = window.variant := by
  obtain ⟨provenance, made⟩ := made_of_merges merges bornOut
  apply made.eq_of_provenance back.made
  rw [provenance]
  have grown := keys_insert_succ keys attempt
  apply OrdinalMap.ext_of_keys
  · rw [grown, back.named, own]
  · intro ordinal member
    rw [grown, List.mem_range'_1] at member
    rw [back.selected ordinal (by omega), OrdinalMap.get?_insert]
    split
    · next last => rw [last, selected]
    · next differs => exact same ordinal (by omega) (by omega)

/-- A window with the recorded attempt is accepted as it was recorded. -/
theorem replayed_of_windowSettles {count attempt : Nat} {progress after : Progress}
    {window : WindowOutcome}
    (settles : WindowSettles settings unit spans (count + 1) attempt progress happenings (.ok after))
    (bornOut : BornOut archive.log happenings) (judged : JudgedBy judge happenings)
    (keys : OrdinalMap.keys progress.selection = List.range' 1 count)
    (same : ∀ ordinal, 1 ≤ ordinal → ordinal ≤ count →
      progress.selection.get? ordinal = checkpoint.selection.get? ordinal)
    (back : window.GoesBack archive.log unit spans checkpoint.selection)
    (own : window.window = count + 1)
    (selected : checkpoint.selection.get? (count + 1) = some attempt)
    (verdict : window.verdict = judge window.variant (window.variant.fileName unit))
    (accepted : window.verdict.isAccepted = true)
    (repaired : ∀ state, progress.repairs.get? (count + 1) = some state → state.status = .repaired) :
    (∀ happening ∈ happenings, happening.1.exchanges = false) ∧
      after.selection = progress.selection.insert (count + 1) attempt ∧
      after.windows = progress.windows ++ [window] ∧ after.haltedAt = none := by
  have verdicts {merging rest : List Happening} {variant : Variant} {found : Verdict}
      (merges : Merges unit spans (progress.selection.insert (count + 1) attempt) merging (.ok variant))
      (whole : happenings = merging ++ ⟨.validate variant (variant.fileName unit), found⟩ :: rest) :
      variant = window.variant ∧ found = window.verdict := by
    subst whole
    have read := bornOut.of_subset (List.subset_append_left merging _)
    obtain rfl := variant_of_recorded merges read keys same back own selected
    refine ⟨rfl, ?_⟩
    rw [verdict]
    exact judged _ _ _ (List.mem_append_right _ List.mem_cons_self)
  cases settled_of_windowSettles settles with
  | accepted merges isAccepted repair =>
      obtain ⟨rfl, rfl⟩ := verdicts merges rfl
      have quiet := quiet_of_merges merges
      cases repair with
      | untouched =>
          refine ⟨List.forall_mem_append.2 ⟨quiet, ?_⟩, rfl, ?_, rfl⟩
          · simp [toldVerdict, told, Action.exchanges]
          · rw [← own]
      | repaired found notYet => exact absurd (repaired _ found) notYet
  | rejected merges notAccepted =>
      obtain ⟨rfl, rfl⟩ := verdicts merges rfl
      rw [accepted] at notAccepted
      cases notAccepted

/-- As long as windows are recorded, a rerun takes the next of them over and exchanges nothing. -/
theorem replays_of_window {count : Nat} {progress after : Progress}
    (window : Window settings unit spans (some checkpoint) (count + 1) progress happenings (.ok after))
    (cached : settings.useCache = true) (numbered : Numbered (some checkpoint))
    (records : checkpoint.Records archive unit spans judge windows) (within : count < windows.length)
    (listed : ∀ ordinal attempt, 1 ≤ ordinal → ordinal ≤ windows.length →
      checkpoint.selection.get? ordinal = some attempt →
      ∀ stored, ⟨.attempts unit.id ordinal, .ok stored⟩ ∈ happenings → attempt ∈ stored)
    (bornOut : BornOut archive.log happenings) (judged : JudgedBy judge happenings)
    (replays : checkpoint.Replays windows count progress) :
    (∀ happening ∈ happenings, happening.1.exchanges = false) ∧
      checkpoint.Replays windows (count + 1) after := by
  obtain ⟨attempt, selected⟩ := records.exists_selected within
  have member : windows[count] ∈ windows := List.getElem_mem within
  have own := records.window_getElem within
  have repaired : ∀ state, checkpoint.repairs.get? (count + 1) = some state →
      state.status = .repaired ∧ state.lastTried = attempt := by
    intro state restored
    obtain ⟨status, tried⟩ := records.repaired (count + 1) state (by omega) within restored
    exact ⟨status, Option.some.inj (tried.symm.trans selected)⟩
  have fresh := replays.numbered.get?_succ
  have reached (goesOn : after.haltedAt = none) : Reached (count + 1) after :=
    reached_of_window window numbered replays.toReached goesOn
  cases window with
  | noAttempt attempts =>
      rw [cached] at attempts
      have begun := attempt_of_recorded attempts selected repaired
        (fun stored => listed (count + 1) attempt (by omega) within selected stored) fresh
      cases begun.1
  | settled attempts settles =>
      rw [cached] at attempts
      obtain ⟨found, quiet, still⟩ := attempt_of_recorded attempts selected repaired
        (fun stored hmem => listed (count + 1) attempt (by omega) within selected stored
          (List.mem_append_left _ hmem)) fresh
      obtain rfl := Option.some.inj found
      obtain ⟨settling, hselection, hwindows, goesOn⟩ := replayed_of_windowSettles settles
        (bornOut.of_subset (List.subset_append_right _ _))
        (judged.of_subset (List.subset_append_right _ _)) replays.selected replays.selection
        (records.goesBack _ member) own selected (records.judged _ member)
        (records.accepted _ member) still
      refine ⟨List.forall_mem_append.2 ⟨quiet, settling⟩,
        { reached goesOn with selection := ?_, windows := ?_, goesOn }⟩
      · intro ordinal positive hle
        rw [hselection, OrdinalMap.get?_insert]
        split
        · next last => rw [last, selected]
        · next differs => exact replays.selection ordinal positive (by omega)
      · rw [hwindows, replays.windows, List.take_succ_eq_append_getElem within]

/-- So a rerun takes over the recorded windows, as many as it comes to, and then goes on. -/
theorem replays_of_grows {first count more : Nat} {progress after : Progress}
    (grows : Grows settings unit spans (some checkpoint) (List.range' (first + 1) (count + more))
      progress happenings (.ok after))
    (cached : settings.useCache = true) (numbered : Numbered (some checkpoint))
    (records : checkpoint.Records archive unit spans judge windows)
    (within : first + count ≤ windows.length)
    (listed : ∀ ordinal attempt, 1 ≤ ordinal → ordinal ≤ windows.length →
      checkpoint.selection.get? ordinal = some attempt →
      ∀ stored, ⟨.attempts unit.id ordinal, .ok stored⟩ ∈ happenings → attempt ∈ stored)
    (bornOut : BornOut archive.log happenings) (judged : JudgedBy judge happenings)
    (replays : checkpoint.Replays windows first progress) :
    ∃ reached replaying rest, happenings = replaying ++ rest ∧
      (∀ happening ∈ replaying, happening.1.exchanges = false ∧
        ∃ ordinal ≤ first + count, happening.1.Concerns unit.id ordinal) ∧
      checkpoint.Replays windows (first + count) reached ∧
      Grows settings unit spans (some checkpoint) (List.range' (first + count + 1) more) reached rest
        (.ok after) := by
  -- On how many windows there are still to be taken over.
  induction count generalizing first progress happenings with
  | zero => exact ⟨progress, [], happenings, rfl, by simp, replays, by simpa using grows⟩
  | succ count ih =>
      rw [Nat.add_right_comm, List.range'_succ] at grows
      have within' : first < windows.length := by omega
      cases grows with
      | halted window halts =>
          have taken := (replays_of_window window cached numbered records within' listed bornOut judged
            replays).2
          exact absurd taken.goesOn halts
      | @further _ _ _ next now rest _ window goesOn later =>
          obtain ⟨quiet, taken⟩ := replays_of_window window cached numbered records within'
            (fun ordinal attempt positive hle hget stored member =>
              listed ordinal attempt positive hle hget stored (List.mem_append_left _ member))
            (bornOut.of_subset (List.subset_append_left _ _))
            (judged.of_subset (List.subset_append_left _ _)) replays
          have concerns := (concerns_of_window window numbered replays.toReached).1
          obtain ⟨reached, replaying, last, rfl, hreplaying, final, growing⟩ := ih later (by omega)
            (fun ordinal attempt positive hle hget stored member =>
              listed ordinal attempt positive hle hget stored (List.mem_append_right _ member))
            (bornOut.of_subset (List.subset_append_right _ _))
            (judged.of_subset (List.subset_append_right _ _)) taken
          have sum : first + 1 + count = first + (count + 1) := by omega
          rw [sum] at hreplaying final growing
          refine ⟨reached, now ++ replaying, last, (List.append_assoc ..).symm, ?_, final, growing⟩
          intro happening member
          rcases List.mem_append.1 member with here | there
          · exact ⟨quiet happening here, first + 1, by omega, concerns happening here⟩
          · exact hreplaying happening there

/-- A run that may use checkpoints goes on with the one that is there. -/
theorem previous_of_cached {after : Archive} {previous : Option Checkpoint} {event : Event}
    {loading rest : List Happening} (loads : Loads settings unit loading (.ok previous))
    (cached : settings.useCache = true) (kept : settings.keepsCheckpoints = true)
    (steps : Archive.Steps Archive.Step archive (told event :: (loading ++ rest)) after) :
    previous = archive.checkpoints unit.id := by
  obtain ⟨started, start, later⟩ := Archive.steps_cons_iff.1 steps
  have same : started.checkpoints unit.id = archive.checkpoints unit.id :=
    Archive.checkpoints_of_step start (by simp [told])
  cases loads with
  | unused unused => simp [cached, kept] at unused
  | loaded =>
      obtain ⟨_, load, -⟩ := Archive.steps_cons_iff.1 later
      exact (Archive.step_load load rfl).trans same

/-- Around its windows a run exchanges nothing. -/
theorem quiet_of_stages {requested : Nat} {progress : Progress}
    {previous : Except Failure (Option Checkpoint)} {loading opening saving : List Happening}
    {saved : Except Failure Unit} (loads : Loads settings unit loading previous)
    (opens : Opens unit requested opening windows) (saves : Saves settings unit progress saving saved)
    (reached : Nat) (isAccepted : Bool) :
    (∀ happening ∈ told (.unitStarted unit.id unit.count requested) :: (loading ++ opening),
      happening.1.exchanges = false) ∧
      ∀ happening ∈ saving ++ [told (.unitFinished unit.id reached isAccepted)],
        happening.1.exchanges = false := by
  constructor
  · refine List.forall_mem_cons.2 ⟨rfl, List.forall_mem_append.2 ⟨?_, ?_⟩⟩
    · cases loads <;> simp [Action.exchanges]
    · cases opens <;> simp [toldVerdict, told, Action.exchanges]
  · cases saves <;> simp [told, Action.exchanges]

/-- A run that replaces nothing judges the unit's own text, and exchanges nothing. -/
theorem unreplaced_of_course {mergeBack : Nat} {outcome : UnitOutcome}
    (course : Course (onUnit settings unit mergeBack) happenings (.ok outcome))
    (judged : JudgedBy judge happenings) (nothing : min mergeBack unit.count = 0) :
    (∀ happening ∈ happenings, happening.1.exchanges = false) ∧
      outcome = ⟨unit.id, 0, [⟨0, .unchanged unit,
        judge (.unchanged unit) ((Variant.unchanged unit).fileName unit)⟩], ∅, none⟩ := by
  obtain ⟨spans, previous, loading, opening, windows, growing, progress, saving, located, loads, opens,
    grows, saves, houtcome, rfl⟩ := stages_of_course course
  obtain ⟨before, behind⟩ := quiet_of_stages loads opens saves outcome.windowReached
    outcome.isAccepted
  rw [nothing] at opens grows houtcome
  cases grows
  cases opens with
  | none replaces => exact absurd rfl replaces
  | unchanged _ verdict =>
      constructor
      · rw [List.append_nil, ← List.cons_append]
        exact List.forall_mem_append.2 ⟨before, behind⟩
      · have same : verdict =
            judge (.unchanged unit) ((Variant.unchanged unit).fileName unit) := by
          apply judged
          exact List.mem_cons_of_mem _ (List.mem_append_left _ (List.mem_append_left _
            (List.mem_append_right _ List.mem_cons_self)))
        rw [houtcome, same]
        rfl

/-- A rerun over an archive that records windows comes to an outcome. It takes over as many of them as
it is told to, without an exchange, and goes on from there. -/
theorem replays_of_course {again : WorkSettings} {mergeBack count : Nat} {final : Archive}
    {result : Except Failure UnitOutcome} (sound : archive.Sound unit.id)
    (retains : archive.Retains unit.id) (left : archive.checkpoints unit.id = some checkpoint)
    (located : locate unit.text unit.functions = .ok spans)
    (records : checkpoint.Records archive unit spans judge windows)
    (cached : again.useCache = true) (kept : again.keepsCheckpoints = true)
    (course : Course (onUnit again unit mergeBack) happenings result)
    (steps : Archive.Steps Archive.Answers archive happenings final)
    (judged : JudgedBy judge happenings) (replaces : min mergeBack unit.count ≠ 0)
    (within : count ≤ windows.length) (asks : count ≤ min mergeBack unit.count) :
    ∃ progress reached before rest closing,
      result = .ok (progress.outcome unit (min mergeBack unit.count)) ∧
      happenings = before ++ rest ++ closing ∧
      (∀ happening ∈ before, happening.1.exchanges = false) ∧
      (∀ variant fileName verdict, ⟨.validate variant fileName, verdict⟩ ∈ before →
        variant.window ≤ count) ∧
      (∀ happening ∈ closing, happening.1.exchanges = false) ∧
      checkpoint.Replays windows count reached ∧
      Grows again unit spans (some checkpoint)
        (List.range' (count + 1) (min mergeBack unit.count - count)) reached rest (.ok progress) := by
  have taken : Archive.Steps Archive.Step archive happenings final := steps.mono .inl
  obtain ⟨-, -, outcome, rfl⟩ := Archive.outcome_of_run sound retains located course steps
  obtain ⟨spans', previous, loading, opening, opened, growing, progress, saving, found, loads, opens,
    grows, saves, rfl, rfl⟩ := stages_of_course course
  obtain rfl := Except.ok.inj (located.symm.trans found)
  have numbered : Numbered (some checkpoint) := left ▸ sound.numbered
  have same : previous = some checkpoint := by
    rw [List.append_assoc, List.append_assoc] at taken
    exact (previous_of_cached loads cached kept taken).trans left
  subst same
  have later := records.of_within (Archive.within_of_steps taken)
  have part : growing ⊆ told (.unitStarted unit.id unit.count (min mergeBack unit.count)) ::
      (loading ++ opening ++ growing ++ (saving ++ [told (.unitFinished unit.id
        (progress.outcome unit (min mergeBack unit.count)).windowReached
        (progress.outcome unit (min mergeBack unit.count)).isAccepted)])) :=
    fun _ member => by simp [member]
  have bornOut := (Archive.bornOut_of_steps taken (.refl final)).of_subset part
  have listed : ∀ ordinal attempt, 1 ≤ ordinal → ordinal ≤ windows.length →
      checkpoint.selection.get? ordinal = some attempt →
      ∀ stored, ⟨.attempts unit.id ordinal, .ok stored⟩ ∈ growing → attempt ∈ stored := by
    intro ordinal attempt positive hle hget stored member
    exact Archive.mem_of_has taken (records.stored ordinal attempt positive hle hget) (part member)
  obtain ⟨before, behind⟩ := quiet_of_stages loads opens saves
    (progress.outcome unit (min mergeBack unit.count)).windowReached
    (progress.outcome unit (min mergeBack unit.count)).isAccepted
  -- The unit's own text is judged only where nothing is to be replaced.
  cases opens with
  | unchanged none => exact absurd none replaces
  | none =>
      have start : checkpoint.Replays windows 0 ⟨∅, ∅, [], none⟩ :=
        { reached_zero [] with
          selection := fun ordinal positive hle => by omega
          windows := rfl
          goesOn := rfl }
      have split : min mergeBack unit.count = count + (min mergeBack unit.count - count) := by omega
      rw [split] at grows
      obtain ⟨reached, replaying, rest, rfl, hreplaying, replays, growing⟩ := replays_of_grows grows
        cached numbered later (by omega) listed bornOut (judged.of_subset part) start
      rw [Nat.zero_add] at hreplaying replays growing
      refine ⟨progress, reached,
        told (.unitStarted unit.id unit.count (min mergeBack unit.count)) ::
          (loading ++ [] ++ replaying), rest, _, rfl, ?_, ?_, ?_, behind, replays, growing⟩
      · simp
      · rw [← List.cons_append]
        exact List.forall_mem_append.2 ⟨before, fun happening member => (hreplaying happening member).1⟩
      · intro variant fileName verdict member
        rw [← List.cons_append] at member
        rcases List.mem_append.1 member with outside | inside
        · cases loads
          simp [told] at outside
        · obtain ⟨ordinal, hle, own⟩ := (hreplaying _ inside).2
          exact Nat.le_trans (Nat.le_of_eq own) hle

/-- A rerun that takes over recorded windows, and no more, is accepted. -/
theorem isAccepted_of_replays {count : Nat} {reached : Progress}
    (records : checkpoint.Records archive unit spans judge windows)
    (replays : checkpoint.Replays windows count reached) (positive : count ≠ 0)
    (within : count ≤ windows.length) : (reached.outcome unit count).isAccepted = true := by
  have place : count - 1 < windows.length := by omega
  have last : reached.windows.getLast? = some windows[count - 1] := by
    rw [replays.windows, List.getLast?_take, if_neg positive, List.getElem?_eq_getElem place]
    rfl
  have own : windows[count - 1].window = count := by
    rw [records.window_getElem place]
    omega
  have accepted := records.accepted _ (List.getElem_mem place)
  simp [UnitOutcome.isAccepted, UnitOutcome.windowReached, UnitOutcome.verdict?, Progress.outcome,
    replays.goesOn, last, own, accepted]

theorem asked_of_quiet (quiet : ∀ happening ∈ happenings, happening.1.exchanges = false) :
    asked happenings = [] := by
  unfold asked
  rw [List.filterMap_eq_nil_iff]
  rintro ⟨action, answer⟩ member
  have silent := quiet _ member
  cases action <;> first | rfl | cases silent

theorem log_of_quiet {after : Archive}
    (steps : Archive.Steps Archive.Answers archive happenings after)
    (quiet : ∀ happening ∈ happenings, happening.1.exchanges = false) : after.log = archive.log := by
  apply Archive.log_of_steps (steps.mono .inl)
  rintro ⟨action, answer⟩ member id ordinal text rfl
  cases quiet _ member

/-- What a run left is there as long as no other checkpoint of the unit is saved, and is borne out. -/
theorem left_of_run {mergeBack : Nat} {after later : Archive} {others : List Happening}
    {result : Except Failure UnitOutcome} (chronicle : Chronicle archive)
    (course : Course (onUnit settings unit mergeBack) happenings result)
    (steps : Archive.Steps Archive.Step archive happenings after)
    (between : Archive.Steps Archive.Step after others later)
    (unsaved : ∀ happening ∈ others, ∀ selection repairs,
      happening.1 ≠ .saveCheckpoint unit.id selection repairs) :
    after.Within later ∧ later.checkpoints unit.id = after.checkpoints unit.id ∧
      later.Sound unit.id ∧ later.Retains unit.id := by
  have within := Archive.within_of_steps between
  have same := Archive.checkpoints_of_steps between unsaved
  have sound := (chronicle.sound unit.id).of_run course steps
  have retains := (chronicle.retains unit.id).of_run (chronicle.sound unit.id) course steps
  exact ⟨within, same, sound.of_within within same, retains.of_within within same⟩

/-- Behind a run that was accepted and left its checkpoint, whatever happens then except that another
checkpoint of the unit is saved, a run on the same unit that may use checkpoints, is told to replace
no more functions, and has its variants judged alike, comes to an outcome. It asks for nothing and
stores nothing. If it replaces functions, or the first run replaced none, it is accepted, and its
windows are those of the first run; a run that is to replace none judges the unit's own text. -/
theorem rerun_replays_accepted_windows {again : WorkSettings} {mergeBack fewer : Nat}
    {after later final : Archive} {others rerun : List Happening} {outcome : UnitOutcome}
    {result : Except Failure UnitOutcome} (chronicle : Chronicle archive)
    (course : Course (onUnit settings unit mergeBack) happenings (.ok outcome))
    (steps : Archive.Steps Archive.Step archive happenings after)
    (kept : settings.keepsCheckpoints = true) (accepted : outcome.isAccepted = true)
    (between : Archive.Steps Archive.Step after others later)
    (unsaved : ∀ happening ∈ others, ∀ selection repairs,
      happening.1 ≠ .saveCheckpoint unit.id selection repairs)
    (cached : again.useCache = true) (keeps : again.keepsCheckpoints = true)
    (less : fewer ≤ mergeBack) (recourse : Course (onUnit again unit fewer) rerun result)
    (resteps : Archive.Steps Archive.Answers later rerun final)
    (judged : JudgedBy judge (happenings ++ rerun)) :
    ∃ replayed, result = .ok replayed ∧ replayed.windowRequested = min fewer unit.count ∧
      asked rerun = [] ∧ final.log = later.log ∧
      (replayed.windowRequested ≠ 0 → replayed.isAccepted = true ∧
        replayed.windows = outcome.windows.take replayed.windowRequested) ∧
      (outcome.windowRequested = 0 → replayed.isAccepted = true ∧
        replayed.windows = outcome.windows) ∧
      (replayed.windowRequested = 0 → replayed.windows = [⟨0, .unchanged unit,
        judge (.unchanged unit) ((Variant.unchanged unit).fileName unit)⟩]) := by
  obtain ⟨within, same, sound, retains⟩ := left_of_run chronicle course steps between unsaved
  have first : JudgedBy judge happenings := judged.of_subset (List.subset_append_left _ _)
  have second : JudgedBy judge rerun := judged.of_subset (List.subset_append_right _ _)
  have requested := windowRequested_of_course course
  -- A run that is to replace nothing has no window of the first run to take over.
  by_cases nothing : min fewer unit.count = 0
  · obtain ⟨_, _, _, _, _, _, _, _, located, -⟩ := stages_of_course course
    obtain ⟨-, -, replayed, rfl⟩ :=
      Archive.outcome_of_run sound retains located recourse resteps
    obtain ⟨quiet, rfl⟩ := unreplaced_of_course recourse second nothing
    refine ⟨_, rfl, nothing.symm, asked_of_quiet quiet, log_of_quiet resteps quiet, ?_, ?_, ?_⟩
    · exact fun replaces => absurd rfl replaces
    · intro none
      obtain ⟨-, rfl⟩ := unreplaced_of_course course first (requested.symm.trans none)
      exact ⟨accepted, rfl⟩
    · exact fun _ => rfl
  · have replaces : outcome.windowRequested ≠ 0 := by
      rw [requested]
      omega
    obtain ⟨spans, checkpoint, last, located, left, -, length, records, all, -⟩ :=
      records_of_course (chronicle.sound unit.id) kept course steps first replaces
    have goesOn : outcome.haltedAt = none := by
      simp only [UnitOutcome.isAccepted, Bool.and_eq_true, Option.isNone_iff_eq_none] at accepted
      exact accepted.1.1
    obtain ⟨hlast, -⟩ := all goesOn
    have asks : min fewer unit.count ≤ last := by omega
    have fits : min fewer unit.count ≤ (outcome.windows.take last).length := by
      rw [length]
      exact asks
    obtain ⟨progress, reached, before, rest, closing, rfl, rfl, hbefore, -, hclosing, replays, grows⟩ :=
      replays_of_course sound retains (same.trans left) located (records.of_within within)
        cached keeps recourse resteps second nothing fits (Nat.le_refl _)
    rw [Nat.sub_self] at grows
    cases grows
    have quiet : ∀ happening ∈ before ++ [] ++ closing, happening.1.exchanges = false := by
      rw [List.append_nil]
      exact List.forall_mem_append.2 ⟨hbefore, hclosing⟩
    have windows : progress.windows = outcome.windows.take (min fewer unit.count) := by
      rw [replays.windows, List.take_take, Nat.min_eq_left asks]
    refine ⟨_, rfl, rfl, asked_of_quiet quiet, log_of_quiet resteps quiet, ?_, ?_, ?_⟩
    · intro _
      exact ⟨isAccepted_of_replays records replays nothing fits, windows⟩
    · exact fun none => absurd none replaces
    · exact fun none => absurd none nothing

/-- A candidate is accepted only once it was repaired, and then another one is put; the next run, which may
not repair, takes the one that was accepted. -/
theorem rerun_replays_repaired_window :
    let unit : SourceUnit := ⟨"f.c", "int f(void) { return 1; }", ["f"], 1⟩
    let judge : Variant → String → Verdict := fun variant _ =>
      if variant.provenance.get? 1 = some 2 then .compiled [] [] .zero .succeeded "" else .malformed []
    ∃ archive happenings outcome after later rerun replayed final, Chronicle archive ∧
      Course (onUnit ⟨⟨1, true, 30⟩, false, true⟩ unit 1) happenings (.ok outcome) ∧
      Archive.Steps Archive.Step archive happenings after ∧ outcome.isAccepted = true ∧
      Archive.Steps Archive.Step after [⟨.put unit.id 1 "y", .ok 3⟩] later ∧
      Course (onUnit ⟨⟨0, false, 30⟩, true, true⟩ unit 1) rerun (.ok replayed) ∧
      Archive.Steps Archive.Answers later rerun final ∧ JudgedBy judge (happenings ++ rerun) ∧
      asked rerun = [] ∧ final.log = later.log ∧ replayed.isAccepted = true ∧
      replayed.windows = outcome.windows.take 1 := by
  intro unit judge
  let handler := Archive.answering (fun _ => .answer (.ok "x")) judge
  let start : Archive := ⟨.empty, fun _ => none⟩
  let first : Work UnitOutcome := onUnit ⟨⟨1, true, 30⟩, false, true⟩ unit 1
  let second : Work UnitOutcome := onUnit ⟨⟨0, false, 30⟩, true, true⟩ unit 1
  have chronicle : Chronicle start := .start start fun _ => rfl
  have steps := Archive.steps_answering (fun _ => .answer (.ok "x")) judge first start
  have came : (first.run handler start).1.toOption.any (·.isAccepted) = true ∧
      (first.run handler start).2.log.texts unit.id 1 = ["x", "x"] := by decide +kernel
  obtain ⟨outcome, -, course, accepted⟩ := course_of_run came.1
  have texts := came.2
  obtain ⟨later, put, -⟩ :=
    (first.run handler start).2.exists_puts unit.id "y" Nat.one_ne_zero
  rw [texts] at put
  have between := Archive.Steps.cons put (.nil later)
  have judged : JudgedBy judge (first.trace handler start ++ second.trace handler later) :=
    (judgedBy_answering _ judge first start).append (judgedBy_answering _ judge second later)
  have resteps := Archive.steps_answering (fun _ => .answer (.ok "x")) judge second later
  obtain ⟨replayed, hreplayed, requested, unasked, unchanged, replays, -, -⟩ :=
    rerun_replays_accepted_windows chronicle course (steps.mono .inl) rfl accepted between
      (by simp) rfl rfl (Nat.le_refl 1) (course_trace handler second later) resteps judged
  have recourse := course_trace handler second later
  rw [hreplayed] at recourse
  have one : replayed.windowRequested = 1 := requested
  obtain ⟨again, windows⟩ := replays (by simp [one])
  rw [one] at windows
  exact ⟨start, _, outcome, _, later, _, replayed, _, chronicle, course, steps.mono .inl, accepted,
    between, recourse, resteps, judged, unasked, unchanged, again, windows⟩

/-- A validator may accept the variant of a window and reject the unit's own text; then a run that is to
replace nothing is rejected behind one that was accepted. -/
theorem rerun_without_functions_rejected :
    let unit : SourceUnit := ⟨"f.c", "int f(void) { return 1; }", ["f"], 1⟩
    let judge : Variant → String → Verdict := fun variant _ =>
      if variant.window = 1 then .compiled [] [] .zero .succeeded "" else .malformed []
    ∃ archive happenings outcome after rerun replayed final, Chronicle archive ∧
      Course (onUnit ⟨⟨1, true, 30⟩, true, true⟩ unit 1) happenings (.ok outcome) ∧
      Archive.Steps Archive.Step archive happenings after ∧ outcome.isAccepted = true ∧
      Course (onUnit ⟨⟨1, true, 30⟩, true, true⟩ unit 0) rerun (.ok replayed) ∧
      Archive.Steps Archive.Answers after rerun final ∧ JudgedBy judge (happenings ++ rerun) ∧
      replayed.isAccepted = false ∧ replayed.windows = [⟨0, .unchanged unit, .malformed []⟩] := by
  intro unit judge
  let handler := Archive.answering (fun _ => .answer (.ok "x")) judge
  let start : Archive := ⟨.empty, fun _ => none⟩
  let first : Work UnitOutcome := onUnit ⟨⟨1, true, 30⟩, true, true⟩ unit 1
  let second : Work UnitOutcome := onUnit ⟨⟨1, true, 30⟩, true, true⟩ unit 0
  let left : Archive := (first.run handler start).2
  have chronicle : Chronicle start := .start start fun _ => rfl
  have steps := Archive.steps_answering (fun _ => .answer (.ok "x")) judge first start
  have came : (first.run handler start).1.toOption.any (·.isAccepted) = true := by decide +kernel
  obtain ⟨outcome, -, course, accepted⟩ := course_of_run came
  have judged : JudgedBy judge (first.trace handler start ++ second.trace handler left) :=
    (judgedBy_answering _ judge first start).append (judgedBy_answering _ judge second left)
  have resteps := Archive.steps_answering (fun _ => .answer (.ok "x")) judge second left
  have recourse := course_trace handler second left
  have later : Chronicle left := .run chronicle course (steps.mono .inl)
  have located : locate unit.text unit.functions = .ok Sample.spans := Sample.located
  obtain ⟨-, -, replayed, same⟩ := Archive.outcome_of_run (later.sound unit.id)
    (later.retains unit.id) located recourse resteps
  rw [same] at recourse
  obtain ⟨-, rfl⟩ := unreplaced_of_course recourse
    (judged.of_subset (List.subset_append_right _ _)) (Nat.zero_min _)
  exact ⟨start, _, outcome, left, _, _, _, chronicle, course, steps.mono .inl, accepted, recourse,
    resteps, judged, rfl, rfl⟩

end Work

end Graft
