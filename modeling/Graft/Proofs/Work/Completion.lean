import Graft.Proofs.Code.Located
import Graft.Proofs.Variant.Merging
import Graft.Proofs.Work.Reads

/-!
Runs come to an outcome. Work on a unit whose functions are located fails only where an answer is an
error (`interrupted_of_runs`): the selections that it merges have no gap. And an archive to which runs
can come answers none with an error, as the work reads only candidates that were put or listed
(`not_interrupted`). `run_comes_to_outcome` puts both together.
-/

namespace Graft

open Code Generation Work

/-- A selection for the ordinals from one up to a last function of the unit passes the check. -/
theorem Variant.check_eq_ok {unit : SourceUnit} {spans : List Span} {selection : Selection} {last : Nat}
    (located : locate unit.text unit.functions = .ok spans)
    (selected : OrdinalMap.keys selection = List.range' 1 last) (within : last ≤ unit.count) :
    check unit spans selection = .ok () := by
  unfold check
  rw [checkSpans_of_locate located]
  exact checkSelection_of_selected selected within

namespace Work

def isError : Happening → Bool
  | ⟨.put .., .error _⟩ => true
  | ⟨.get .., .error _⟩ => true
  | ⟨.attempts .., .error _⟩ => true
  | ⟨.loadCheckpoint .., .error _⟩ => true
  | ⟨.saveCheckpoint .., .error _⟩ => true
  | _ => false

def Interrupted (happenings : List Happening) : Prop := ∃ happening ∈ happenings, isError happening = true

theorem Interrupted.of_subset {happenings rest : List Happening} (interrupted : Interrupted rest)
    (part : rest ⊆ happenings) : Interrupted happenings := by
  obtain ⟨happening, member, error⟩ := interrupted
  exact ⟨happening, part member, error⟩

variable {policy : Policy} {settings : WorkSettings} {unit : SourceUnit} {spans : List Span}
  {happenings : List Happening} {previous : Option Checkpoint} {failure : Failure}

theorem interrupted_of_firstCalls {request : Request} {remaining : Nat} {state : RepairState}
    (calls : FirstCalls policy request remaining state happenings (.error failure)) :
    Interrupted happenings := by
  generalize hresult : Except.error failure = result at calls
  induction calls with
  | spent => cases hresult
  | notStored error => exact ⟨_, List.mem_cons_of_mem _ List.mem_cons_self, rfl⟩
  | stored => cases hresult
  | rejected => cases hresult
  | again taken herror later ih =>
      apply (ih hresult).of_subset
      intro happening member
      simp [member]

theorem interrupted_of_generates {ordinal : Nat} {repairs : OrdinalMap RepairState}
    (generates : Generates policy unit spans ordinal repairs happenings (.error failure)) :
    Interrupted happenings := by
  obtain ⟨found, calls, hresult⟩ := generates
  cases found with
  | ok => cases hresult
  | error => exact interrupted_of_firstCalls calls

theorem interrupted_of_firstAttempt {ordinal : Nat} {repairs : OrdinalMap RepairState} {useCache : Bool}
    (attempts : FirstAttempt policy unit spans ordinal previous repairs useCache happenings
      (.error failure)) : Interrupted happenings := by
  cases attempts with
  | uncached generates => exact interrupted_of_generates generates
  | unlisted error => exact ⟨_, List.mem_cons_self, rfl⟩
  | lost restored goesOn generates =>
      exact (interrupted_of_generates generates).of_subset (List.subset_cons_self _ _)
  | fresh notRestored choice generates =>
      exact (interrupted_of_generates generates).of_subset (List.subset_cons_self _ _)

theorem interrupted_of_fetches {id : UnitId} {entries : List (Nat × Nat)}
    (fetches : Fetches id entries happenings (.error failure)) : Interrupted happenings := by
  generalize hresult : Except.error failure = result at fetches
  induction fetches with
  | nil => cases hresult
  | missing error => exact ⟨_, List.mem_cons_self, rfl⟩
  | @cons _ _ _ _ _ found later ih =>
      cases found with
      | ok => cases hresult
      | error found =>
          obtain rfl := Except.error.inj hresult
          exact (ih rfl).of_subset (List.subset_cons_self _ _)

/-- Merging a selection without gaps fails only where a candidate cannot be read. -/
theorem interrupted_of_merges {last : Nat} {selection : Selection}
    (merges : Merges unit spans selection happenings (.error failure))
    (located : locate unit.text unit.functions = .ok spans)
    (selected : OrdinalMap.keys selection = List.range' 1 last) (within : last ≤ unit.count) :
    Interrupted happenings := by
  have fits := Variant.check_eq_ok located selected within
  generalize hresult : Except.error failure = result at merges
  cases merges with
  | unfit check =>
      rw [fits] at check
      cases check
  | @fetched _ found check fetches =>
      cases found with
      | ok => cases hresult
      | error => exact interrupted_of_fetches fetches

theorem interrupted_of_mendCalls {last remaining : Nat} {mending : Mending}
    (calls : MendCalls policy unit spans remaining mending happenings (.error failure))
    (located : locate unit.text unit.functions = .ok spans) (h : mending.At last)
    (within : last ≤ unit.count) : Interrupted happenings := by
  generalize hresult : Except.error failure = result at calls
  induction calls with
  | spent => cases hresult
  | priorMissing mending error => exact ⟨_, List.mem_cons_of_mem _ List.mem_cons_self, rfl⟩
  | rejected => cases hresult
  | unanswered mending prior taken herror later ih =>
      apply (ih (h.unanswered _) hresult).of_subset
      exact List.subset_append_of_subset_right _ (List.subset_cons_self _ _)
  | notStored mending prior error taken =>
      exact ⟨_, List.mem_append_right _ List.mem_cons_self, rfl⟩
  | notMerged mending prior attempt taken merges =>
      apply (interrupted_of_merges merges located (h.keys_select attempt) within).of_subset
      exact List.subset_append_right _ _
  | accepted => cases hresult
  | stillFailing mending prior attempt taken merges notAccepted later ih =>
      apply (ih (h.stillFailing attempt _ _) hresult).of_subset
      intro happening member
      simp [member]

/-- A window of a unit whose functions are located fails only where an answer is an error. -/
theorem interrupted_of_window {last : Nat} {progress : Progress}
    (window : Window settings unit spans previous (last + 1) progress happenings (.error failure))
    (located : locate unit.text unit.functions = .ok spans) (hprevious : Numbered previous)
    (reached : Reached last progress) (within : last + 1 ≤ unit.count) : Interrupted happenings := by
  generalize hresult : Except.error failure = result at window
  cases window with
  | noFirst attempts => exact interrupted_of_firstAttempt attempts
  | noAttempt => cases hresult
  | @settled attempt _ _ _ _ attempts settles =>
      have numbered := numbered_of_firstAttempt attempts hprevious reached.numbered
      have hselected := keys_insert_succ reached.selected attempt
      suffices hsettling : Interrupted _ from hsettling.of_subset (List.subset_append_right _ _)
      cases settles with
      | notMerged merges => exact interrupted_of_merges merges located hselected within
      | accepted => cases hresult
      | @rejected _ mending _ _ mended merges notAccepted mends =>
          cases mended with
          | ok => cases hresult
          | error other =>
              have hmending : Interrupted mending := by
                generalize hfailed : Except.error other = found at mends
                cases mends with
                | unwanted => cases hfailed
                | wanted fix calls =>
                    subst hfailed
                    exact interrupted_of_mendCalls calls located
                      ⟨Nat.succ_pos last, ordinal_repairFor numbered, hselected⟩ within
              apply hmending.of_subset
              intro happening member
              simp [member]

theorem interrupted_of_grows {last count : Nat} {progress : Progress}
    (grows : Grows settings unit spans previous (List.range' (last + 1) count) progress happenings
      (.error failure))
    (located : locate unit.text unit.functions = .ok spans) (hprevious : Numbered previous)
    (reached : Reached last progress) (within : last + count ≤ unit.count) :
    Interrupted happenings := by
  induction count generalizing last progress happenings with
  | zero => cases grows
  | succ count ih =>
      rw [List.range'_succ] at grows
      cases grows with
      | failed window =>
          exact interrupted_of_window window located hprevious reached (by omega)
      | further window goesOn later =>
          have further := reached_of_window window hprevious reached goesOn
          have rest := ih later further (by omega)
          exact rest.of_subset (List.subset_append_right _ _)

/-- A run on a unit whose functions are located fails only where an answer is an error. -/
theorem interrupted_of_runs {mergeBack : Nat}
    (runs : Runs settings unit mergeBack happenings (.error failure))
    (located : locate unit.text unit.functions = .ok spans)
    (restoring : Restoring settings unit happenings) : Interrupted happenings := by
  cases runs with
  | notLocated other =>
      rw [located] at other
      cases other
  | notLoaded other loads =>
      cases loads
      exact ⟨_, List.mem_cons_of_mem _ List.mem_cons_self, rfl⟩
  | @loaded spans' loading opening growing closing previous windows grown _ other loads opens grows
      closes =>
      obtain rfl := Except.ok.inj (located.symm.trans other)
      have restores := restoring previous (.unitStarted unit.id unit.count (min mergeBack unit.count))
        loading (opening ++ growing ++ closing) (by simp only [List.append_assoc]) loads
      have hprevious := restores.numbered
      cases closes with
      | notGrown =>
          have broken : Interrupted growing := interrupted_of_grows grows located hprevious
            (reached_zero windows) (by omega)
          apply broken.of_subset
          intro happening member
          simp [member]
      | notSaved saves =>
          cases saves
          exact ⟨_, List.mem_cons_of_mem _ (List.mem_append_right _ List.mem_cons_self), rfl⟩

end Work

namespace Archive

variable {settings : WorkSettings} {unit : SourceUnit} {spans : List Span} {mergeBack : Nat}
  {happenings : List Happening} {archive after : Archive} {result : Except Failure UnitOutcome}

/-- An archive answers a put at a function and a read of what it has without an error. -/
theorem isError_of_answers {happening : Happening} (answers : archive.Answers happening after)
    (puts : ∀ id ordinal text, happening.1 = .put id ordinal text → ordinal ≠ 0)
    (reads : ∀ id ordinal attempt, happening.1 = .get id ordinal attempt →
      archive.log.Has id ordinal attempt) : isError happening = false := by
  cases answers with
  | put id ordinal text =>
      rw [CandidateLog.putVerified_eq, if_neg (puts id ordinal text rfl)]
      rfl
  | get id ordinal attempt =>
      obtain ⟨positive, stored⟩ := reads id ordinal attempt rfl
      have place : attempt - 1 < (archive.log.texts id ordinal).length := by omega
      have found : CandidateLog.store.get id ordinal attempt archive.log =
          .ok (archive.log.texts id ordinal)[attempt - 1] := by
        rw [CandidateLog.get_eq_ok_iff]
        exact ⟨by omega, List.getElem?_eq_getElem place⟩
      rw [found]
      rfl
  | _ => rfl

/-- What a run uses is stored when it uses it. -/
theorem has_of_usesKnown {id : UnitId} {before later : List Happening} {happening : Happening}
    {ordinal attempt : Nat} (steps : Steps Answers archive (before ++ happening :: later) after)
    (known : Known id before ordinal attempt) :
    ∃ now, Steps Answers archive before now ∧ now.log.Has id ordinal attempt := by
  obtain ⟨now, first, -⟩ := steps_append_iff.1 steps
  exact ⟨now, first, has_of_known (first.mono .inl) known⟩

/-- Work that uses what it was told of, and puts candidates at functions only, is answered without an
error. -/
theorem not_interrupted (steps : Steps Answers archive happenings after)
    (uses : UsesKnown unit.id [] happenings)
    (puts : ∀ happening ∈ happenings, ∀ id ordinal text,
      happening.1 = .put id ordinal text → ordinal ≠ 0) : ¬Interrupted happenings := by
  rintro ⟨happening, member, error⟩
  obtain ⟨before, later, rfl⟩ := List.append_of_mem member
  obtain ⟨now, first, rest⟩ := steps_append_iff.1 steps
  obtain ⟨next, answers, -⟩ := steps_cons_iff.1 rest
  have used := uses.of_split
  have fine := isError_of_answers answers (puts happening member) (by
    intro id ordinal attempt action
    rw [List.nil_append, action] at used
    obtain ⟨rfl, known⟩ := used
    exact has_of_known (first.mono .inl) known)
  rw [fine] at error
  cases error

/-- In a run over an archive to which runs can come, each candidate that is put is put at a function. -/
theorem positive_of_put (numbered : Numbered (archive.checkpoints unit.id))
    (runs : Runs settings unit mergeBack happenings result)
    (steps : Steps Step archive happenings after) :
    ∀ happening ∈ happenings, ∀ id ordinal text, happening.1 = .put id ordinal text → ordinal ≠ 0 := by
  rintro ⟨action, answer⟩ member id ordinal text rfl
  cases runs with
  | notLocated => cases member
  | notLoaded located loads =>
      cases loads
      simp [told] at member
  | @loaded _ loading opening growing closing previous windows _ _ located loads opens grows closes =>
      have hprevious := numbered_of_restored numbered (previous_of_loads loads steps)
      simp only [List.mem_cons, List.mem_append] at member
      rcases member with h | ((h | h) | h) | h
      · simp [told] at h
      · cases loads <;> simp at h
      · cases opens <;> simp [told, toldVerdict] at h
      · obtain ⟨place, positive, -, same⟩ :=
          (concerns_of_grows grows hprevious (reached_zero windows) rfl).1 _ h
        omega
      · cases closes with
        | notGrown => cases h
        | notSaved saves =>
            cases saves
            simp at h
        | finished saves => cases saves <;> simp [told] at h

/-- A run that is answered without failures, over an archive to which runs can come, uses what it was
told of and comes to an outcome. -/
theorem outcome_of_run (sound : archive.Sound unit.id) (retains : archive.Retains unit.id)
    (located : locate unit.text unit.functions = .ok spans)
    (course : Course (onUnit settings unit mergeBack) happenings result)
    (steps : Steps Answers archive happenings after) :
    UsesKnown unit.id [] happenings ∧ ¬Interrupted happenings ∧ ∃ outcome, result = .ok outcome := by
  have taken : Steps Step archive happenings after := steps.mono .inl
  have runs := runs_of_course course
  have restoring : Restoring settings unit happenings := restoring_of_archive sound retains taken
  have uses := usesKnown_of_runs runs restoring
  have fine := not_interrupted steps uses (positive_of_put sound.numbered runs taken)
  refine ⟨uses, fine, ?_⟩
  cases result with
  | ok outcome => exact ⟨outcome, rfl⟩
  | error failure => exact absurd (interrupted_of_runs runs located restoring) fine

end Archive

/-- Wherever runs of a unit can come, what the repairs of its checkpoint tried is stored. -/
theorem History.retains {unit : SourceUnit} {archive : Archive} (history : History unit archive) :
    archive.Retains unit.id := by
  induction history with
  | start archive none => exact Archive.retains_of_none none
  | put history id ordinal text ih => exact ih.of_within (Archive.within_put _ id ordinal text) rfl
  | run history course steps ih => exact ih.of_run history.sound course steps

namespace Work

variable {unit : SourceUnit} {spans : List Span}

/-- In a world whose store and files answer without failures, behind any runs of a unit and with any
candidates put in between, a run on the unit comes to an outcome if its functions are located. Each
candidate that it reads is there; each variant that it validates is made of one attempt for each
function up to its window, and these are stored by then. -/
theorem run_comes_to_outcome {ω : Type} {handler : Handler ω} {view : ω → Archive} {world : ω}
    (answers : ∀ action world, (view world).Answers ⟨action, (handler action world).1⟩
      (view (handler action world).2))
    (history : History unit (view world)) (located : locate unit.text unit.functions = .ok spans)
    (settings : WorkSettings) (mergeBack : Nat) :
    (∃ outcome, ((onUnit settings unit mergeBack).run handler world).1 = .ok outcome) ∧
    (∀ id ordinal attempt answer,
      ⟨.get id ordinal attempt, answer⟩ ∈ (onUnit settings unit mergeBack).trace handler world →
      id = unit.id ∧ ∃ text, answer = .ok text) ∧
    ∀ before variant fileName verdict later,
      (onUnit settings unit mergeBack).trace handler world =
        before ++ ⟨.validate variant fileName, verdict⟩ :: later →
      OrdinalMap.keys variant.provenance = List.range' 1 variant.window ∧
        ∀ ordinal attempt, variant.provenance.get? ordinal = some attempt →
          ∃ now, Archive.Steps Archive.Answers (view world) before now ∧
            now.log.Has unit.id ordinal attempt := by
  have course := course_trace handler (onUnit settings unit mergeBack) world
  have steps := Archive.steps_trace answers (onUnit settings unit mergeBack) world
  obtain ⟨uses, fine, comes⟩ :=
    Archive.outcome_of_run history.sound history.retains located course steps
  refine ⟨comes, ?_, ?_⟩
  · intro id ordinal attempt answer member
    constructor
    · obtain ⟨before, later, same⟩ := List.append_of_mem member
      rw [same] at uses
      exact uses.of_split.1
    · cases answer with
      | ok text => exact ⟨text, rfl⟩
      | error error => exact absurd ⟨_, member, rfl⟩ fine
  · intro before variant fileName verdict later same
    rw [same] at uses steps
    obtain ⟨complete, known⟩ := uses.of_split
    refine ⟨complete, fun ordinal attempt hget => ?_⟩
    exact Archive.has_of_usesKnown steps (known ordinal attempt hget)

/-- A run leaves a function whose candidate was rejected, and another candidate is put for it; the next
run goes on with this one and may repair it. -/
theorem run_comes_to_outcome_after_put :
    let unit : SourceUnit := ⟨"f.c", "int f(void) { return 1; }", ["f"], 1⟩
    let handler := Archive.answering (fun _ => .answer (.ok "x")) fun _ _ => .malformed []
    ∃ archive spans outcome, History unit archive ∧
      ((archive.checkpoints unit.id).isSome = true ∧ archive.log.texts unit.id 1 = ["x", "y"]) ∧
      locate unit.text unit.functions = .ok spans ∧
      (∀ action world, Archive.Answers world ⟨action, (handler action world).1⟩
        (handler action world).2) ∧
      ((onUnit ⟨⟨1, true, 30⟩, true, true⟩ unit 1).run handler archive).1 = .ok outcome := by
  intro unit handler
  let start : Archive := ⟨.empty, fun _ => none⟩
  let work : Work UnitOutcome := onUnit ⟨⟨1, false, 30⟩, true, true⟩ unit 1
  let archive : Archive := (work.run handler start).2.put unit.id 1 "y"
  have steps : Archive.Steps Archive.Answers start (work.trace handler start)
      (work.run handler start).2 := Archive.steps_answering _ _ _ start
  have history : History unit archive :=
    .put (.run (.start start rfl) (course_trace handler work start) (steps.mono .inl)) unit.id 1 "y"
  have left : (archive.checkpoints unit.id).isSome = true ∧
      archive.log.texts unit.id 1 = ["x", "y"] := by decide +kernel
  have located : locate unit.text unit.functions = .ok Sample.spans := Sample.located
  have answers : ∀ action world, Archive.Answers world ⟨action, (handler action world).1⟩
      (handler action world).2 := Archive.answers_answering _ _
  obtain ⟨⟨outcome, comes⟩, -⟩ := @run_comes_to_outcome unit _ Archive handler id archive answers
    history located ⟨⟨1, true, 30⟩, true, true⟩ 1
  exact ⟨archive, _, outcome, history, left, located, answers, comes⟩

end Work

end Graft
