import Graft.Proofs.Work.Grown

/-!
What runs find of earlier runs. `Archive.Sound` says that the repairs of a checkpoint stand under their
own ordinals, and that the attempts with which they have succeeded are stored; `History.sound` that
this is so in every archive to which runs can come.
-/

namespace Graft

open Code Work

namespace Archive

/-- That a checkpoint, if a unit has one, is borne out by the candidates that are stored. -/
structure Sound (unit : UnitId) (archive : Archive) : Prop where
  numbered : Numbered (archive.checkpoints unit)
  stored : ∀ ordinal state, (archive.checkpoints unit).bind (·.repairs.get? ordinal) = some state →
    state.status = .repaired → archive.log.Has unit ordinal state.lastTried

variable {archive after : Archive} {unit : UnitId} {happenings : List Happening}

theorem sound_of_none (h : archive.checkpoints unit = none) : archive.Sound unit where
  numbered := by simp [Numbered, h]
  stored := by simp [h]

theorem Sound.of_within (sound : archive.Sound unit) (within : archive.Within after)
    (same : after.checkpoints unit = archive.checkpoints unit) : after.Sound unit where
  numbered := same ▸ sound.numbered
  stored ordinal state restored repaired :=
    within.has (sound.stored ordinal state (same ▸ restored) repaired)

/-- The attempts with which the repairs of a sound checkpoint have succeeded are listed whenever
attempts are. -/
theorem Sound.lasting (sound : archive.Sound unit) (steps : Steps Step archive happenings after) :
    Lasting unit (archive.checkpoints unit) happenings :=
  fun ordinal state restored repaired _ member =>
    mem_of_has steps (sound.stored ordinal state restored repaired) member

theorem numbered_of_restored {previous : Option Checkpoint}
    (numbered : Numbered (archive.checkpoints unit))
    (restored : previous = none ∨ previous = archive.checkpoints unit) : Numbered previous := by
  rcases restored with rfl | rfl
  · simp [Numbered]
  · exact numbered

/-- A run goes on with the checkpoint that is there, or with none. -/
theorem restored_of_loads {settings : WorkSettings} {unit : SourceUnit} {previous : Option Checkpoint}
    (loads : Loads settings unit happenings (.ok previous))
    (steps : Steps Step archive happenings after) :
    previous = none ∨ previous = archive.checkpoints unit.id := by
  cases loads with
  | unused =>
      exact .inl rfl
  | loaded =>
      obtain ⟨_, step, -⟩ := steps_cons_iff.1 steps
      exact .inr (step_load step rfl)

end Archive

namespace Work

variable {settings : WorkSettings} {unit : SourceUnit} {spans : List Span} {requested : Nat}
  {happenings loading opening growing closing rest : List Happening}
  {previous : Option Checkpoint} {windows : List WindowOutcome} {archive after : Archive}

/-- A run goes on with the checkpoint that was there when it began, or with none. -/
theorem previous_of_loads {event : Event} (loads : Loads settings unit loading (.ok previous))
    (steps : Archive.Steps Archive.Step archive
      (told event :: (loading ++ opening ++ growing ++ closing)) after) :
    previous = none ∨ previous = archive.checkpoints unit.id := by
  obtain ⟨started, start, later⟩ := Archive.steps_cons_iff.1 steps
  have same : started.checkpoints unit.id = archive.checkpoints unit.id :=
    Archive.checkpoints_of_step start (by simp [told])
  rw [List.append_assoc, List.append_assoc] at later
  obtain ⟨_, first, -⟩ := Archive.steps_append_iff.1 later
  rw [← same]
  exact Archive.restored_of_loads loads first

/-- What a run restores from a sound archive is borne out by what is listed in its windows. -/
theorem lasting_of_loads {event : Event} (sound : archive.Sound unit.id)
    (loads : Loads settings unit loading (.ok previous))
    (steps : Archive.Steps Archive.Step archive
      (told event :: (loading ++ opening ++ growing ++ closing)) after) :
    Numbered previous ∧ Lasting unit.id previous growing := by
  rcases previous_of_loads loads steps with rfl | rfl
  · exact ⟨by simp [Numbered], by simp [Lasting]⟩
  · have lasting := sound.lasting steps
    exact ⟨sound.numbered, lasting.of_subset fun _ member => by simp [member]⟩

/-- What the windows of a run come to, from nothing on. -/
theorem cameTo_of_opens {progress : Progress} (opens : Opens unit requested opening windows)
    (grows : Grows settings unit spans previous (List.range' 1 requested) ⟨∅, ∅, windows, none⟩
      growing (.ok progress))
    (hprevious : Numbered previous) (lasting : Lasting unit.id previous growing) :
    (requested = 0 ∧ ∃ verdict, progress = ⟨∅, ∅, [⟨0, .unchanged unit, verdict⟩], none⟩) ∨
      requested ≠ 0 ∧ CameTo unit.id requested progress growing := by
  cases opens with
  | unchanged none verdict =>
      subst none
      cases grows
      exact .inl ⟨rfl, verdict, rfl⟩
  | none some =>
      have grown : Grown unit.id 0 ⟨∅, ∅, [], none⟩ [] := .zero
      have cameTo := cameTo_of_grows grows hprevious lasting grown
      rw [Nat.zero_add, List.nil_append] at cameTo
      exact .inr ⟨some, cameTo⟩

/-- A run saves nothing before its windows have come to an end. -/
theorem notSaved_of_grows {event : Event} {grown : Except Failure Progress}
    (loads : Loads settings unit loading (.ok previous))
    (opens : Opens unit requested opening windows)
    (grows : Grows settings unit spans previous (List.range' 1 requested) ⟨∅, ∅, windows, none⟩
      growing grown) (hprevious : Numbered previous) :
    ∀ happening ∈ told event :: (loading ++ opening ++ growing), ∀ selection repairs,
      happening.1 ≠ .saveCheckpoint unit.id selection repairs := by
  refine List.forall_mem_cons.2 ⟨by simp [told],
    List.forall_mem_append.2 ⟨List.forall_mem_append.2 ⟨?_, ?_⟩, ?_⟩⟩
  · cases loads <;> simp
  · cases opens <;> simp [told, toldVerdict]
  · rintro ⟨action, answer⟩ member selection repairs rfl
    obtain ⟨_, -, concerns⟩ :=
      (concerns_of_grows grows hprevious (reached_zero windows) rfl).1 _ member
    exact concerns

end Work

/-- A repair that has succeeded has done so with an attempt that was put or listed. -/
theorem CameTo.known {unit : UnitId} {requested : Nat} {progress : Progress}
    {happenings : List Happening} (cameTo : CameTo unit requested progress happenings)
    {ordinal : Nat} {state : RepairState} (hget : progress.repairs.get? ordinal = some state)
    (repaired : state.status = .repaired) : Known unit happenings ordinal state.lastTried := by
  cases cameTo with
  | all grown => exact grown.known _ _ (grown.repaired ordinal state hget).2
  | @halted last before within grown halts =>
      by_cases same : ordinal = last + 1
      · subst same
        obtain ⟨stopped, hstopped, exhausted⟩ := halts.exhausted
        obtain rfl := Option.some.inj (hstopped.symm.trans hget)
        simp [exhausted] at repaired
      · rw [halts.others ordinal same] at hget
        exact grown.known _ _ (grown.repaired ordinal state hget).2

namespace Archive

variable {settings : WorkSettings} {unit : SourceUnit} {mergeBack requested : Nat}
  {happenings closing : List Happening} {archive after : Archive}

/-- What a run ends with leaves the checkpoint as it is, or puts what the run came to in its place. -/
theorem checkpoint_of_closes {grown : Except Failure Progress} {result : Except Failure UnitOutcome}
    (closes : Closes settings unit requested grown closing result)
    (steps : Steps Step archive closing after) :
    after.checkpoints unit.id = archive.checkpoints unit.id ∨ ∃ progress updatedAt,
      grown = .ok progress ∧ after.checkpoints unit.id =
        some ⟨unit.id, progress.selection, progress.repairs, updatedAt⟩ := by
  have saved {progress : Progress} {answer : Except Failure Unit} {next : Archive}
      (step : archive.Step ⟨.saveCheckpoint unit.id progress.selection progress.repairs, answer⟩
        next) :
      next.checkpoints unit.id = archive.checkpoints unit.id ∨ ∃ updatedAt,
        next.checkpoints unit.id =
          some ⟨unit.id, progress.selection, progress.repairs, updatedAt⟩ := by
    rcases step_save step with rfl | ⟨updatedAt, rfl⟩
    · exact .inl rfl
    · exact .inr ⟨updatedAt, archive.checkpoints_keep _⟩
  cases closes with
  | notGrown =>
      obtain rfl := steps_nil_iff.1 steps
      exact .inl rfl
  | notSaved saves =>
      cases saves
      obtain ⟨_, save, rest⟩ := steps_cons_iff.1 steps
      obtain rfl := steps_nil_iff.1 rest
      refine (saved save).imp_right ?_
      rintro ⟨updatedAt, h⟩
      exact ⟨_, updatedAt, rfl, h⟩
  | finished saves =>
      obtain ⟨next, saving, telling⟩ := steps_append_iff.1 steps
      have same : after.checkpoints unit.id = next.checkpoints unit.id :=
        checkpoints_of_steps telling (by simp [told])
      rw [same]
      cases saves with
      | unkept =>
          obtain rfl := steps_nil_iff.1 saving
          exact .inl rfl
      | saved =>
          obtain ⟨_, save, rest⟩ := steps_cons_iff.1 saving
          obtain rfl := steps_nil_iff.1 rest
          refine (saved save).imp_right ?_
          rintro ⟨updatedAt, h⟩
          exact ⟨_, updatedAt, rfl, h⟩

/-- A run leaves the checkpoints of other units as they are. -/
theorem checkpoints_of_other {id : UnitId} {result : Except Failure UnitOutcome}
    (numbered : Numbered (archive.checkpoints unit.id))
    (course : Course (onUnit settings unit mergeBack) happenings result)
    (steps : Steps Step archive happenings after) (other : id ≠ unit.id) :
    after.checkpoints id = archive.checkpoints id := by
  apply checkpoints_of_steps steps
  rintro ⟨action, answer⟩ member selection repairs rfl
  cases runs_of_course course with
  | notLocated => simp at member
  | notLoaded located loads =>
      cases loads
      simp [told] at member
  | loaded located loads opens grows closes =>
      have hprevious := numbered_of_restored numbered (previous_of_loads loads steps)
      exact other (progress_of_mem loads opens grows closes hprevious member).1

/-- A run leaves the checkpoint as it is, or puts what its windows came to in the place of it. -/
theorem checkpoint_of_run {result : Except Failure UnitOutcome}
    (numbered : Numbered (archive.checkpoints unit.id))
    (course : Course (onUnit settings unit mergeBack) happenings result)
    (steps : Steps Step archive happenings after) :
    after.checkpoints unit.id = archive.checkpoints unit.id ∨
      ∃ spans previous opening windows growing progress updatedAt,
        (previous = none ∨ previous = archive.checkpoints unit.id) ∧
        Opens unit (min mergeBack unit.count) opening windows ∧
        Grows settings unit spans previous (List.range' 1 (min mergeBack unit.count))
          ⟨∅, ∅, windows, none⟩ growing (.ok progress) ∧ growing ⊆ happenings ∧
        after.checkpoints unit.id =
          some ⟨unit.id, progress.selection, progress.repairs, updatedAt⟩ := by
  cases runs_of_course course with
  | notLocated =>
      obtain rfl := steps_nil_iff.1 steps
      exact .inl rfl
  | notLoaded located loads =>
      exact .inl (checkpoints_of_steps steps (by cases loads; simp [told]))
  | @loaded _ loading opening growing closing previous windows _ _ located loads opens grows
      closes =>
      have restored := previous_of_loads loads steps
      have hprevious := numbered_of_restored numbered restored
      -- Nothing is saved before the windows have come to an end.
      rw [← List.cons_append] at steps
      obtain ⟨_, growth, ending⟩ := steps_append_iff.1 steps
      have same := checkpoints_of_steps growth (notSaved_of_grows loads opens grows hprevious)
      rw [← same]
      refine (checkpoint_of_closes closes ending).imp_right ?_
      rintro ⟨progress, updatedAt, rfl, h⟩
      rw [same]
      refine ⟨_, previous, opening, windows, growing, progress, updatedAt, restored, opens, grows,
        ?_, h⟩
      intro happening member
      simp [member]

/-- A run leaves a sound archive sound. -/
theorem Sound.of_run {result : Except Failure UnitOutcome} (sound : archive.Sound unit.id)
    (course : Course (onUnit settings unit mergeBack) happenings result)
    (steps : Steps Step archive happenings after) : after.Sound unit.id := by
  rcases checkpoint_of_run sound.numbered course steps with
    same | ⟨_, previous, opening, windows, growing, progress, _, restored, opens, grows, part, same⟩
  · exact sound.of_within (within_of_steps steps) same
  · obtain ⟨hprevious, lasting⟩ : Numbered previous ∧ Lasting unit.id previous growing := by
      rcases restored with rfl | rfl
      · exact ⟨by simp [Numbered], by simp [Lasting]⟩
      · exact ⟨sound.numbered, (sound.lasting steps).of_subset part⟩
    obtain ⟨final, numbered⟩ :=
      ((concerns_of_grows grows hprevious (reached_zero windows) rfl).2 progress rfl).1
    constructor
    · intro ordinal state hget
      simp only [same, Option.bind_some] at hget
      exact (numbered ordinal state hget).1
    · intro ordinal state hget repaired
      simp only [same, Option.bind_some] at hget
      rcases cameTo_of_opens opens grows hprevious lasting with ⟨-, _, rfl⟩ | ⟨-, cameTo⟩
      · simp at hget
      · exact has_of_known steps ((cameTo.known hget repaired).of_subset part)

end Archive

/-- In every archive to which runs of a unit can come, its checkpoint is borne out. -/
theorem History.sound {unit : SourceUnit} {archive : Archive} (history : History unit archive) :
    archive.Sound unit.id := by
  induction history with
  | start archive none => exact Archive.sound_of_none none
  | put history id ordinal text ih => exact ih.of_within (Archive.within_put _ id ordinal text) rfl
  | run history course steps ih => exact ih.of_run course steps

/-- So is that of each unit where runs of any units can come. -/
theorem Chronicle.sound {archive : Archive} (chronicle : Chronicle archive) (id : UnitId) :
    archive.Sound id := by
  induction chronicle generalizing id with
  | start archive none => exact Archive.sound_of_none (none id)
  | put chronicle other ordinal text ih =>
      exact (ih id).of_within (Archive.within_put _ other ordinal text) rfl
  | @run _ _ _ unit _ _ _ chronicle course steps ih =>
      by_cases same : id = unit.id
      · subst same
        exact (ih unit.id).of_run course steps
      · have unchanged := Archive.checkpoints_of_other (ih unit.id).numbered course steps same
        exact (ih id).of_within (Archive.within_of_steps steps) unchanged

end Graft
