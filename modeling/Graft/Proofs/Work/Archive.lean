import Graft.Proofs.Store.Log
import Graft.Proofs.Work.Course
import Graft.Work.Windows

/-!
What outlives a run: the candidates that are stored and the checkpoints of the units. `Answers` says
how they answer the actions of work, and `Fails` what may go wrong instead; what the service replies
and how variants are judged is open in both. `steps_trace` says that work in a world that answers like
this takes the steps of an archive. `History` are the archives to which runs of a unit can come, with
candidates put in between, and `Chronicle` those to which runs of any units can.
-/

namespace Graft

open Work

structure Archive where
  log : CandidateLog
  checkpoints : UnitId → Option Checkpoint

namespace Archive

def put (archive : Archive) (unit : UnitId) (ordinal : Nat) (text : String) : Archive :=
  { archive with log := (CandidateLog.store.putVerified unit ordinal text archive.log).2 }

def keep (archive : Archive) (checkpoint : Checkpoint) : Archive :=
  { archive with
    checkpoints := fun unit =>
      if unit = checkpoint.unitId then some checkpoint else archive.checkpoints unit }

@[simp] theorem checkpoints_put (archive : Archive) (unit : UnitId) (ordinal : Nat) (text : String) :
    (archive.put unit ordinal text).checkpoints = archive.checkpoints := rfl

theorem texts_put (archive : Archive) (unit : UnitId) {ordinal : Nat} (text : String)
    (positive : ordinal ≠ 0) : (archive.put unit ordinal text).log.texts unit ordinal =
      archive.log.texts unit ordinal ++ [text] := by
  simp [put, CandidateLog.putVerified_eq, positive, CandidateLog.texts_append]

@[simp] theorem checkpoints_keep (archive : Archive) (checkpoint : Checkpoint) :
    (archive.keep checkpoint).checkpoints checkpoint.unitId = some checkpoint := if_pos rfl

/-- How actions are answered when nothing goes wrong, and the archive after each. -/
inductive Answers (archive : Archive) : Happening → Archive → Prop
  | put (unit : UnitId) (ordinal : Nat) (text : String) :
      Answers archive
        ⟨.put unit ordinal text, (CandidateLog.store.putVerified unit ordinal text archive.log).1⟩
        (archive.put unit ordinal text)
  | get (unit : UnitId) (ordinal attempt : Nat) :
      Answers archive
        ⟨.get unit ordinal attempt, CandidateLog.store.get unit ordinal attempt archive.log⟩ archive
  | attempts (unit : UnitId) (ordinal : Nat) :
      Answers archive
        ⟨.attempts unit ordinal, CandidateLog.store.attempts unit ordinal archive.log⟩ archive
  | ask (request : Generation.Request) (reply : Generation.Reply) :
      Answers archive ⟨.ask request, reply⟩ archive
  | validate (variant : Variant) (fileName : String) (verdict : Verdict) :
      Answers archive ⟨.validate variant fileName, verdict⟩ archive
  | load (unit : UnitId) :
      Answers archive ⟨.loadCheckpoint unit, .ok (archive.checkpoints unit)⟩ archive
  | save (unit : UnitId) (selection : Selection) (repairs : OrdinalMap RepairState)
      (updatedAt : Instant) :
      Answers archive ⟨.saveCheckpoint unit selection repairs, .ok ()⟩
        (archive.keep ⟨unit, selection, repairs, updatedAt⟩)
  | tell (event : Event) : Answers archive (told event) archive

/-- How actions fail. What failed may have been done all the same. -/
inductive Fails (archive : Archive) : Happening → Archive → Prop
  | notPut (unit : UnitId) (ordinal : Nat) (text : String) (error : StoreError) :
      Fails archive ⟨.put unit ordinal text, .error error⟩ archive
  | notVerified (unit : UnitId) (ordinal : Nat) (text : String) (error : StoreError) :
      Fails archive ⟨.put unit ordinal text, .error error⟩ (archive.put unit ordinal text)
  | get (unit : UnitId) (ordinal attempt : Nat) (error : StoreError) :
      Fails archive ⟨.get unit ordinal attempt, .error error⟩ archive
  | attempts (unit : UnitId) (ordinal : Nat) (error : StoreError) :
      Fails archive ⟨.attempts unit ordinal, .error error⟩ archive
  | load (unit : UnitId) (failure : Failure) :
      Fails archive ⟨.loadCheckpoint unit, .error failure⟩ archive
  | notSaved (unit : UnitId) (selection : Selection) (repairs : OrdinalMap RepairState)
      (failure : Failure) :
      Fails archive ⟨.saveCheckpoint unit selection repairs, .error failure⟩ archive
  | notSynced (unit : UnitId) (selection : Selection) (repairs : OrdinalMap RepairState)
      (updatedAt : Instant) (failure : Failure) :
      Fails archive ⟨.saveCheckpoint unit selection repairs, .error failure⟩
        (archive.keep ⟨unit, selection, repairs, updatedAt⟩)

/-- An action and the answer to it, whether something goes wrong or not. -/
def Step (archive : Archive) (happening : Happening) (after : Archive) : Prop :=
  archive.Answers happening after ∨ archive.Fails happening after

inductive Steps (step : Archive → Happening → Archive → Prop) :
    Archive → List Happening → Archive → Prop
  | nil (archive : Archive) : Steps step archive [] archive
  | cons {archive next after : Archive} {happening : Happening} {happenings : List Happening}
      (first : step archive happening next) (rest : Steps step next happenings after) :
      Steps step archive (happening :: happenings) after

section Steps

variable {step : Archive → Happening → Archive → Prop} {archive after : Archive}
  {happening : Happening} {happenings others : List Happening}

@[simp] theorem steps_nil_iff : Steps step archive [] after ↔ after = archive := by
  constructor
  · rintro ⟨⟩
    rfl
  · rintro rfl
    exact .nil after

theorem steps_cons_iff : Steps step archive (happening :: happenings) after ↔
    ∃ next, step archive happening next ∧ Steps step next happenings after := by
  constructor
  · rintro ⟨⟩
    exact ⟨_, ‹_›, ‹_›⟩
  · rintro ⟨next, first, rest⟩
    exact .cons first rest

theorem steps_append_iff : Steps step archive (happenings ++ others) after ↔
    ∃ next, Steps step archive happenings next ∧ Steps step next others after := by
  induction happenings generalizing archive with
  | nil => simp
  | cons happening rest ih =>
      simp only [List.cons_append, steps_cons_iff, ih]
      constructor
      · rintro ⟨first, hfirst, next, hrest, hothers⟩
        exact ⟨next, ⟨first, hfirst, hrest⟩, hothers⟩
      · rintro ⟨next, ⟨first, hfirst, hrest⟩, hothers⟩
        exact ⟨first, hfirst, next, hrest, hothers⟩

end Steps

/-- A world in which actions are answered as by an archive takes the archive through what happens. -/
theorem steps_trace {ω α : Type} {handler : Handler ω} {view : ω → Archive}
    {step : Archive → Happening → Archive → Prop}
    (answers : ∀ action world, step (view world) ⟨action, (handler action world).1⟩
      (view (handler action world).2))
    (work : Work α) (world : ω) :
    Steps step (view world) (work.trace handler world) (view (work.run handler world).2) := by
  induction work generalizing world with
  | done value => exact .nil _
  | failed failure => exact .nil _
  | act action next ih => exact .cons (answers action world) (ih _ _)

/-- Steps are also steps of a wider kind. -/
theorem Steps.mono {step wider : Archive → Happening → Archive → Prop} {archive after : Archive}
    {happenings : List Happening} (steps : Steps step archive happenings after)
    (le : ∀ {archive happening after}, step archive happening after → wider archive happening after) :
    Steps wider archive happenings after := by
  induction steps with
  | nil archive => exact .nil archive
  | cons first rest ih => exact .cons (le first) ih

/-- A world that is an archive, with a service and a validator that are functions of what they are
asked. -/
def answering (reply : Generation.Request → Generation.Reply) (judge : Variant → String → Verdict) :
    Handler Archive
  | .put unit ordinal text, archive =>
      ((CandidateLog.store.putVerified unit ordinal text archive.log).1,
        archive.put unit ordinal text)
  | .get unit ordinal attempt, archive =>
      (CandidateLog.store.get unit ordinal attempt archive.log, archive)
  | .attempts unit ordinal, archive =>
      (CandidateLog.store.attempts unit ordinal archive.log, archive)
  | .ask request, archive => (reply request, archive)
  | .validate variant fileName, archive => (judge variant fileName, archive)
  | .loadCheckpoint unit, archive => (.ok (archive.checkpoints unit), archive)
  | .saveCheckpoint unit selection repairs, archive =>
      (.ok (), archive.keep ⟨unit, selection, repairs, default⟩)
  | .tell _, archive => ((), archive)

theorem answers_answering (reply : Generation.Request → Generation.Reply)
    (judge : Variant → String → Verdict) (action : Action) (archive : Archive) :
    archive.Answers ⟨action, (answering reply judge action archive).1⟩
      (answering reply judge action archive).2 := by
  cases action with
  | put unit ordinal text => exact .put unit ordinal text
  | get unit ordinal attempt => exact .get unit ordinal attempt
  | attempts unit ordinal => exact .attempts unit ordinal
  | ask request => exact .ask request _
  | validate variant fileName => exact .validate variant fileName _
  | loadCheckpoint unit => exact .load unit
  | saveCheckpoint unit selection repairs => exact .save unit selection repairs default
  | tell event => exact .tell event

theorem steps_answering {α : Type} (reply : Generation.Request → Generation.Reply)
    (judge : Variant → String → Verdict) (work : Work α) (archive : Archive) :
    Steps Answers archive (work.trace (answering reply judge) archive)
      (work.run (answering reply judge) archive).2 :=
  @steps_trace _ _ _ id _ (answers_answering reply judge) work archive

def Within (archive after : Archive) : Prop :=
  ∀ unit ordinal, archive.log.texts unit ordinal <+: after.log.texts unit ordinal

theorem Within.refl (archive : Archive) : archive.Within archive :=
  fun _ _ => List.prefix_refl _

theorem Within.trans {archive next after : Archive} (first : archive.Within next)
    (rest : next.Within after) : archive.Within after :=
  fun unit ordinal => (first unit ordinal).trans (rest unit ordinal)

theorem Within.has {archive after : Archive} (within : archive.Within after) {unit : UnitId}
    {ordinal attempt : Nat} (has : archive.log.Has unit ordinal attempt) :
    after.log.Has unit ordinal attempt :=
  ⟨has.1, Nat.le_trans has.2 (within unit ordinal).length_le⟩

theorem within_put (archive : Archive) (unit : UnitId) (ordinal : Nat) (text : String) :
    archive.Within (archive.put unit ordinal text) :=
  fun other place => CandidateLog.prefix_texts_put archive.log unit other ordinal place text

theorem within_of_step {archive after : Archive} {happening : Happening}
    (step : archive.Step happening after) : archive.Within after := by
  rcases step with answers | fails
  · cases answers with
    | put unit ordinal text => exact within_put archive unit ordinal text
    | _ => exact .refl archive
  · cases fails with
    | notVerified unit ordinal text => exact within_put archive unit ordinal text
    | _ => exact .refl archive

theorem within_of_steps {archive after : Archive} {happenings : List Happening}
    (steps : Steps Step archive happenings after) : archive.Within after := by
  induction steps with
  | nil archive => exact .refl archive
  | cons first rest ih => exact (within_of_step first).trans ih

/-- Only a candidate that is put changes what is stored. -/
theorem log_of_step {archive after : Archive} {happening : Happening}
    (step : archive.Step happening after)
    (notPut : ∀ unit ordinal text, happening.1 ≠ .put unit ordinal text) :
    after.log = archive.log := by
  rcases step with answers | fails
  · cases answers with
    | put unit ordinal text => exact absurd rfl (notPut unit ordinal text)
    | _ => rfl
  · cases fails with
    | notVerified unit ordinal text => exact absurd rfl (notPut unit ordinal text)
    | _ => rfl

theorem log_of_steps {archive after : Archive} {happenings : List Happening}
    (steps : Steps Step archive happenings after)
    (notPut : ∀ happening ∈ happenings, ∀ unit ordinal text,
      happening.1 ≠ .put unit ordinal text) : after.log = archive.log := by
  induction steps with
  | nil => rfl
  | cons first rest ih =>
      obtain ⟨hfirst, hrest⟩ := List.forall_mem_cons.1 notPut
      exact (ih hrest).trans (log_of_step first hfirst)

/-- Only a save changes checkpoints, and only that of its unit. -/
theorem checkpoints_of_step {archive after : Archive} {happening : Happening} {unit : UnitId}
    (step : archive.Step happening after)
    (notSaved : ∀ selection repairs, happening.1 ≠ .saveCheckpoint unit selection repairs) :
    after.checkpoints unit = archive.checkpoints unit := by
  have other {id : UnitId} {selection : Selection} {repairs : OrdinalMap RepairState}
      {updatedAt : Instant} (differs : unit ≠ id) :
      (archive.keep ⟨id, selection, repairs, updatedAt⟩).checkpoints unit =
        archive.checkpoints unit := by
    simp [keep, differs]
  rcases step with answers | fails
  · cases answers with
    | save id selection repairs =>
        exact other fun same => notSaved selection repairs (by rw [same])
    | _ => rfl
  · cases fails with
    | notSynced id selection repairs =>
        exact other fun same => notSaved selection repairs (by rw [same])
    | _ => rfl

theorem checkpoints_of_steps {archive after : Archive} {happenings : List Happening} {unit : UnitId}
    (steps : Steps Step archive happenings after)
    (notSaved : ∀ happening ∈ happenings, ∀ selection repairs,
      happening.1 ≠ .saveCheckpoint unit selection repairs) :
    after.checkpoints unit = archive.checkpoints unit := by
  induction steps with
  | nil => rfl
  | cons first rest ih =>
      obtain ⟨hfirst, hrest⟩ := List.forall_mem_cons.1 notSaved
      exact (ih hrest).trans (checkpoints_of_step first hfirst)

end Archive

/-- That what happens tells of an attempt: it was put, or it was listed. -/
inductive Known (unit : UnitId) (happenings : List Happening) (ordinal attempt : Nat) : Prop
  | put {text : String} (member : ⟨.put unit ordinal text, .ok attempt⟩ ∈ happenings)
  | listed {stored : List Nat} (member : ⟨.attempts unit ordinal, .ok stored⟩ ∈ happenings)
      (stores : attempt ∈ stored)

theorem Known.of_subset {unit : UnitId} {happenings others : List Happening} {ordinal attempt : Nat}
    (known : Known unit happenings ordinal attempt) (part : happenings ⊆ others) :
    Known unit others ordinal attempt := by
  cases known with
  | put member => exact .put (part member)
  | listed member stores => exact .listed (part member) stores

namespace Archive

variable {archive after : Archive} {unit : UnitId} {ordinal attempt : Nat}

theorem step_attempts {answer : Except StoreError (List Nat)} {stored : List Nat}
    (step : archive.Step ⟨.attempts unit ordinal, answer⟩ after) (listed : answer = .ok stored) :
    stored = List.range' 1 (archive.log.texts unit ordinal).length := by
  rcases step with answers | fails
  · cases answers
    exact (Except.ok.inj listed).symm
  · cases fails
    cases listed

theorem step_put {text : String} {answer : Except StoreError Nat}
    (step : archive.Step ⟨.put unit ordinal text, answer⟩ after) (answered : answer = .ok attempt) :
    after = archive.put unit ordinal text ∧
      (CandidateLog.store.putVerified unit ordinal text archive.log).1 = .ok attempt := by
  rcases step with answers | fails
  · cases answers
    exact ⟨rfl, answered⟩
  · cases fails <;> cases answered

theorem step_load {answer : Except Failure (Option Checkpoint)} {previous : Option Checkpoint}
    (step : archive.Step ⟨.loadCheckpoint unit, answer⟩ after) (loaded : answer = .ok previous) :
    previous = archive.checkpoints unit := by
  rcases step with answers | fails
  · cases answers
    exact (Except.ok.inj loaded).symm
  · cases fails
    cases loaded

theorem step_save {selection : Selection} {repairs : OrdinalMap RepairState}
    {answer : Except Failure Unit}
    (step : archive.Step ⟨.saveCheckpoint unit selection repairs, answer⟩ after) :
    after = archive ∨ ∃ updatedAt, after = archive.keep ⟨unit, selection, repairs, updatedAt⟩ := by
  rcases step with answers | fails
  · cases answers
    exact .inr ⟨_, rfl⟩
  · cases fails with
    | notSaved => exact .inl rfl
    | notSynced => exact .inr ⟨_, rfl⟩

theorem step_saved {selection : Selection} {repairs : OrdinalMap RepairState}
    {answer : Except Failure Unit}
    (step : archive.Step ⟨.saveCheckpoint unit selection repairs, answer⟩ after)
    (saved : answer = .ok ()) :
    ∃ updatedAt, after = archive.keep ⟨unit, selection, repairs, updatedAt⟩ := by
  rcases step with answers | fails
  · cases answers
    exact ⟨_, rfl⟩
  · cases fails <;> cases saved

theorem step_get {text : String} {answer : Except StoreError String}
    (step : archive.Step ⟨.get unit ordinal attempt, answer⟩ after) (read : answer = .ok text) :
    CandidateLog.store.get unit ordinal attempt archive.log = .ok text := by
  rcases step with answers | fails
  · cases answers
    exact read
  · cases fails
    cases read

theorem lists {stored : List Nat}
    (h : CandidateLog.store.attempts unit ordinal archive.log = .ok stored) :
    archive.Step ⟨.attempts unit ordinal, .ok stored⟩ archive :=
  h ▸ .inl (.attempts unit ordinal)

theorem reads {text : String}
    (h : CandidateLog.store.get unit ordinal attempt archive.log = .ok text) :
    archive.Step ⟨.get unit ordinal attempt, .ok text⟩ archive :=
  h ▸ .inl (.get unit ordinal attempt)

theorem loads {previous : Option Checkpoint} (h : archive.checkpoints unit = previous) :
    archive.Step ⟨.loadCheckpoint unit, .ok previous⟩ archive :=
  h ▸ .inl (.load unit)

theorem exists_puts (archive : Archive) (unit : UnitId) {ordinal : Nat} (text : String)
    (positive : ordinal ≠ 0) : ∃ after,
      archive.Step ⟨.put unit ordinal text, .ok ((archive.log.texts unit ordinal).length + 1)⟩ after ∧
      after.log.texts unit ordinal = archive.log.texts unit ordinal ++ [text] ∧
      ∀ other ≠ ordinal, after.log.texts unit other = archive.log.texts unit other := by
  have answered : (CandidateLog.store.putVerified unit ordinal text archive.log).1 =
      .ok ((archive.log.texts unit ordinal).length + 1) := by
    rw [CandidateLog.putVerified_eq, if_neg positive]
  refine ⟨archive.put unit ordinal text, ?_, archive.texts_put unit text positive, ?_⟩
  · rw [← answered]
    exact .inl (.put unit ordinal text)
  · intro other differs
    have grown := (CandidateLog.append_of_putVerified answered).2
    have apart : ¬(unit = unit ∧ other = ordinal) := fun same => differs same.2
    rw [put, grown, CandidateLog.texts_append, if_neg apart]

/-- Candidates for two functions without any take the first place of each, and stay there. -/
theorem exists_puts_of_two (archive : Archive) (unit : UnitId) {ordinal other : Nat}
    (text another : String) (positive : ordinal ≠ 0) (later : ordinal < other)
    (none : ∀ ordinal, archive.log.texts unit ordinal = []) : ∃ first second,
      archive.Step ⟨.put unit ordinal text, .ok 1⟩ first ∧
      first.log.texts unit ordinal = [text] ∧
      first.Step ⟨.put unit other another, .ok 1⟩ second ∧
      second.log.texts unit ordinal = [text] ∧ second.log.texts unit other = [another] := by
  obtain ⟨first, put, texts, others⟩ := archive.exists_puts unit text positive
  have empty : first.log.texts unit other = [] := by rw [others other (by omega), none]
  obtain ⟨second, putAnother, anothers, kept⟩ :=
    first.exists_puts unit another (Nat.ne_zero_of_lt later)
  rw [none] at put texts
  rw [empty] at putAnother anothers
  exact ⟨first, second, put, texts, putAnother, by rw [kept ordinal (by omega), texts]; rfl, anothers⟩

/-- What an archive lists is what it has. -/
theorem has_of_listed {stored : List Nat}
    (step : archive.Step ⟨.attempts unit ordinal, .ok stored⟩ after) :
    attempt ∈ stored ↔ archive.log.Has unit ordinal attempt := by
  obtain rfl := step_attempts step rfl
  exact CandidateLog.mem_range'_texts_iff

theorem has_of_put {text : String}
    (step : archive.Step ⟨.put unit ordinal text, .ok attempt⟩ after) :
    after.log.Has unit ordinal attempt := by
  obtain ⟨rfl, answered⟩ := step_put step rfl
  exact CandidateLog.has_of_putVerified answered

/-- An attempt that what happens tells of is stored from then on. -/
theorem has_of_known {happenings : List Happening} (steps : Steps Step archive happenings after)
    (known : Known unit happenings ordinal attempt) : after.log.Has unit ordinal attempt := by
  induction steps with
  | nil =>
      cases known with
      | put member => simp at member
      | listed member => simp at member
  | cons first rest ih =>
      have later := within_of_steps rest
      cases known with
      | put member =>
          rcases List.mem_cons.1 member with rfl | member
          · exact later.has (has_of_put first)
          · exact ih (.put member)
      | listed member stores =>
          rcases List.mem_cons.1 member with rfl | member
          · exact later.has ((within_of_step first).has ((has_of_listed first).1 stores))
          · exact ih (.listed member stores)

/-- An attempt that was stored before is listed whenever attempts are. -/
theorem mem_of_has {happenings : List Happening} {stored : List Nat}
    (steps : Steps Step archive happenings after) (has : archive.log.Has unit ordinal attempt)
    (member : ⟨.attempts unit ordinal, .ok stored⟩ ∈ happenings) : attempt ∈ stored := by
  induction steps with
  | nil => simp at member
  | cons first rest ih =>
      rcases List.mem_cons.1 member with rfl | member
      · exact (has_of_listed first).2 has
      · exact ih ((within_of_step first).has has) member

/-- A candidate that was put can be read from then on. -/
theorem get_of_put {happenings : List Happening} {text : String}
    (steps : Steps Step archive happenings after)
    (member : ⟨.put unit ordinal text, .ok attempt⟩ ∈ happenings) :
    CandidateLog.store.get unit ordinal attempt after.log = .ok text := by
  induction steps with
  | nil => simp at member
  | cons first rest ih =>
      rcases List.mem_cons.1 member with rfl | later
      · obtain ⟨rfl, answered⟩ := step_put first rfl
        have kept := within_of_steps rest
        exact CandidateLog.get_of_prefix (kept unit ordinal) (CandidateLog.get_of_putVerified answered)
      · exact ih later

/-- A candidate that was read can be read from then on. -/
theorem get_of_mem {happenings : List Happening} {text : String}
    (steps : Steps Step archive happenings after)
    (member : ⟨.get unit ordinal attempt, .ok text⟩ ∈ happenings) :
    CandidateLog.store.get unit ordinal attempt after.log = .ok text := by
  induction steps with
  | nil => simp at member
  | cons first rest ih =>
      rcases List.mem_cons.1 member with rfl | later
      · have kept := (within_of_step first).trans (within_of_steps rest)
        exact CandidateLog.get_of_prefix (kept unit ordinal) (step_get first rfl)
      · exact ih later

end Archive

/-- The archives to which runs of a unit can come. The unit has no checkpoint at first; each run has
settings of its own, and ends in success or failure; candidates are put in between. -/
inductive History (unit : SourceUnit) : Archive → Prop
  | start (archive : Archive) (none : archive.checkpoints unit.id = none) : History unit archive
  | put {archive : Archive} (history : History unit archive) (id : UnitId) (ordinal : Nat)
      (text : String) : History unit (archive.put id ordinal text)
  | run {archive after : Archive} {settings : WorkSettings} {mergeBack : Nat}
      {happenings : List Happening} {result : Except Failure UnitOutcome}
      (history : History unit archive)
      (course : Course (onUnit settings unit mergeBack) happenings result)
      (steps : Archive.Steps Archive.Step archive happenings after) : History unit after

/-- The archives to which runs of any units can come, from one without checkpoints on: the units may
share their candidates, and a unit may change from run to run. -/
inductive Chronicle : Archive → Prop
  | start (archive : Archive) (none : ∀ id, archive.checkpoints id = none) : Chronicle archive
  | put {archive : Archive} (chronicle : Chronicle archive) (id : UnitId) (ordinal : Nat)
      (text : String) : Chronicle (archive.put id ordinal text)
  | run {archive after : Archive} {settings : WorkSettings} {unit : SourceUnit} {mergeBack : Nat}
      {happenings : List Happening} {result : Except Failure UnitOutcome}
      (chronicle : Chronicle archive)
      (course : Course (onUnit settings unit mergeBack) happenings result)
      (steps : Archive.Steps Archive.Step archive happenings after) : Chronicle after

end Graft
