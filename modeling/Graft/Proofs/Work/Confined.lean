import Graft.Proofs.Work.Archive
import Graft.Proofs.Work.Windows

/-!
Work that keeps to the things of one unit. All that the work on a unit puts, reads and saves is under
the id of the unit, and the date of a checkpoint makes no difference to it (`confined_onUnit`). So
what such work comes to depends only on the part of an archive that belongs to the unit
(`fate_congr`), and it leaves the other parts as they are (`part_run_of_ne`).
-/

namespace Graft

open Code Generation Hash

def Checkpoint.undated (checkpoint : Checkpoint) : Checkpoint :=
  { checkpoint with updatedAt := default }

/-- Whether an action is about a unit, or about no unit's things at all. -/
def Action.IsOf (id : UnitId) : Action → Prop
  | .put unit _ _ => unit = id
  | .get unit _ _ => unit = id
  | .attempts unit _ => unit = id
  | .loadCheckpoint unit => unit = id
  | .saveCheckpoint unit _ _ => unit = id
  | .ask _ => True
  | .validate _ _ => True
  | .tell _ => True

/-- Whether two answers to an action are the same but for the date of a checkpoint. -/
def Action.Alike : (action : Action) → action.Answer → action.Answer → Prop
  | .loadCheckpoint _, first, second =>
      first.map (Option.map Checkpoint.undated) = second.map (Option.map Checkpoint.undated)
  | .put .., first, second => first = second
  | .get .., first, second => first = second
  | .attempts .., first, second => first = second
  | .ask _, first, second => first = second
  | .validate .., first, second => first = second
  | .saveCheckpoint .., first, second => first = second
  | .tell _, first, second => first = second

theorem Action.Alike.refl (action : Action) (answer : action.Answer) : action.Alike answer answer := by
  cases action <;> rfl

namespace Work

variable {α β : Type} {id : UnitId}

/-- Work on the things of one unit, whose actions do not depend on the date of a checkpoint. -/
inductive Confined (id : UnitId) : Work α → Prop
  | done (value : α) : Confined id (.done value)
  | failed (failure : Failure) : Confined id (.failed failure)
  | act {action : Action} {next : action.Answer → Work α} (isOf : action.IsOf id)
      (dateless : ∀ {first second}, action.Alike first second → next first = next second)
      (rest : ∀ answer, Confined id (next answer)) : Confined id (.act action next)

section Functions

theorem confined_pure (value : α) : Confined id (pure value : Work α) := .done value

theorem confined_bind {work : Work α} {next : α → Work β} (first : Confined id work)
    (rest : ∀ value, Confined id (next value)) : Confined id (work >>= next) := by
  induction first with
  | done value => exact rest value
  | failed failure => exact .failed failure
  | act isOf dateless _ ih =>
      exact .act isOf (fun alike => congrArg (andThen · next) (dateless alike)) ih

theorem confined_ofExcept {ε : Type} (toFailure : ε → Failure) (value : Except ε α) :
    Confined id (ofExcept toFailure value) := by
  cases value with
  | ok found => exact .done found
  | error error => exact .failed _

/-- An action other than to load a checkpoint, whose answers are alike only if they are the same. -/
theorem confined_perform {action : Action} (isOf : action.IsOf id)
    (same : ∀ {first second}, action.Alike first second → first = second) :
    Confined id (perform action) :=
  .act isOf (fun alike => congrArg done (same alike)) .done

theorem confined_tell (event : Event) : Confined id (tell event) :=
  confined_perform trivial fun alike => alike

theorem confined_put (ordinal : Nat) (text : String) : Confined id (put id ordinal text) :=
  confined_bind (confined_perform rfl fun alike => alike) (confined_ofExcept .store)

theorem confined_get (ordinal attempt : Nat) : Confined id (get id ordinal attempt) :=
  confined_bind (confined_perform rfl fun alike => alike) (confined_ofExcept .store)

theorem confined_attempts (ordinal : Nat) : Confined id (attempts id ordinal) :=
  confined_bind (confined_perform rfl fun alike => alike) (confined_ofExcept .store)

theorem confined_fetch (entries : List (Nat × Nat)) : Confined id (fetch id entries) := by
  induction entries with
  | nil => exact .done []
  | cons entry rest ih =>
      refine confined_bind (confined_perform rfl fun alike => alike) fun answer => ?_
      refine confined_bind (confined_ofExcept _ answer) fun text => ?_
      exact confined_bind ih fun others => confined_pure _

theorem confined_ask (policy : Policy) (request : Request) : Confined id (ask policy request) := by
  refine confined_bind (confined_perform trivial fun alike => alike) fun reply => ?_
  cases reply with
  | answer result => exact confined_pure result
  | silence => exact confined_pure _

theorem confined_tellTransition (unit : UnitId) (ordinal : Nat) (state : RepairState)
    (reason : Option String) : Confined id (tellTransition unit ordinal state reason) :=
  confined_tell _

theorem confined_firstCandidate (policy : Policy) {request : Request} (own : request.unitId = id)
    (calls : Nat) (state : RepairState) :
    Confined id (firstCandidate policy request calls state) := by
  induction calls generalizing state with
  | zero => exact confined_bind (confined_tellTransition ..) fun _ => confined_pure _
  | succ calls ih =>
      subst own
      refine confined_bind (confined_ask policy request) fun reply => ?_
      match reply with
      | .ok text =>
          exact confined_bind (confined_put ..) fun attempt =>
            confined_bind (confined_tell _) fun _ => confined_pure _
      | .error (.rejected message) =>
          exact confined_bind (confined_tellTransition ..) fun _ => confined_pure _
      | .error (.service message) => exact confined_bind (confined_tell _) fun _ => ih _

variable {unit : SourceUnit} {spans : List Span}

theorem confined_merge (selection : Selection) : Confined unit.id (merge unit spans selection) :=
  confined_bind (confined_ofExcept ..) fun _ =>
    confined_bind (confined_fetch _) fun _ => confined_pure _

theorem confined_validate (variant : Variant) : Confined id (validate unit variant) :=
  confined_bind (confined_perform trivial fun alike => alike) fun _ =>
    confined_bind (confined_tell _) fun _ => confined_pure _

theorem confined_generate (policy : Policy) (ordinal : Nat) (repairs : OrdinalMap RepairState) :
    Confined unit.id (generate policy unit spans ordinal repairs) := by
  have own : (requestFor unit spans ordinal none none).unitId = unit.id := rfl
  refine confined_bind (confined_firstCandidate policy own _ _) fun candidate => ?_
  cases candidate with
  | stored attempt => exact confined_pure _
  | refused state => exact confined_pure _

theorem confined_initialAttempt (policy : Policy) (useCache : Bool) (ordinal : Nat)
    (previous : Option Checkpoint) (repairs : OrdinalMap RepairState) :
    Confined unit.id (initialAttempt policy useCache unit spans ordinal previous repairs) := by
  have generates : Confined unit.id (generate policy unit spans ordinal repairs) :=
    confined_generate policy ordinal repairs
  unfold initialAttempt
  split
  · exact generates
  · refine confined_bind (confined_attempts ordinal) fun stored => ?_
    split
    · dsimp only
      split
      · exact confined_pure _
      · exact confined_bind (confined_tellTransition ..) fun _ => confined_pure _
      · exact generates
    · dsimp only
      split
      · exact confined_pure _
      · exact generates

theorem confined_giveUp (mending : Mending) (reason : Option String) :
    Confined id (giveUp unit mending reason) :=
  confined_bind (confined_tellTransition ..) fun _ => confined_pure _

theorem confined_mendWithin (policy : Policy) (calls : Nat) (mending : Mending) :
    Confined unit.id (mendWithin policy unit spans calls mending) := by
  induction calls generalizing mending with
  | zero => exact confined_giveUp mending none
  | succ calls ih =>
      refine confined_bind (confined_tell _) fun _ => ?_
      refine confined_bind (confined_get ..) fun prior => ?_
      refine confined_bind (confined_ask ..) fun reply => ?_
      match reply with
      | .error (.rejected message) =>
          exact confined_bind (confined_tellTransition ..) fun _ => confined_pure _
      | .error (.service message) => exact confined_bind (confined_tell _) fun _ => ih _
      | .ok text =>
          refine confined_bind (confined_put ..) fun attempt => ?_
          refine confined_bind (confined_tell _) fun _ => ?_
          refine confined_bind (confined_merge _) fun variant => ?_
          refine confined_bind (confined_validate variant) fun verdict => ?_
          split
          · exact confined_bind (confined_tellTransition ..) fun _ => confined_pure _
          · exact ih _

theorem confined_mend (policy : Policy) (mending : Mending) :
    Confined unit.id (mend policy unit spans mending) := by
  unfold mend
  split
  · exact confined_giveUp mending _
  · exact confined_mendWithin policy _ mending

theorem confined_settle (ordinal attempt : Nat) (repairs : OrdinalMap RepairState) :
    Confined id (settle unit ordinal attempt repairs) := by
  unfold settle
  split
  · exact confined_pure _
  · split
    · exact confined_pure _
    · exact confined_bind (confined_tellTransition ..) fun _ => confined_pure _

theorem confined_settleWindow (settings : WorkSettings) (ordinal attempt : Nat)
    (progress : Progress) :
    Confined unit.id (settleWindow settings unit spans ordinal attempt progress) := by
  refine confined_bind (confined_merge _) fun variant => ?_
  refine confined_bind (confined_validate variant) fun verdict => ?_
  split
  · exact confined_bind (confined_settle ..) fun _ => confined_pure _
  · exact confined_bind (confined_mend ..) fun _ => confined_pure _

theorem confined_grow (settings : WorkSettings) (previous : Option Checkpoint)
    (ordinals : List Nat) (progress : Progress) :
    Confined unit.id (grow settings unit spans previous ordinals progress) := by
  induction ordinals generalizing progress with
  | nil => exact confined_pure progress
  | cons ordinal rest ih =>
      refine confined_bind (confined_initialAttempt ..) fun first => ?_
      obtain ⟨attempt?, repairs⟩ := first
      cases attempt? with
      | none => exact confined_pure _
      | some attempt =>
          refine confined_bind (confined_settleWindow ..) fun after => ?_
          split
          · exact confined_pure _
          · exact ih after

/-- A first attempt uses the choices and the repairs of the last run, but not their date. -/
theorem initialAttempt_undated (policy : Policy) (useCache : Bool) (ordinal : Nat)
    (previous : Option Checkpoint) (repairs : OrdinalMap RepairState) :
    initialAttempt policy useCache unit spans ordinal (previous.map Checkpoint.undated) repairs =
      initialAttempt policy useCache unit spans ordinal previous repairs := by
  cases previous <;> rfl

theorem grow_undated (settings : WorkSettings) (previous : Option Checkpoint)
    (ordinals : List Nat) (progress : Progress) :
    grow settings unit spans (previous.map Checkpoint.undated) ordinals progress =
      grow settings unit spans previous ordinals progress := by
  induction ordinals generalizing progress with
  | nil => rfl
  | cons ordinal rest ih =>
      unfold grow
      simp only [initialAttempt_undated, ih]

theorem confined_openingWindows (requested : Nat) : Confined id (openingWindows unit requested) := by
  unfold openingWindows
  split
  · refine confined_bind (confined_bind (confined_validate _) fun _ => confined_pure _) fun _ => ?_
    exact confined_pure _
  · exact confined_pure _

theorem confined_saveProgress (settings : WorkSettings) (progress : Progress) :
    Confined unit.id (saveProgress settings unit progress) := by
  unfold saveProgress
  split
  · exact confined_bind (confined_perform rfl fun alike => alike) (confined_ofExcept _)
  · exact confined_pure _

/-- Work goes on from the checkpoint of the last run. The loading alone is not confined, since it
answers the date of the checkpoint too. -/
theorem confined_loadPrevious_bind (settings : WorkSettings) {next : Option Checkpoint → Work β}
    (undated : ∀ previous, next (previous.map Checkpoint.undated) = next previous)
    (rest : ∀ previous, Confined unit.id (next previous)) :
    Confined unit.id (loadPrevious settings unit >>= next) := by
  unfold loadPrevious
  split
  · rw [bind_assoc]
    refine .act rfl ?_ fun answer => confined_bind (.done answer) fun loaded =>
      confined_bind (confined_ofExcept _ loaded) rest
    intro first second alike
    match first, second, alike with
    | .error failure, .error other, alike =>
        obtain rfl : failure = other := Except.error.inj alike
        rfl
    | .ok previous, .ok other, alike =>
        calc next previous = next (previous.map Checkpoint.undated) := (undated previous).symm
          _ = next (other.map Checkpoint.undated) := congrArg next (Except.ok.inj alike)
          _ = next other := undated other
  · exact rest none

/-- The work on a unit keeps to the things of the unit. -/
theorem confined_onUnit (settings : WorkSettings) (mergeBack : Nat) :
    Confined unit.id (onUnit settings unit mergeBack) := by
  rw [onUnit_eq]
  refine confined_bind (confined_ofExcept ..) fun spans => ?_
  refine confined_bind (confined_tell _) fun _ => ?_
  refine confined_loadPrevious_bind settings (fun previous => ?_) fun previous => ?_
  · simp only [grow_undated]
  · refine confined_bind (confined_openingWindows _) fun windows => ?_
    refine confined_bind (confined_grow ..) fun progress => ?_
    refine confined_bind (confined_saveProgress settings progress) fun _ => ?_
    exact confined_bind (confined_tell _) fun _ => confined_pure _

end Functions

end Work

namespace Archive

variable {reply : Request → Reply} {judge : Variant → String → Verdict} {archive after other : Archive}
  {id : UnitId}

/-- What an archive can have of a unit: the candidates for each of its functions, and a checkpoint but
for its date. -/
@[ext]
structure Part where
  texts : Nat → List String
  checkpoint : Option Checkpoint

def part (archive : Archive) (id : UnitId) : Part :=
  ⟨archive.log.texts id, (archive.checkpoints id).map Checkpoint.undated⟩

theorem part_put_of_ne {unit : UnitId} (differs : id ≠ unit) (ordinal : Nat) (text : String) :
    (archive.put unit ordinal text).part id = archive.part id := by
  have texts : (archive.put unit ordinal text).log.texts id = archive.log.texts id := by
    funext place
    simp only [put, CandidateLog.putVerified_eq]
    split
    · rfl
    · simp [CandidateLog.texts_append, differs]
  rw [part, texts]
  rfl

theorem part_put_congr (same : archive.part id = other.part id) (ordinal : Nat) (text : String) :
    (archive.put id ordinal text).part id = (other.put id ordinal text).part id := by
  obtain ⟨texts, checkpoints⟩ := Part.mk.inj same
  refine Part.ext (funext fun place => ?_) checkpoints
  simp only [part, put, CandidateLog.putVerified_eq]
  split
  · exact congrFun texts place
  · simp only [CandidateLog.texts_append, texts]

theorem part_keep_of_ne {checkpoint : Checkpoint} (differs : id ≠ checkpoint.unitId) :
    (archive.keep checkpoint).part id = archive.part id := by
  simp [part, keep, differs]

/-- The time at which a checkpoint is saved makes no difference to what its unit has then. -/
theorem part_keep (selection : Selection) (repairs : OrdinalMap RepairState) (updatedAt : Instant) :
    (archive.keep ⟨id, selection, repairs, updatedAt⟩).part id =
      ⟨(archive.part id).texts, some ⟨id, selection, repairs, default⟩⟩ := by
  simp [part, keep, Checkpoint.undated]

/-- Whether what happened is what a service and a validator answer that are functions of what they
are asked. -/
def Conforms (reply : Request → Reply) (judge : Variant → String → Verdict) :
    Work.Happening → Prop
  | ⟨.ask request, answer⟩ => answer = reply request
  | ⟨.validate variant fileName, verdict⟩ => verdict = judge variant fileName
  | _ => True

/-- How actions are answered when the service and the validator are functions of what they are asked
and nothing goes wrong. Any time may stand in a checkpoint that is saved. -/
def AnswersBy (reply : Request → Reply) (judge : Variant → String → Verdict) (archive : Archive)
    (happening : Work.Happening) (after : Archive) : Prop :=
  archive.Answers happening after ∧ Conforms reply judge happening

theorem answersBy_answering (reply : Request → Reply) (judge : Variant → String → Verdict)
    (action : Action) (archive : Archive) :
    archive.AnswersBy reply judge ⟨action, (answering reply judge action archive).1⟩
      (answering reply judge action archive).2 :=
  ⟨answers_answering reply judge action archive, by cases action <;> trivial⟩

/-- An action of a unit leaves what other units have as it is. -/
theorem part_of_answers_of_ne {action : Action} {answer : action.Answer} (isOf : action.IsOf id)
    {stranger : UnitId} (differs : stranger ≠ id) (answers : archive.Answers ⟨action, answer⟩ after) :
    after.part stranger = archive.part stranger := by
  cases answers with
  | put unit ordinal text => exact part_put_of_ne (isOf ▸ differs) ordinal text
  | save unit selection repairs => exact part_keep_of_ne (isOf ▸ differs)
  | _ => rfl

/-- How an action of a unit is answered, and what the unit has then, depends only on what it has. -/
theorem answers_agree {action : Action} {first second : action.Answer} {after' : Archive}
    (isOf : action.IsOf id) (same : archive.part id = other.part id)
    (here : archive.AnswersBy reply judge ⟨action, first⟩ after)
    (there : other.AnswersBy reply judge ⟨action, second⟩ after') :
    action.Alike first second ∧ after.part id = after'.part id := by
  obtain ⟨texts, checkpoints⟩ := Part.mk.inj same
  obtain ⟨here, conforms⟩ := here
  obtain ⟨there, conforms'⟩ := there
  cases action with
  | put unit ordinal text =>
      cases here
      cases there
      obtain rfl : unit = id := isOf
      refine ⟨?_, part_put_congr same ordinal text⟩
      simp only [Action.Alike, CandidateLog.putVerified_eq, texts]
      split <;> rfl
  | get unit ordinal attempt =>
      cases here
      cases there
      obtain rfl : unit = id := isOf
      exact ⟨by simp only [Action.Alike, CandidateLog.store, texts], same⟩
  | attempts unit ordinal =>
      cases here
      cases there
      obtain rfl : unit = id := isOf
      exact ⟨by simp only [Action.Alike, CandidateLog.store, texts], same⟩
  | ask request =>
      cases here
      cases there
      exact ⟨conforms.trans conforms'.symm, same⟩
  | validate variant fileName =>
      cases here
      cases there
      exact ⟨conforms.trans conforms'.symm, same⟩
  | loadCheckpoint unit =>
      cases here
      cases there
      obtain rfl : unit = id := isOf
      exact ⟨congrArg Except.ok checkpoints, same⟩
  | saveCheckpoint unit selection repairs =>
      cases here
      cases there
      obtain rfl : unit = id := isOf
      exact ⟨rfl, by rw [part_keep, part_keep, same]⟩
  | tell event =>
      cases here
      cases there
      exact ⟨rfl, same⟩

end Archive

namespace Work

variable {α : Type} {reply : Request → Reply} {judge : Variant → String → Verdict}
  {archive after other : Archive} {id : UnitId}

/-- What work on the things of a unit comes to on its own: its result, what the unit has then, and
how many actions it takes. -/
structure Fate (α : Type) where
  result : Except Failure α
  part : Archive.Part
  actions : Nat

def fate (reply : Request → Reply) (judge : Variant → String → Verdict) (id : UnitId)
    (work : Work α) (archive : Archive) : Fate α :=
  ⟨(work.run (Archive.answering reply judge) archive).1,
    (work.run (Archive.answering reply judge) archive).2.part id,
    (work.trace (Archive.answering reply judge) archive).length⟩

def Fate.later (fate : Fate α) : Fate α := { fate with actions := fate.actions + 1 }

theorem fate_act (action : Action) (next : action.Answer → Work α) (archive : Archive) :
    (Work.act action next).fate reply judge id archive =
      ((next (Archive.answering reply judge action archive).1).fate reply judge id
        (Archive.answering reply judge action archive).2).later := rfl

/-- What confined work comes to depends only on what its unit has. -/
theorem fate_congr {work : Work α} (confined : Confined id work)
    (same : archive.part id = other.part id) :
    work.fate reply judge id archive = work.fate reply judge id other := by
  induction confined generalizing archive other with
  | done value => exact congrArg (Fate.mk _ · _) same
  | failed failure => exact congrArg (Fate.mk _ · _) same
  | @act action next isOf dateless _ ih =>
      obtain ⟨alike, agree⟩ := Archive.answers_agree isOf same
        (Archive.answersBy_answering reply judge action archive)
        (Archive.answersBy_answering reply judge action other)
      rw [fate_act, fate_act, dateless alike, ih _ agree]

/-- However an action of confined work is answered, the rest comes to what all of it comes to. -/
theorem fate_of_answers {action : Action} {next : action.Answer → Work α} {answer : action.Answer}
    (confined : Confined id (.act action next))
    (answers : archive.AnswersBy reply judge ⟨action, answer⟩ after) :
    (Work.act action next).fate reply judge id archive =
      ((next answer).fate reply judge id after).later := by
  cases confined with
  | act isOf dateless rest =>
      obtain ⟨alike, agree⟩ := Archive.answers_agree isOf rfl
        (Archive.answersBy_answering reply judge action archive) answers
      rw [fate_act, dateless alike, fate_congr (rest answer) agree]

/-- Confined work leaves what other units have as it is. -/
theorem part_run_of_ne {work : Work α} (confined : Confined id work) {stranger : UnitId}
    (differs : stranger ≠ id) (archive : Archive) :
    (work.run (Archive.answering reply judge) archive).2.part stranger = archive.part stranger := by
  induction confined generalizing archive with
  | done value => rfl
  | failed failure => rfl
  | @act action next isOf _ _ ih =>
      have answers := Archive.answers_answering reply judge action archive
      exact (ih _ _).trans (Archive.part_of_answers_of_ne isOf differs answers)

end Work

end Graft
