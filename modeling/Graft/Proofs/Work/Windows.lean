import Graft.Proofs.Work.Mend
import Graft.Work.Windows

/-!
The courses of the work on a unit. A `Window` is a first attempt at its last function and what becomes
of the variant with it (`WindowSettles`, and `WindowSettled` if no error ends it); `Grows` takes one
window after the other, and `Runs` puts the loading and the saving of the checkpoint around it.
`runs_of_course` says that the work takes no other course, and `Runs.course` that it can take each of
these; `stages_of_course` gives the stages of a run that comes to an outcome.
-/

namespace Graft

open Code

/-- What the work came to, once it has come so far. -/
def Progress.outcome (progress : Progress) (unit : SourceUnit) (requested : Nat) : UnitOutcome :=
  ⟨unit.id, requested, progress.windows, progress.repairs, progress.haltedAt⟩

/-- The progress with a window whose last function was repaired or given up. -/
def Progress.mended (progress : Progress) (ordinal : Nat) (mending : Mending) : Progress :=
  ⟨mending.selection, progress.repairs.insert ordinal mending.state,
    progress.windows ++ [⟨ordinal, mending.variant, mending.verdict⟩],
    if mending.verdict.isAccepted then none else some ordinal⟩

namespace Work

variable {settings : WorkSettings} {unit : SourceUnit} {spans : List Span}
  {happenings : List Happening}

inductive Settles (unit : SourceUnit) (ordinal attempt : Nat) (repairs : OrdinalMap RepairState) :
    List Happening → OrdinalMap RepairState → Prop
  | untouched (done : ∀ state, repairs.get? ordinal = some state → state.status = .repaired) :
      Settles unit ordinal attempt repairs [] repairs
  | repaired {state : RepairState} (found : repairs.get? ordinal = some state)
      (notYet : state.status ≠ .repaired) :
      Settles unit ordinal attempt repairs
        [toldTransition unit.id ordinal (state.markRepaired attempt) none]
        (repairs.insert ordinal (state.markRepaired attempt))

theorem settles_of_course {ordinal attempt : Nat} {repairs : OrdinalMap RepairState}
    {result : Except Failure (OrdinalMap RepairState)}
    (course : Course (settle unit ordinal attempt repairs) happenings result) :
    ∃ settled, result = .ok settled ∧ Settles unit ordinal attempt repairs happenings settled := by
  unfold settle at course
  cases found : repairs.get? ordinal with
  | none =>
      simp only [found, course_pure_iff] at course
      obtain ⟨rfl, rfl⟩ := course
      exact ⟨repairs, rfl, .untouched (by simp [found])⟩
  | some state =>
      simp only [found] at course
      split at course
      · next repaired =>
          obtain ⟨rfl, rfl⟩ := course_pure_iff.1 course
          exact ⟨repairs, rfl, .untouched (by simp [found, repaired])⟩
      · next notYet =>
          simp only [tellTransition, course_tell_bind_iff, course_pure_iff] at course
          obtain ⟨_, rfl, rfl, rfl⟩ := course
          exact ⟨_, rfl, .repaired found notYet⟩

theorem Settles.course {ordinal attempt : Nat} {repairs settled : OrdinalMap RepairState}
    (settles : Settles unit ordinal attempt repairs happenings settled) :
    Course (settle unit ordinal attempt repairs) happenings (.ok settled) := by
  unfold settle
  cases settles with
  | untouched done =>
      cases found : repairs.get? ordinal with
      | none => exact .done _
      | some state =>
          simp only [done state found, ↓reduceIte]
          exact .done _
  | repaired found notYet =>
      simp only [found, notYet, ↓reduceIte]
      exact course_tell_bind_iff.2 ⟨_, rfl, .done _⟩

inductive WindowSettles (settings : WorkSettings) (unit : SourceUnit) (spans : List Span)
    (ordinal attempt : Nat) (progress : Progress) : List Happening → Except Failure Progress → Prop
  | notMerged {merging : List Happening} {failure : Failure}
      (merges : Merges unit spans (progress.selection.insert ordinal attempt) merging
        (.error failure)) :
      WindowSettles settings unit spans ordinal attempt progress merging (.error failure)
  | accepted {merging settling : List Happening} {variant : Variant} {verdict : Verdict}
      {repairs : OrdinalMap RepairState}
      (merges : Merges unit spans (progress.selection.insert ordinal attempt) merging (.ok variant))
      (isAccepted : verdict.isAccepted = true)
      (settles : Settles unit ordinal attempt progress.repairs settling repairs) :
      WindowSettles settings unit spans ordinal attempt progress
        (merging ++ ⟨.validate variant (variant.fileName unit), verdict⟩ ::
          toldVerdict unit variant verdict :: settling)
        (.ok ⟨progress.selection.insert ordinal attempt, repairs,
          progress.windows ++ [⟨ordinal, variant, verdict⟩], none⟩)
  | rejected {merging mending : List Happening} {variant : Variant} {verdict : Verdict}
      {mended : Except Failure Mending}
      (merges : Merges unit spans (progress.selection.insert ordinal attempt) merging (.ok variant))
      (notAccepted : verdict.isAccepted = false)
      (mends : Mends settings.policy unit spans
        ⟨progress.selection.insert ordinal attempt,
          repairFor settings.policy ordinal attempt progress.repairs, variant, verdict⟩
        mending mended) :
      WindowSettles settings unit spans ordinal attempt progress
        (merging ++ ⟨.validate variant (variant.fileName unit), verdict⟩ ::
          toldVerdict unit variant verdict :: mending)
        (mended.map (progress.mended ordinal))

theorem windowSettles_of_course {ordinal attempt : Nat} {progress : Progress}
    {result : Except Failure Progress}
    (course : Course (settleWindow settings unit spans ordinal attempt progress) happenings result) :
    WindowSettles settings unit spans ordinal attempt progress happenings result := by
  unfold settleWindow at course
  rcases course_bind_iff.1 course with
    ⟨variant, merging, rest, hmerge, hrest, rfl⟩ | ⟨failure, hmerge, rfl⟩
  · obtain ⟨verdict, later, rfl, hlater⟩ := course_validate_bind_iff.1 hrest
    have merges := merges_of_course hmerge
    cases accepted : verdict.isAccepted with
    | true =>
        simp only [accepted, ↓reduceIte] at hlater
        obtain ⟨_, hsettle, rfl⟩ := course_bind_pure_iff.1 hlater
        obtain ⟨repairs, rfl, settles⟩ := settles_of_course hsettle
        exact .accepted merges accepted settles
    | false =>
        simp only [accepted, Bool.false_eq_true, ↓reduceIte] at hlater
        obtain ⟨mended, hmend, rfl⟩ := course_bind_pure_iff.1 hlater
        exact .rejected merges accepted (mends_of_course hmend)
  · exact .notMerged (merges_of_course hmerge)

theorem WindowSettles.course {ordinal attempt : Nat} {progress : Progress}
    {result : Except Failure Progress}
    (settles : WindowSettles settings unit spans ordinal attempt progress happenings result) :
    Course (settleWindow settings unit spans ordinal attempt progress) happenings result := by
  cases settles with
  | notMerged merges => exact course_bind_iff.2 (.inr ⟨_, merges.course, rfl⟩)
  | accepted merges isAccepted settles =>
      refine course_bind_iff.2 (.inl ⟨_, _, _, merges.course,
        course_validate_bind_iff.2 ⟨_, _, rfl, ?_⟩, rfl⟩)
      simp only [isAccepted, ↓reduceIte]
      exact course_bind_pure_iff.2 ⟨_, settles.course, rfl⟩
  | rejected merges notAccepted mends =>
      refine course_bind_iff.2 (.inl ⟨_, _, _, merges.course,
        course_validate_bind_iff.2 ⟨_, _, rfl, ?_⟩, rfl⟩)
      simp only [notAccepted, Bool.false_eq_true, ↓reduceIte]
      exact course_bind_pure_iff.2 ⟨_, mends.course, rfl⟩

/-- What has become of a window that no error ended: it was accepted at once, or the repair of its last
function came to an end, whether it succeeded or not. -/
inductive WindowSettled (settings : WorkSettings) (unit : SourceUnit) (spans : List Span)
    (ordinal attempt : Nat) (progress : Progress) : List Happening → Progress → Prop
  | accepted {merging settling : List Happening} {variant : Variant} {verdict : Verdict}
      {repairs : OrdinalMap RepairState}
      (merges : Merges unit spans (progress.selection.insert ordinal attempt) merging (.ok variant))
      (isAccepted : verdict.isAccepted = true)
      (settles : Settles unit ordinal attempt progress.repairs settling repairs) :
      WindowSettled settings unit spans ordinal attempt progress
        (merging ++ ⟨.validate variant (variant.fileName unit), verdict⟩ ::
          toldVerdict unit variant verdict :: settling)
        ⟨progress.selection.insert ordinal attempt, repairs,
          progress.windows ++ [⟨ordinal, variant, verdict⟩], none⟩
  | rejected {merging mending : List Happening} {variant : Variant} {verdict : Verdict}
      {mended : Mending}
      (merges : Merges unit spans (progress.selection.insert ordinal attempt) merging (.ok variant))
      (notAccepted : verdict.isAccepted = false)
      (mends : Mends settings.policy unit spans
        ⟨progress.selection.insert ordinal attempt,
          repairFor settings.policy ordinal attempt progress.repairs, variant, verdict⟩
        mending (.ok mended)) :
      WindowSettled settings unit spans ordinal attempt progress
        (merging ++ ⟨.validate variant (variant.fileName unit), verdict⟩ ::
          toldVerdict unit variant verdict :: mending)
        (progress.mended ordinal mended)

theorem settled_of_windowSettles {ordinal attempt : Nat} {progress after : Progress}
    (settles : WindowSettles settings unit spans ordinal attempt progress happenings (.ok after)) :
    WindowSettled settings unit spans ordinal attempt progress happenings after := by
  generalize hresult : Except.ok after = result at settles
  cases settles with
  | notMerged => cases hresult
  | accepted merges isAccepted settles =>
      obtain rfl := Except.ok.inj hresult
      exact .accepted merges isAccepted settles
  | @rejected _ _ _ _ mended merges notAccepted mends =>
      cases mended with
      | error => cases hresult
      | ok mended =>
          obtain rfl := Except.ok.inj hresult
          exact .rejected merges notAccepted mends

inductive Window (settings : WorkSettings) (unit : SourceUnit) (spans : List Span)
    (previous : Option Checkpoint) (ordinal : Nat) (progress : Progress) :
    List Happening → Except Failure Progress → Prop
  | noFirst {first : List Happening} {failure : Failure}
      (attempts : FirstAttempt settings.policy unit spans ordinal previous progress.repairs
        settings.useCache first (.error failure)) :
      Window settings unit spans previous ordinal progress first (.error failure)
  | noAttempt {first : List Happening} {repairs : OrdinalMap RepairState}
      (attempts : FirstAttempt settings.policy unit spans ordinal previous progress.repairs
        settings.useCache first (.ok (none, repairs))) :
      Window settings unit spans previous ordinal progress first
        (.ok { progress with repairs, haltedAt := some ordinal })
  | settled {attempt : Nat} {first settling : List Happening} {repairs : OrdinalMap RepairState}
      {result : Except Failure Progress}
      (attempts : FirstAttempt settings.policy unit spans ordinal previous progress.repairs
        settings.useCache first (.ok (some attempt, repairs)))
      (settles : WindowSettles settings unit spans ordinal attempt { progress with repairs } settling
        result) :
      Window settings unit spans previous ordinal progress (first ++ settling) result

inductive Grows (settings : WorkSettings) (unit : SourceUnit) (spans : List Span)
    (previous : Option Checkpoint) :
    List Nat → Progress → List Happening → Except Failure Progress → Prop
  | done (progress : Progress) : Grows settings unit spans previous [] progress [] (.ok progress)
  | failed {ordinal : Nat} {ordinals : List Nat} {progress : Progress} {first : List Happening}
      {failure : Failure}
      (window : Window settings unit spans previous ordinal progress first (.error failure)) :
      Grows settings unit spans previous (ordinal :: ordinals) progress first (.error failure)
  | halted {ordinal : Nat} {ordinals : List Nat} {progress after : Progress} {first : List Happening}
      (window : Window settings unit spans previous ordinal progress first (.ok after))
      (halts : after.haltedAt ≠ none) :
      Grows settings unit spans previous (ordinal :: ordinals) progress first (.ok after)
  | further {ordinal : Nat} {ordinals : List Nat} {progress after : Progress}
      {first rest : List Happening} {result : Except Failure Progress}
      (window : Window settings unit spans previous ordinal progress first (.ok after))
      (goesOn : after.haltedAt = none)
      (later : Grows settings unit spans previous ordinals after rest result) :
      Grows settings unit spans previous (ordinal :: ordinals) progress (first ++ rest) result

theorem grows_of_course {previous : Option Checkpoint} {ordinals : List Nat} {progress : Progress}
    {result : Except Failure Progress}
    (course : Course (grow settings unit spans previous ordinals progress) happenings result) :
    Grows settings unit spans previous ordinals progress happenings result := by
  induction ordinals generalizing progress happenings with
  | nil =>
      obtain ⟨rfl, rfl⟩ := course_pure_iff.1 course
      exact .done progress
  | cons ordinal ordinals ih =>
      unfold grow at course
      rcases course_bind_iff.1 course with
        ⟨⟨attempt?, repairs⟩, first, rest, hfirst, hrest, rfl⟩ | ⟨failure, hfirst, rfl⟩
      · have attempts := firstAttempt_of_course hfirst
        cases attempt? with
        | none =>
            obtain ⟨rfl, rfl⟩ := course_pure_iff.1 hrest
            rw [List.append_nil]
            exact .halted (.noAttempt attempts) (by simp)
        | some attempt =>
            rcases course_bind_iff.1 hrest with
              ⟨after, settling, last, hwindow, hlast, rfl⟩ | ⟨failure, hwindow, rfl⟩
            · have window := Window.settled attempts (windowSettles_of_course hwindow)
              rw [← List.append_assoc]
              cases halts : after.haltedAt with
              | none =>
                  simp only [halts, Option.isSome_none, Bool.false_eq_true, ↓reduceIte] at hlast
                  exact .further window halts (ih hlast)
              | some ordinal =>
                  simp only [halts, Option.isSome_some, ↓reduceIte, course_pure_iff] at hlast
                  obtain ⟨rfl, rfl⟩ := hlast
                  rw [List.append_nil]
                  exact .halted window (by simp [halts])
            · exact .failed (.settled attempts (windowSettles_of_course hwindow))
      · exact .failed (.noFirst (firstAttempt_of_course hfirst))

theorem Grows.course {previous : Option Checkpoint} {ordinals : List Nat} {progress : Progress}
    {result : Except Failure Progress}
    (grows : Grows settings unit spans previous ordinals progress happenings result) :
    Course (grow settings unit spans previous ordinals progress) happenings result := by
  induction grows with
  | done progress => exact .done progress
  | failed window =>
      cases window with
      | noFirst attempts => exact course_bind_iff.2 (.inr ⟨_, attempts.course, rfl⟩)
      | settled attempts settles =>
          exact course_bind_iff.2 (.inl ⟨_, _, _, attempts.course,
            course_bind_iff.2 (.inr ⟨_, settles.course, rfl⟩), rfl⟩)
  | @halted _ _ _ after _ window halts =>
      cases window with
      | noAttempt attempts =>
          exact course_bind_iff.2 (.inl ⟨_, _, [], attempts.course, .done _, (List.append_nil _).symm⟩)
      | @settled _ _ settling _ _ attempts settles =>
          refine course_bind_iff.2 (.inl ⟨_, _, _, attempts.course,
            course_bind_iff.2 (.inl ⟨after, settling, [], settles.course, ?_, by simp⟩), rfl⟩)
          simp [Option.isSome_iff_ne_none.2 halts]
  | @further _ _ _ after _ _ _ window goesOn later ih =>
      cases window with
      | noAttempt => simp at goesOn
      | settled attempts settles =>
          rw [List.append_assoc]
          refine course_bind_iff.2 (.inl ⟨_, _, _, attempts.course,
            course_bind_iff.2 (.inl ⟨after, _, _, settles.course, ?_, rfl⟩), rfl⟩)
          simpa [goesOn] using ih

/-- The checkpoint of the last run, if this one may use it. -/
def loadPrevious (settings : WorkSettings) (unit : SourceUnit) : Work (Option Checkpoint) :=
  if settings.keepsCheckpoints && settings.useCache then do
    ofExcept id (← perform (.loadCheckpoint unit.id))
  else pure none

def openingWindows (unit : SourceUnit) (requested : Nat) : Work (List WindowOutcome) :=
  if requested = 0 then do return [← unchangedWindow unit]
  else pure []

def saveProgress (settings : WorkSettings) (unit : SourceUnit) (progress : Progress) : Work Unit :=
  if settings.keepsCheckpoints then do
    ofExcept id (← perform (.saveCheckpoint unit.id progress.selection progress.repairs))
  else pure ()

theorem ite_bind {α β : Type} (p : Prop) [Decidable p] (first second : Work α)
    (next : α → Work β) :
    (if p then first else second) >>= next = if p then first >>= next else second >>= next := by
  split <;> rfl

/-- The work on a unit, one stage after the other. -/
theorem onUnit_eq (mergeBack : Nat) : onUnit settings unit mergeBack = do
    let spans ← ofExcept .location (locate unit.text unit.functions)
    tell (.unitStarted unit.id unit.count (min mergeBack unit.count))
    let previous ← loadPrevious settings unit
    let windows ← openingWindows unit (min mergeBack unit.count)
    let progress ← grow settings unit spans previous (List.range' 1 (min mergeBack unit.count))
      ⟨∅, ∅, windows, none⟩
    saveProgress settings unit progress
    let outcome := progress.outcome unit (min mergeBack unit.count)
    tell (.unitFinished unit.id outcome.windowReached outcome.isAccepted)
    return outcome := by
  unfold onUnit loadPrevious openingWindows saveProgress
  simp only [ite_bind, bind_assoc, pure_bind]
  rfl

inductive Loads (settings : WorkSettings) (unit : SourceUnit) :
    List Happening → Except Failure (Option Checkpoint) → Prop
  | unused (h : (settings.keepsCheckpoints && settings.useCache) = false) :
      Loads settings unit [] (.ok none)
  | loaded (h : (settings.keepsCheckpoints && settings.useCache) = true)
      (answer : Except Failure (Option Checkpoint)) :
      Loads settings unit [⟨.loadCheckpoint unit.id, answer⟩] answer

theorem loads_of_course {result : Except Failure (Option Checkpoint)}
    (course : Course (loadPrevious settings unit) happenings result) :
    Loads settings unit happenings result := by
  unfold loadPrevious at course
  split at course
  · next kept =>
      obtain ⟨answer, _, rfl, hlast⟩ := course_perform_bind_iff.1 course
      obtain ⟨rfl, rfl⟩ := course_ofExcept_iff.1 hlast
      cases answer <;> exact .loaded kept _
  · next unused =>
      obtain ⟨rfl, rfl⟩ := course_pure_iff.1 course
      exact .unused (by simpa using unused)

theorem Loads.course {result : Except Failure (Option Checkpoint)}
    (loads : Loads settings unit happenings result) :
    Course (loadPrevious settings unit) happenings result := by
  unfold loadPrevious
  cases loads with
  | unused h =>
      simp only [h, Bool.false_eq_true, ↓reduceIte]
      exact .done _
  | loaded h =>
      simp only [h, ↓reduceIte]
      refine course_perform_bind_iff.2 ⟨_, _, rfl, course_ofExcept_iff.2 ⟨rfl, ?_⟩⟩
      cases result <;> rfl

inductive Opens (unit : SourceUnit) (requested : Nat) : List Happening → List WindowOutcome → Prop
  | unchanged (none : requested = 0) (verdict : Verdict) :
      Opens unit requested
        [⟨.validate (.unchanged unit) ((Variant.unchanged unit).fileName unit), verdict⟩,
          toldVerdict unit (.unchanged unit) verdict]
        [⟨0, .unchanged unit, verdict⟩]
  | none (some : requested ≠ 0) : Opens unit requested [] []

theorem opens_of_course {requested : Nat} {result : Except Failure (List WindowOutcome)}
    (course : Course (openingWindows unit requested) happenings result) :
    ∃ windows, result = .ok windows ∧ Opens unit requested happenings windows := by
  unfold openingWindows unchangedWindow at course
  split at course
  · next none =>
      simp only [bind_assoc, course_validate_bind_iff, pure_bind, course_pure_iff] at course
      obtain ⟨verdict, _, rfl, rfl, rfl⟩ := course
      exact ⟨_, rfl, .unchanged none verdict⟩
  · next some =>
      obtain ⟨rfl, rfl⟩ := course_pure_iff.1 course
      exact ⟨[], rfl, .none some⟩

theorem Opens.course {requested : Nat} {windows : List WindowOutcome}
    (opens : Opens unit requested happenings windows) :
    Course (openingWindows unit requested) happenings (.ok windows) := by
  unfold openingWindows unchangedWindow
  cases opens with
  | unchanged none verdict =>
      simp only [none, ↓reduceIte, bind_assoc]
      exact course_validate_bind_iff.2 ⟨verdict, _, rfl, .done _⟩
  | none some =>
      simp only [some, ↓reduceIte]
      exact .done _

inductive Saves (settings : WorkSettings) (unit : SourceUnit) (progress : Progress) :
    List Happening → Except Failure Unit → Prop
  | unkept (h : settings.keepsCheckpoints = false) : Saves settings unit progress [] (.ok ())
  | saved (h : settings.keepsCheckpoints = true) (answer : Except Failure Unit) :
      Saves settings unit progress
        [⟨.saveCheckpoint unit.id progress.selection progress.repairs, answer⟩] answer

theorem saves_of_course {progress : Progress} {result : Except Failure Unit}
    (course : Course (saveProgress settings unit progress) happenings result) :
    Saves settings unit progress happenings result := by
  unfold saveProgress at course
  split at course
  · next kept =>
      obtain ⟨answer, _, rfl, hlast⟩ := course_perform_bind_iff.1 course
      obtain ⟨rfl, rfl⟩ := course_ofExcept_iff.1 hlast
      cases answer <;> exact .saved kept _
  · next unkept =>
      obtain ⟨rfl, rfl⟩ := course_pure_iff.1 course
      exact .unkept (by simpa using unkept)

theorem Saves.course {progress : Progress} {result : Except Failure Unit}
    (saves : Saves settings unit progress happenings result) :
    Course (saveProgress settings unit progress) happenings result := by
  unfold saveProgress
  cases saves with
  | unkept h =>
      simp only [h, Bool.false_eq_true, ↓reduceIte]
      exact .done _
  | saved h =>
      simp only [h, ↓reduceIte]
      refine course_perform_bind_iff.2 ⟨_, _, rfl, course_ofExcept_iff.2 ⟨rfl, ?_⟩⟩
      cases result <;> rfl

inductive Closes (settings : WorkSettings) (unit : SourceUnit) (requested : Nat) :
    Except Failure Progress → List Happening → Except Failure UnitOutcome → Prop
  | notGrown (failure : Failure) :
      Closes settings unit requested (.error failure) [] (.error failure)
  | notSaved {progress : Progress} {saving : List Happening} {failure : Failure}
      (saves : Saves settings unit progress saving (.error failure)) :
      Closes settings unit requested (.ok progress) saving (.error failure)
  | finished {progress : Progress} {saving : List Happening} {outcome : UnitOutcome}
      (saves : Saves settings unit progress saving (.ok ()))
      (houtcome : outcome = progress.outcome unit requested) :
      Closes settings unit requested (.ok progress)
        (saving ++ [told (.unitFinished unit.id outcome.windowReached outcome.isAccepted)])
        (.ok outcome)

inductive Runs (settings : WorkSettings) (unit : SourceUnit) (mergeBack : Nat) :
    List Happening → Except Failure UnitOutcome → Prop
  | notLocated {error : LocateError} (located : locate unit.text unit.functions = .error error) :
      Runs settings unit mergeBack [] (.error (.location error))
  | notLoaded {spans : List Span} {loading : List Happening} {failure : Failure}
      (located : locate unit.text unit.functions = .ok spans)
      (loads : Loads settings unit loading (.error failure)) :
      Runs settings unit mergeBack
        (told (.unitStarted unit.id unit.count (min mergeBack unit.count)) :: loading)
        (.error failure)
  | loaded {spans : List Span} {loading opening growing closing : List Happening}
      {previous : Option Checkpoint} {windows : List WindowOutcome} {grown : Except Failure Progress}
      {result : Except Failure UnitOutcome}
      (located : locate unit.text unit.functions = .ok spans)
      (loads : Loads settings unit loading (.ok previous))
      (opens : Opens unit (min mergeBack unit.count) opening windows)
      (grows : Grows settings unit spans previous (List.range' 1 (min mergeBack unit.count))
        ⟨∅, ∅, windows, none⟩ growing grown)
      (closes : Closes settings unit (min mergeBack unit.count) grown closing result) :
      Runs settings unit mergeBack
        (told (.unitStarted unit.id unit.count (min mergeBack unit.count)) ::
          (loading ++ opening ++ growing ++ closing))
        result

theorem runs_of_course {mergeBack : Nat} {result : Except Failure UnitOutcome}
    (course : Course (onUnit settings unit mergeBack) happenings result) :
    Runs settings unit mergeBack happenings result := by
  rw [onUnit_eq, course_ofExcept_bind_iff] at course
  rcases course with ⟨spans, located, hstart⟩ | ⟨error, located, rfl, rfl⟩
  · obtain ⟨rest, rfl, hload⟩ := course_tell_bind_iff.1 hstart
    rcases course_bind_iff.1 hload with
      ⟨previous, loading, rest, hloading, hopen, rfl⟩ | ⟨failure, hloading, rfl⟩
    · have loads := loads_of_course hloading
      rcases course_bind_iff.1 hopen with
        ⟨windows, opening, rest, hopening, hgrow, rfl⟩ | ⟨failure, hopening, rfl⟩
      · obtain ⟨_, heq, opens⟩ := opens_of_course hopening
        obtain rfl := Except.ok.inj heq
        rcases course_bind_iff.1 hgrow with
          ⟨progress, growing, rest, hgrowing, hsave, rfl⟩ | ⟨failure, hgrowing, rfl⟩
        · have grows := grows_of_course hgrowing
          rcases course_bind_iff.1 hsave with
            ⟨_, saving, rest, hsaving, hlast, rfl⟩ | ⟨failure, hsaving, rfl⟩
          · simp only [course_tell_bind_iff, course_pure_iff] at hlast
            obtain ⟨_, rfl, rfl, rfl⟩ := hlast
            simpa only [List.append_assoc] using
              Runs.loaded located loads opens grows (.finished (saves_of_course hsaving) rfl)
          · simpa only [List.append_assoc] using
              Runs.loaded located loads opens grows (.notSaved (saves_of_course hsaving))
        · simpa only [List.append_assoc, List.append_nil] using
            Runs.loaded located loads opens (grows_of_course hgrowing) (.notGrown failure)
      · obtain ⟨_, heq, -⟩ := opens_of_course hopening
        simp at heq
    · exact .notLoaded located (loads_of_course hloading)
  · exact .notLocated located

theorem Runs.course {mergeBack : Nat} {result : Except Failure UnitOutcome}
    (runs : Runs settings unit mergeBack happenings result) :
    Course (onUnit settings unit mergeBack) happenings result := by
  rw [onUnit_eq, course_ofExcept_bind_iff]
  cases runs with
  | notLocated located => exact .inr ⟨_, located, rfl, rfl⟩
  | notLoaded located loads =>
      exact .inl ⟨_, located, course_tell_bind_iff.2 ⟨_, rfl,
        course_bind_iff.2 (.inr ⟨_, loads.course, rfl⟩)⟩⟩
  | loaded located loads opens grows closes =>
      rw [List.append_assoc, List.append_assoc]
      refine .inl ⟨_, located, course_tell_bind_iff.2 ⟨_, rfl,
        course_bind_iff.2 (.inl ⟨_, _, _, loads.course,
          course_bind_iff.2 (.inl ⟨_, _, _, opens.course, ?_, rfl⟩), rfl⟩)⟩⟩
      cases closes with
      | notGrown failure =>
          exact course_bind_iff.2 (.inr ⟨failure, by simpa using grows.course, rfl⟩)
      | notSaved saves =>
          exact course_bind_iff.2 (.inl ⟨_, _, _, grows.course,
            course_bind_iff.2 (.inr ⟨_, saves.course, rfl⟩), rfl⟩)
      | finished saves houtcome =>
          subst houtcome
          exact course_bind_iff.2 (.inl ⟨_, _, _, grows.course,
            course_bind_iff.2 (.inl ⟨_, _, _, saves.course,
              course_tell_bind_iff.2 ⟨_, rfl, .done _⟩, rfl⟩), rfl⟩)

/-- The stages of a run that comes to an outcome. -/
theorem stages_of_course {mergeBack : Nat} {outcome : UnitOutcome}
    (course : Course (onUnit settings unit mergeBack) happenings (.ok outcome)) :
    ∃ spans previous loading opening windows growing progress saving,
      locate unit.text unit.functions = .ok spans ∧ Loads settings unit loading (.ok previous) ∧
      Opens unit (min mergeBack unit.count) opening windows ∧
      Grows settings unit spans previous (List.range' 1 (min mergeBack unit.count))
        ⟨∅, ∅, windows, none⟩ growing (.ok progress) ∧
      Saves settings unit progress saving (.ok ()) ∧
      outcome = progress.outcome unit (min mergeBack unit.count) ∧
      happenings = told (.unitStarted unit.id unit.count (min mergeBack unit.count)) ::
        (loading ++ opening ++ growing ++ (saving ++
          [told (.unitFinished unit.id outcome.windowReached outcome.isAccepted)])) := by
  cases runs_of_course course with
  | @loaded spans loading opening growing _ previous windows _ _ located loads opens grows closes =>
      cases closes with
      | @finished progress saving _ saves houtcome =>
          exact ⟨spans, previous, loading, opening, windows, growing, progress, saving, located,
            loads, opens, grows, saves, houtcome, rfl⟩

end Work

end Graft
