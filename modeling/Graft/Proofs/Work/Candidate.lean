import Graft.Proofs.Work.Course
import Graft.Work.Candidate

/-!
The courses of the search for a first attempt. `FirstCalls` has one constructor for each way in which
a call for a first candidate can end, and `FirstAttempt` one for each way in which a run comes to
the first attempt at a function. `firstAttempt_of_course` says that the work takes no other course, and
`FirstAttempt.course` that it can take each of these.
-/

namespace Graft

open Code Generation

/-- What the work makes of a reply: silence counts as a failure of the service. -/
def Policy.taken (policy : Policy) : Reply → Except GenerationError String
  | .answer result => result
  | .silence => .error (.service s!"timed out after {policy.timeoutSeconds}s")

/-- A new budget makes no repair a success, and undoes none. -/
@[simp] theorem RepairState.refreshBudget_status_eq_repaired (state : RepairState) (budget : Nat) :
    (state.refreshBudget budget).status = .repaired ↔ state.status = .repaired := by
  unfold refreshBudget
  dsimp only
  split
  · next reopened =>
      have exhausted : state.status = .exhausted := by
        simp only [Bool.and_eq_true, beq_iff_eq] at reopened
        exact reopened.1.1
      simp [exhausted]
  · rfl

namespace Work

/-- A repair whose last attempt is still stored goes on with it, unless it was not a success and a newer
attempt is there. -/
theorem continuation_eq_kept {state : RepairState} {stored : List Nat}
    (hlast : state.lastTried ∈ stored)
    (latest : state.status = .repaired ∨ ∀ attempt ∈ stored.getLast?, attempt ≤ state.lastTried) :
    continuation state stored = .kept state.lastTried := by
  have contains : stored.contains state.lastTried = true := by simpa using hlast
  by_cases repaired : state.status = .repaired
  · simp [continuation, repaired, hlast]
  · have notNewer := latest.resolve_left repaired
    cases hget : stored.getLast? with
    | none =>
        obtain rfl := List.getLast?_eq_none_iff.1 hget
        simp at hlast
    | some attempt =>
        have hle : ¬state.lastTried < attempt := Nat.not_lt.2 (notNewer attempt hget)
        simp [continuation, repaired, hlast, hget, hle]

def Continuation.attempt? : Continuation → Option Nat
  | kept attempt => some attempt
  | resumed attempt => some attempt
  | missing => none

/-- The attempt with which a repair goes on is among those that are stored. -/
theorem mem_of_continuation {state : RepairState} {stored : List Nat} {attempt : Nat}
    (h : (continuation state stored).attempt? = some attempt) : attempt ∈ stored := by
  unfold continuation at h
  dsimp only at h
  split at h
  · next hlast =>
      obtain rfl := Option.some.inj h
      simpa using hlast.2
  · split at h
    · next latest hget =>
        have member := List.mem_of_getLast? hget
        split at h
        · obtain rfl := Option.some.inj h
          exact member
        · split at h
          · next hlast =>
              obtain rfl := Option.some.inj h
              simpa using hlast.2
          · obtain rfl := Option.some.inj h
            exact member
    · simp [Continuation.attempt?] at h

section Request

variable (unit : SourceUnit) (spans : List Span) (ordinal : Nat) (prior reason : Option String)

@[simp] theorem requestFor_unitId :
    (requestFor unit spans ordinal prior reason).unitId = unit.id := rfl

@[simp] theorem requestFor_ordinal :
    (requestFor unit spans ordinal prior reason).ordinal = ordinal := rfl

@[simp] theorem requestFor_isRepair :
    (requestFor unit spans ordinal prior reason).isRepair = prior.isSome := rfl

end Request

variable {policy : Policy} {happenings : List Happening}

theorem course_ask_bind_iff {β : Type} {request : Request}
    {next : Except GenerationError String → Work β} {result : Except Failure β} :
    Course (ask policy request >>= next) happenings result ↔
      ∃ reply rest, happenings = ⟨.ask request, reply⟩ :: rest ∧
        Course (next (policy.taken reply)) rest result := by
  unfold ask
  rw [bind_assoc, course_perform_bind_iff]
  constructor
  · rintro ⟨reply, rest, rfl, course⟩
    cases reply <;> exact ⟨_, rest, rfl, course⟩
  · rintro ⟨reply, rest, rfl, course⟩
    cases reply <;> exact ⟨_, rest, rfl, course⟩

def toldTransition (unit : UnitId) (ordinal : Nat) (state : RepairState) (reason : Option String) :
    Happening :=
  told (.repairTransition unit ordinal state.status state.consumed reason)

inductive FirstCalls (policy : Policy) (request : Request) :
    Nat → RepairState → List Happening → Except Failure FirstCandidate → Prop
  | spent (state : RepairState) :
      FirstCalls policy request 0 state
        [toldTransition request.unitId request.ordinal state.markExhausted
          (some "no candidate generated")]
        (.ok (.refused state.markExhausted))
  | notStored {remaining : Nat} {state : RepairState} {reply : Reply} {text : String}
      (error : StoreError) (taken : policy.taken reply = .ok text) :
      FirstCalls policy request (remaining + 1) state
        [⟨.ask request, reply⟩, ⟨.put request.unitId request.ordinal text, .error error⟩]
        (.error (.store error))
  | stored {remaining : Nat} {state : RepairState} {reply : Reply} {text : String}
      (attempt : Nat) (taken : policy.taken reply = .ok text) :
      FirstCalls policy request (remaining + 1) state
        [⟨.ask request, reply⟩, ⟨.put request.unitId request.ordinal text, .ok attempt⟩,
          told (.candidateStored request.unitId request.ordinal attempt)]
        (.ok (.stored attempt))
  | rejected {remaining : Nat} {state refused : RepairState} {reply : Reply} {message : String}
      (taken : policy.taken reply = .error (.rejected message))
      (hrefused : refused = (state.beginCall.record state.beginCall.consumed
        (.rejected message)).markRejected message) :
      FirstCalls policy request (remaining + 1) state
        [⟨.ask request, reply⟩,
          toldTransition request.unitId request.ordinal refused refused.rejection]
        (.ok (.refused refused))
  | again {remaining : Nat} {state : RepairState} {reply : Reply} {message : String}
      {error : GenerationError} {rest : List Happening} {result : Except Failure FirstCandidate}
      (taken : policy.taken reply = .error error) (herror : error = .service message)
      (later : FirstCalls policy request remaining
        (state.beginCall.record state.beginCall.consumed (.serviceError error.message)) rest result) :
      FirstCalls policy request (remaining + 1) state
        (⟨.ask request, reply⟩ ::
          told (.generationFailed request.unitId request.ordinal error.message) :: rest)
        result

theorem firstCalls_of_course {request : Request} {remaining : Nat} {state : RepairState}
    {result : Except Failure FirstCandidate}
    (course : Course (firstCandidate policy request remaining state) happenings result) :
    FirstCalls policy request remaining state happenings result := by
  induction remaining generalizing state happenings with
  | zero =>
      simp only [firstCandidate, tellTransition, course_tell_bind_iff, course_pure_iff] at course
      obtain ⟨_, rfl, rfl, rfl⟩ := course
      exact .spent state
  | succ remaining ih =>
      simp only [firstCandidate, course_ask_bind_iff] at course
      obtain ⟨reply, rest, rfl, course⟩ := course
      cases taken : policy.taken reply with
      | ok text =>
          simp only [taken, course_put_bind_iff, course_tell_bind_iff, course_pure_iff] at course
          rcases course with ⟨attempt, _, rfl, _, rfl, rfl, rfl⟩ | ⟨error, rfl, rfl⟩
          · exact .stored attempt taken
          · exact .notStored error taken
      | error error =>
          cases error with
          | rejected message =>
              simp only [taken, tellTransition, course_tell_bind_iff, course_pure_iff] at course
              obtain ⟨_, rfl, rfl, rfl⟩ := course
              exact .rejected taken rfl
          | service message =>
              simp only [taken, course_tell_bind_iff] at course
              obtain ⟨_, rfl, course⟩ := course
              exact .again taken rfl (ih course)

/-- What the end of the search makes of the repairs: a service that gave no candidate leaves one that
is exhausted. -/
def FirstCandidate.into (ordinal : Nat) (repairs : OrdinalMap RepairState) :
    FirstCandidate → Option Nat × OrdinalMap RepairState
  | .stored attempt => (some attempt, repairs)
  | .refused state => (none, repairs.insert ordinal state)

def Generates (policy : Policy) (unit : SourceUnit) (spans : List Span) (ordinal : Nat)
    (repairs : OrdinalMap RepairState) (happenings : List Happening)
    (result : Except Failure (Option Nat × OrdinalMap RepairState)) : Prop :=
  ∃ last, FirstCalls policy (requestFor unit spans ordinal none none) (max policy.maxFixAttempts 1)
      (.start ordinal (max policy.maxFixAttempts 1) 0) happenings last ∧
    result = last.map (FirstCandidate.into ordinal repairs)

variable {unit : SourceUnit} {spans : List Span} {ordinal : Nat}
  {repairs : OrdinalMap RepairState} {result : Except Failure (Option Nat × OrdinalMap RepairState)}

theorem generate_eq : generate policy unit spans ordinal repairs =
    firstCandidate policy (requestFor unit spans ordinal none none) (max policy.maxFixAttempts 1)
      (.start ordinal (max policy.maxFixAttempts 1) 0) >>=
      fun last => pure (last.into ordinal repairs) := by
  unfold generate
  dsimp only
  congr
  funext last
  cases last <;> rfl

theorem generates_of_course
    (course : Course (generate policy unit spans ordinal repairs) happenings result) :
    Generates policy unit spans ordinal repairs happenings result := by
  rw [generate_eq, course_bind_pure_iff] at course
  obtain ⟨last, calls, hresult⟩ := course
  exact ⟨last, firstCalls_of_course calls, hresult⟩

/-- The attempt at a function without a repair: the one that the last run chose, if it is still
stored, and else the latest. -/
def chosenAttempt? (previous : Option Checkpoint) (ordinal : Nat) (stored : List Nat) : Option Nat :=
  ((previous.bind (·.selection.get? ordinal)).filter stored.contains).orElse
    fun _ => stored.getLast?

inductive FirstAttempt (policy : Policy) (unit : SourceUnit) (spans : List Span) (ordinal : Nat)
    (previous : Option Checkpoint) (repairs : OrdinalMap RepairState) :
    Bool → List Happening → Except Failure (Option Nat × OrdinalMap RepairState) → Prop
  | uncached {happenings : List Happening}
      {result : Except Failure (Option Nat × OrdinalMap RepairState)}
      (generates : Generates policy unit spans ordinal repairs happenings result) :
      FirstAttempt policy unit spans ordinal previous repairs false happenings result
  | unlisted (error : StoreError) :
      FirstAttempt policy unit spans ordinal previous repairs true
        [⟨.attempts unit.id ordinal, .error error⟩] (.error (.store error))
  | kept {stored : List Nat} {state : RepairState} {attempt : Nat}
      (restored : previous.bind (·.repairs.get? ordinal) = some state)
      (goesOn : continuation (state.refreshBudget policy.maxFixAttempts) stored = .kept attempt) :
      FirstAttempt policy unit spans ordinal previous repairs true
        [⟨.attempts unit.id ordinal, .ok stored⟩]
        (.ok (some attempt, repairs.insert ordinal (state.refreshBudget policy.maxFixAttempts)))
  | resumed {stored : List Nat} {state anew : RepairState} {attempt : Nat}
      (restored : previous.bind (·.repairs.get? ordinal) = some state)
      (goesOn : continuation (state.refreshBudget policy.maxFixAttempts) stored = .resumed attempt)
      (hanew : anew = (state.refreshBudget policy.maxFixAttempts).resume attempt) :
      FirstAttempt policy unit spans ordinal previous repairs true
        [⟨.attempts unit.id ordinal, .ok stored⟩, toldTransition unit.id ordinal anew none]
        (.ok (some attempt, repairs.insert ordinal anew))
  | lost {stored : List Nat} {state : RepairState} {happenings : List Happening}
      {result : Except Failure (Option Nat × OrdinalMap RepairState)}
      (restored : previous.bind (·.repairs.get? ordinal) = some state)
      (goesOn : continuation (state.refreshBudget policy.maxFixAttempts) stored = .missing)
      (generates : Generates policy unit spans ordinal repairs happenings result) :
      FirstAttempt policy unit spans ordinal previous repairs true
        (⟨.attempts unit.id ordinal, .ok stored⟩ :: happenings) result
  | chosen {stored : List Nat} {attempt : Nat}
      (notRestored : previous.bind (·.repairs.get? ordinal) = none)
      (choice : chosenAttempt? previous ordinal stored = some attempt) :
      FirstAttempt policy unit spans ordinal previous repairs true
        [⟨.attempts unit.id ordinal, .ok stored⟩] (.ok (some attempt, repairs))
  | fresh {stored : List Nat} {happenings : List Happening}
      {result : Except Failure (Option Nat × OrdinalMap RepairState)}
      (notRestored : previous.bind (·.repairs.get? ordinal) = none)
      (choice : chosenAttempt? previous ordinal stored = none)
      (generates : Generates policy unit spans ordinal repairs happenings result) :
      FirstAttempt policy unit spans ordinal previous repairs true
        (⟨.attempts unit.id ordinal, .ok stored⟩ :: happenings) result

theorem firstAttempt_of_course {useCache : Bool} {previous : Option Checkpoint}
    (course : Course (initialAttempt policy useCache unit spans ordinal previous repairs)
      happenings result) :
    FirstAttempt policy unit spans ordinal previous repairs useCache happenings result := by
  unfold initialAttempt at course
  cases useCache with
  | false => exact .uncached (generates_of_course course)
  | true =>
      simp only [Bool.not_true, Bool.false_eq_true, ↓reduceIte, course_attempts_bind_iff] at course
      rcases course with ⟨stored, rest, rfl, course⟩ | ⟨error, rfl, rfl⟩
      · cases restored : previous.bind (·.repairs.get? ordinal) with
        | some state =>
            simp only [restored] at course
            cases goesOn : continuation (state.refreshBudget policy.maxFixAttempts) stored with
            | kept attempt =>
                simp only [goesOn, course_pure_iff] at course
                obtain ⟨rfl, rfl⟩ := course
                exact .kept restored goesOn
            | resumed attempt =>
                simp only [goesOn, tellTransition, course_tell_bind_iff, course_pure_iff] at course
                obtain ⟨_, rfl, rfl, rfl⟩ := course
                exact .resumed restored goesOn rfl
            | missing =>
                simp only [goesOn] at course
                exact .lost restored goesOn (generates_of_course course)
        | none =>
            simp only [restored] at course
            split at course
            · next attempt choice =>
                obtain ⟨rfl, rfl⟩ := course_pure_iff.1 course
                exact .chosen restored choice
            · next choice => exact .fresh restored choice (generates_of_course course)
      · exact .unlisted error

theorem FirstCalls.course {request : Request} {remaining : Nat} {state : RepairState}
    {result : Except Failure FirstCandidate}
    (calls : FirstCalls policy request remaining state happenings result) :
    Course (firstCandidate policy request remaining state) happenings result := by
  induction calls with
  | spent => exact course_tell_bind_iff.2 ⟨_, rfl, .done _⟩
  | notStored error taken =>
      refine course_ask_bind_iff.2 ⟨_, _, rfl, ?_⟩
      rw [taken]
      exact course_put_bind_iff.2 (.inr ⟨error, rfl, rfl⟩)
  | stored attempt taken =>
      refine course_ask_bind_iff.2 ⟨_, _, rfl, ?_⟩
      rw [taken]
      exact course_put_bind_iff.2 (.inl ⟨attempt, _, rfl, course_tell_bind_iff.2 ⟨_, rfl, .done _⟩⟩)
  | rejected taken hrefused =>
      refine course_ask_bind_iff.2 ⟨_, _, rfl, ?_⟩
      rw [taken, hrefused]
      exact course_tell_bind_iff.2 ⟨_, rfl, .done _⟩
  | again taken herror later ih =>
      refine course_ask_bind_iff.2 ⟨_, _, rfl, ?_⟩
      subst herror
      rw [taken]
      exact course_tell_bind_iff.2 ⟨_, rfl, ih⟩

theorem Generates.course
    (generates : Generates policy unit spans ordinal repairs happenings result) :
    Course (generate policy unit spans ordinal repairs) happenings result := by
  obtain ⟨last, calls, hresult⟩ := generates
  rw [generate_eq, course_bind_pure_iff]
  exact ⟨last, calls.course, hresult⟩

theorem FirstAttempt.course {useCache : Bool} {previous : Option Checkpoint}
    (attempts : FirstAttempt policy unit spans ordinal previous repairs useCache happenings result) :
    Course (initialAttempt policy useCache unit spans ordinal previous repairs)
      happenings result := by
  cases attempts with
  | uncached generates => exact generates.course
  | unlisted error => exact course_attempts_bind_iff.2 (.inr ⟨error, rfl, rfl⟩)
  | kept restored goesOn =>
      refine course_attempts_bind_iff.2 (.inl ⟨_, _, rfl, ?_⟩)
      simp [restored, goesOn]
  | resumed restored goesOn hanew =>
      refine course_attempts_bind_iff.2 (.inl ⟨_, _, rfl, ?_⟩)
      simp only [restored, goesOn, hanew]
      exact course_tell_bind_iff.2 ⟨_, rfl, .done _⟩
  | lost restored goesOn generates =>
      refine course_attempts_bind_iff.2 (.inl ⟨_, _, rfl, ?_⟩)
      simp only [restored, goesOn]
      exact generates.course
  | chosen notRestored choice =>
      refine course_attempts_bind_iff.2 (.inl ⟨_, _, rfl, ?_⟩)
      simp only [chosenAttempt?] at choice
      simp only [notRestored, choice]
      exact .done _
  | fresh notRestored choice generates =>
      refine course_attempts_bind_iff.2 (.inl ⟨_, _, rfl, ?_⟩)
      simp only [chosenAttempt?] at choice
      simp only [notRestored, choice]
      exact generates.course

theorem stored_of_firstCalls {request : Request} {remaining attempt : Nat} {state : RepairState}
    (calls : FirstCalls policy request remaining state happenings (.ok (.stored attempt))) :
    ∃ text, ⟨.put request.unitId request.ordinal text, .ok attempt⟩ ∈ happenings := by
  generalize hresult : Except.ok (FirstCandidate.stored attempt) = result at calls
  induction calls with
  | spent => cases hresult
  | notStored => cases hresult
  | stored attempt taken =>
      cases hresult
      exact ⟨_, List.mem_cons_of_mem _ List.mem_cons_self⟩
  | rejected => cases hresult
  | again taken herror later ih =>
      obtain ⟨text, member⟩ := ih hresult
      exact ⟨text, List.mem_cons_of_mem _ (List.mem_cons_of_mem _ member)⟩

/-- A search that is refused leaves the repair of its function, exhausted; nothing was tried. -/
theorem refused_of_firstCalls {request : Request} {remaining : Nat} {state refused : RepairState}
    (calls : FirstCalls policy request remaining state happenings (.ok (.refused refused))) :
    refused.ordinal = state.ordinal ∧ refused.status = .exhausted ∧
      refused.lastTried = state.lastTried := by
  generalize hresult : Except.ok (FirstCandidate.refused refused) = result at calls
  induction calls with
  | spent =>
      cases hresult
      exact ⟨rfl, rfl, rfl⟩
  | notStored => cases hresult
  | stored => cases hresult
  | rejected taken hrefused =>
      cases hresult
      exact hrefused ▸ ⟨rfl, rfl, rfl⟩
  | again taken herror later ih => exact ih hresult

/-- How a function comes to its first attempt, and which repairs it begins with. -/
inductive Begins (policy : Policy) (unit : SourceUnit) (ordinal : Nat)
    (previous : Option Checkpoint) (repairs : OrdinalMap RepairState) (happenings : List Happening)
    (attempt : Nat) : OrdinalMap RepairState → Prop
  | anew {text : String} (put : ⟨.put unit.id ordinal text, .ok attempt⟩ ∈ happenings) :
      Begins policy unit ordinal previous repairs happenings attempt repairs
  | chosen {stored : List Nat} (listed : ⟨.attempts unit.id ordinal, .ok stored⟩ ∈ happenings)
      (notRestored : previous.bind (·.repairs.get? ordinal) = none)
      (choice : chosenAttempt? previous ordinal stored = some attempt) :
      Begins policy unit ordinal previous repairs happenings attempt repairs
  | kept {stored : List Nat} {state : RepairState}
      (listed : ⟨.attempts unit.id ordinal, .ok stored⟩ ∈ happenings)
      (restored : previous.bind (·.repairs.get? ordinal) = some state)
      (goesOn : continuation (state.refreshBudget policy.maxFixAttempts) stored = .kept attempt) :
      Begins policy unit ordinal previous repairs happenings attempt
        (repairs.insert ordinal (state.refreshBudget policy.maxFixAttempts))
  | resumed {stored : List Nat} {state : RepairState}
      (listed : ⟨.attempts unit.id ordinal, .ok stored⟩ ∈ happenings)
      (restored : previous.bind (·.repairs.get? ordinal) = some state)
      (goesOn : continuation (state.refreshBudget policy.maxFixAttempts) stored = .resumed attempt) :
      Begins policy unit ordinal previous repairs happenings attempt
        (repairs.insert ordinal ((state.refreshBudget policy.maxFixAttempts).resume attempt))

theorem stored_of_generates {attempt : Nat} {after : OrdinalMap RepairState}
    (generates : Generates policy unit spans ordinal repairs happenings (.ok (some attempt, after))) :
    after = repairs ∧ ∃ text, ⟨.put unit.id ordinal text, .ok attempt⟩ ∈ happenings := by
  obtain ⟨found, calls, hresult⟩ := generates
  rcases found with _ | stored | _ <;> cases hresult
  have member := stored_of_firstCalls calls
  rw [requestFor_unitId, requestFor_ordinal] at member
  exact ⟨rfl, member⟩

theorem refused_of_generates {after : OrdinalMap RepairState}
    (generates : Generates policy unit spans ordinal repairs happenings (.ok (none, after))) :
    ∃ refused : RepairState, refused.ordinal = ordinal ∧ refused.status = .exhausted ∧
      refused.lastTried = 0 ∧ after = repairs.insert ordinal refused := by
  obtain ⟨found, calls, hresult⟩ := generates
  rcases found with _ | _ | refused <;> cases hresult
  obtain ⟨hordinal, hstatus, htried⟩ := refused_of_firstCalls calls
  exact ⟨refused, hordinal, hstatus, htried, rfl⟩

theorem begins_of_firstAttempt {useCache : Bool} {previous : Option Checkpoint} {attempt : Nat}
    {after : OrdinalMap RepairState}
    (attempts : FirstAttempt policy unit spans ordinal previous repairs useCache happenings
      (.ok (some attempt, after))) :
    Begins policy unit ordinal previous repairs happenings attempt after := by
  cases attempts with
  | uncached generates =>
      obtain ⟨rfl, text, member⟩ := stored_of_generates generates
      exact .anew member
  | kept restored goesOn =>
      exact .kept List.mem_cons_self restored goesOn
  | resumed restored goesOn hanew =>
      exact hanew ▸ .resumed List.mem_cons_self restored goesOn
  | lost restored goesOn generates =>
      obtain ⟨rfl, text, member⟩ := stored_of_generates generates
      exact .anew (List.mem_cons_of_mem _ member)
  | chosen notRestored choice =>
      exact .chosen List.mem_cons_self notRestored choice
  | fresh notRestored choice generates =>
      obtain ⟨rfl, text, member⟩ := stored_of_generates generates
      exact .anew (List.mem_cons_of_mem _ member)

/-- A function that comes to no attempt leaves its repair, exhausted. -/
theorem refused_of_firstAttempt {useCache : Bool} {previous : Option Checkpoint}
    {after : OrdinalMap RepairState}
    (attempts : FirstAttempt policy unit spans ordinal previous repairs useCache happenings
      (.ok (none, after))) :
    ∃ refused : RepairState, refused.ordinal = ordinal ∧ refused.status = .exhausted ∧
      refused.lastTried = 0 ∧ after = repairs.insert ordinal refused := by
  cases attempts with
  | uncached generates => exact refused_of_generates generates
  | lost restored goesOn generates => exact refused_of_generates generates
  | fresh notRestored choice generates => exact refused_of_generates generates

end Work

end Graft
