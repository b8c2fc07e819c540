import Graft.Work.Basic

/-!
The first attempt at a function: one that an earlier run left, or a new one from the service. A
service that gives no candidate is asked again until the budget is spent or it refuses.
-/

namespace Graft

open Code Generation

/-- How many calls may be made for a function, whether failures are repaired at all, and for how many
seconds an answer is waited for. -/
structure Policy where
  maxFixAttempts : Nat
  autoFix : Bool
  timeoutSeconds : Nat
  deriving Repr, DecidableEq, Inhabited

namespace Work

def requestFor (unit : SourceUnit) (spans : List Span) (ordinal : Nat)
    (priorAttempt failureReason : Option String) : Request :=
  let defined := do (← spans[ordinal - 1]?).slice? unit.text
  { unitId := unit.id, ordinal
    functionName := (unit.identifier? ordinal).getD ""
    language := unit.language
    definedText := defined.getD ""
    priorAttempt, failureReason }

/-- Asks the service; silence counts as a failure that another call may mend. -/
def ask (policy : Policy) (request : Request) : Work (Except GenerationError String) := do
  match ← perform (.ask request) with
  | .answer result => return result
  | .silence => return .error (.service s!"timed out after {policy.timeoutSeconds}s")

def tellTransition (unit : UnitId) (ordinal : Nat) (state : RepairState) (reason : Option String) :
    Work Unit :=
  tell (.repairTransition unit ordinal state.status state.consumed reason)

/-- How asking for a first candidate ends. -/
inductive FirstCandidate where
  | stored (attempt : Nat)
  | refused (state : RepairState)

def firstCandidate (policy : Policy) (request : Request) : Nat → RepairState → Work FirstCandidate
  | 0, state => do
      let state := state.markExhausted
      tellTransition request.unitId request.ordinal state (some "no candidate generated")
      return .refused state
  | remaining + 1, state => do
      let state := state.beginCall
      match ← ask policy request with
      | .ok text =>
          let attempt ← put request.unitId request.ordinal text
          tell (.candidateStored request.unitId request.ordinal attempt)
          return .stored attempt
      | .error (.rejected message) =>
          let state := (state.record state.consumed (.rejected message)).markRejected message
          tellTransition request.unitId request.ordinal state state.rejection
          return .refused state
      | .error error =>
          tell (.generationFailed request.unitId request.ordinal error.message)
          firstCandidate policy request remaining
            (state.record state.consumed (.serviceError error.message))

/-- A new first candidate; nothing when none came, which the repairs then tell. -/
def generate (policy : Policy) (unit : SourceUnit) (spans : List Span) (ordinal : Nat)
    (repairs : OrdinalMap RepairState) : Work (Option Nat × OrdinalMap RepairState) := do
  let budget := max policy.maxFixAttempts 1
  let request := requestFor unit spans ordinal none none
  match ← firstCandidate policy request budget (.start ordinal budget 0) with
  | .stored attempt => return (some attempt, repairs)
  | .refused state => return (none, repairs.insert ordinal state)

/-- Which attempt a repair of an earlier run goes on with. -/
inductive Continuation where
  /-- The attempt that the repair tried last, or any that is there. -/
  | kept (attempt : Nat)
  /-- An attempt that was put since. -/
  | resumed (attempt : Nat)
  /-- There is no attempt to go on with. -/
  | missing
  deriving Repr, DecidableEq

/-- The attempt with which a repair goes on, by the attempts that are stored. A repaired function
keeps its attempt; any other takes an attempt newer than the one it tried last. -/
def continuation (state : RepairState) (stored : List Nat) : Continuation :=
  let hasLast := stored.contains state.lastTried
  if state.status = .repaired ∧ hasLast then .kept state.lastTried
  else
    match stored.getLast? with
    | some latest =>
        if state.lastTried < latest then .resumed latest
        else if state.status ≠ .repaired ∧ hasLast then .kept state.lastTried
        else .kept latest
    | none => .missing

/-- The first attempt at a function in a run; nothing when none can be had. A run that may use what
is there goes on with the repair of the last run, takes the attempt that it chose, or the latest. -/
def initialAttempt (policy : Policy) (useCache : Bool) (unit : SourceUnit) (spans : List Span)
    (ordinal : Nat) (previous : Option Checkpoint) (repairs : OrdinalMap RepairState) :
    Work (Option Nat × OrdinalMap RepairState) := do
  if !useCache then generate policy unit spans ordinal repairs
  else
    let stored ← attempts unit.id ordinal
    match previous.bind (·.repairs.get? ordinal) with
    | some state =>
        let state := state.refreshBudget policy.maxFixAttempts
        match continuation state stored with
        | .kept attempt => return (some attempt, repairs.insert ordinal state)
        | .resumed attempt =>
            let state := state.resume attempt
            tellTransition unit.id ordinal state none
            return (some attempt, repairs.insert ordinal state)
        | .missing => generate policy unit spans ordinal repairs
    | none =>
        let chosen := (previous.bind (·.selection.get? ordinal)).filter stored.contains
        match chosen.orElse fun _ => stored.getLast? with
        | some attempt => return (some attempt, repairs)
        | none => generate policy unit spans ordinal repairs

end Work

end Graft
