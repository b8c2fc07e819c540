import Graft.Json.Decoder

/-!
How far the repair of one function has come. A repair has a budget of calls; it is pending until a
candidate is accepted, the service refuses, or the budget is spent, and an attempt that was put from
outside starts it anew.
-/

namespace Graft

open Json

inductive RepairStatus where
  | pending
  | repaired
  | exhausted
  deriving Repr, DecidableEq, Inhabited

namespace RepairStatus

def name : RepairStatus → String
  | pending => "pending"
  | repaired => "repaired"
  | exhausted => "exhausted"

def names : List (String × RepairStatus) := [pending, repaired, exhausted].map fun s => (s.name, s)

end RepairStatus

inductive RepairResult where
  | accepted (attempt : Nat)
  | stillFailing (attempt : Nat) (reason : String)
  /-- No candidate came, but another call may bring one. -/
  | serviceError (message : String)
  | rejected (message : String)
  deriving Repr, DecidableEq, Inhabited

structure RepairStep where
  call : Nat
  result : RepairResult
  deriving Repr, DecidableEq, Inhabited

structure RepairState where
  ordinal : Nat
  status : RepairStatus
  /-- How many calls of the budget have been made. -/
  consumed : Nat
  budget : Nat
  /-- The attempt that was validated last; zero when there was none. -/
  lastTried : Nat
  /-- What the service said when it refused. -/
  rejection : Option String
  steps : List RepairStep
  deriving Repr, DecidableEq, Inhabited

namespace RepairState

def start (ordinal budget failedAttempt : Nat) : RepairState :=
  ⟨ordinal, .pending, 0, budget, failedAttempt, none, []⟩

def hasBudget (state : RepairState) : Bool :=
  state.status == .pending && state.consumed < state.budget

def isTerminal (state : RepairState) : Bool := state.status != .pending

/-- Counts a call; its number is the count. -/
def beginCall (state : RepairState) : RepairState :=
  { state with consumed := state.consumed + 1 }

/-- Notes what came of a call. -/
def record (state : RepairState) (call : Nat) (result : RepairResult) : RepairState :=
  { state with steps := state.steps ++ [⟨call, result⟩] }

def markRepaired (state : RepairState) (attempt : Nat) : RepairState :=
  { state with lastTried := attempt, status := .repaired }

def markExhausted (state : RepairState) : RepairState :=
  { state with status := .exhausted }

def markRejected (state : RepairState) (message : String) : RepairState :=
  { state with rejection := some message, status := .exhausted }

/-- Takes over the budget of a new run. A repair that ran out of calls, and was not refused, goes on
if the budget has calls left. -/
def refreshBudget (state : RepairState) (budget : Nat) : RepairState :=
  let reopened := state.status == .exhausted && state.rejection.isNone && state.consumed < budget
  { state with budget := budget, status := if reopened then .pending else state.status }

/-- Starts anew with an attempt that was put from outside. -/
def resume (state : RepairState) (newerAttempt : Nat) : RepairState :=
  { state with status := .pending, consumed := 0, rejection := none, lastTried := newerAttempt }

end RepairState

namespace RepairResult

def toJson : RepairResult → Json
  | accepted attempt => .object [("type", .string "accepted"), ("attempt", nat attempt)]
  | stillFailing attempt reason =>
      .object [("type", .string "still_failing"), ("attempt", nat attempt), ("reason", .string reason)]
  | serviceError message => .object [("type", .string "service_error"), ("message", .string message)]
  | rejected message => .object [("type", .string "rejected"), ("message", .string message)]

def decode : Decoder RepairResult := Json.record do
  match ← required "type" .string with
  | "accepted" => return accepted (← required "attempt" .u32)
  | "still_failing" => return stillFailing (← required "attempt" .u32) (← required "reason" .string)
  | "service_error" => return serviceError (← required "message" .string)
  | "rejected" => return rejected (← required "message" .string)
  | _ => failure

end RepairResult

namespace RepairStep

def toJson (step : RepairStep) : Json :=
  .object [("call", nat step.call), ("result", step.result.toJson)]

def decode : Decoder RepairStep := Json.record do
  return ⟨← required "call" .u32, ← required "result" RepairResult.decode⟩

end RepairStep

namespace RepairState

def toJson (state : RepairState) : Json :=
  .object ([("ordinal", nat state.ordinal), ("status", .string state.status.name),
    ("attempts_consumed", nat state.consumed), ("max_attempts", nat state.budget),
    ("last_tried", nat state.lastTried)] ++
    optionalMember "rejection" .string state.rejection ++
    [("steps", .array (state.steps.map RepairStep.toJson))])

def decode : Decoder RepairState := Json.record do
  return ⟨← required "ordinal" .u32, ← required "status" (.choice RepairStatus.names),
    ← required "attempts_consumed" .u32, ← required "max_attempts" .u32,
    ← required "last_tried" .u32, ← optional "rejection" .string,
    ← defaulted "steps" (.list RepairStep.decode) []⟩

end RepairState

end Graft
