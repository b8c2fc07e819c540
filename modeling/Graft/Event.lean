import Graft.Json.Basic
import Graft.Repair.State
import Graft.SourceUnit
import Graft.Verdict.Basic

/-!
What an observer is told about the work on a unit.
-/

namespace Graft

open Number Json

inductive Event where
  | unitStarted (unit : UnitId) (functions mergeBack : Nat)
  | windowValidated (unit : UnitId) (window : Nat) (formValid : Bool) (status : CompileStatus)
      (score : Single)
  | candidateStored (unit : UnitId) (ordinal attempt : Nat)
  | repairRequested (unit : UnitId) (ordinal call budget : Nat)
  /-- The repair of a function has come to a status; the reason counts when it is exhausted. -/
  | repairTransition (unit : UnitId) (ordinal : Nat) (status : RepairStatus) (consumed : Nat)
      (reason : Option String)
  | generationFailed (unit : UnitId) (ordinal : Nat) (error : String)
  | unitFinished (unit : UnitId) (windowReached : Nat) (accepted : Bool)
  | cleanupFailed (path error : String)
  deriving Repr, DecidableEq, Inhabited

namespace Event

def name : Event → String
  | unitStarted .. => "unit.started"
  | windowValidated .. => "window.validated"
  | candidateStored .. => "candidate.stored"
  | repairRequested .. => "repair.requested"
  | repairTransition .. => "repair.transition"
  | generationFailed .. => "generation.failed"
  | unitFinished .. => "unit.finished"
  | cleanupFailed .. => "cleanup.failed"

def level : Event → String
  | repairTransition _ _ .exhausted _ _ => "ERROR"
  | generationFailed .. | cleanupFailed .. => "WARN"
  | _ => "INFO"

/-- The reason of an exhausted repair that gives none. -/
def defaultReason : String := "budget spent"

def fields : Event → List (String × Json)
  | unitStarted unit functions mergeBack =>
      [("unit_id", .string unit.name), ("function_count", nat functions), ("merge_back", nat mergeBack)]
  | windowValidated unit window formValid status score =>
      [("unit_id", .string unit.name), ("window", nat window), ("syntax_valid", .bool formValid),
        ("compilation", .string status.name), ("quality_score", single score)]
  | candidateStored unit ordinal attempt =>
      [("unit_id", .string unit.name), ("ordinal", nat ordinal), ("attempt", nat attempt)]
  | repairRequested unit ordinal call budget =>
      [("unit_id", .string unit.name), ("ordinal", nat ordinal), ("call", nat call),
        ("max_attempts", nat budget)]
  | repairTransition unit ordinal status consumed reason =>
      [("unit_id", .string unit.name), ("ordinal", nat ordinal), ("status", .string status.name),
        ("attempts_consumed", nat consumed)] ++
      (if status = .exhausted then [("reason", .string (reason.getD defaultReason))] else [])
  | generationFailed unit ordinal error =>
      [("unit_id", .string unit.name), ("ordinal", nat ordinal), ("error", .string error)]
  | unitFinished unit windowReached accepted =>
      [("unit_id", .string unit.name), ("window_reached", nat windowReached),
        ("accepted", .bool accepted)]
  | cleanupFailed path error => [("path", .string path), ("error", .string error)]

def toJson (event : Event) : Json :=
  .object ([("event", .string event.name), ("level", .string event.level)] ++ event.fields)

end Event

end Graft
