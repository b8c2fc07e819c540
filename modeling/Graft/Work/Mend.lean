import Graft.Work.Candidate

/-!
Repairing a function whose variant was rejected. The service is told the candidate that failed and
why; a better candidate takes its place in the variant, and the variant is validated again, until
it is accepted, the service refuses, or the budget is spent.
-/

namespace Graft

open Code Generation

structure Mending where
  selection : Selection
  state : RepairState
  variant : Variant
  verdict : Verdict
  deriving Inhabited

namespace Work

def giveUp (unit : SourceUnit) (mending : Mending) (reason : Option String) : Work Mending := do
  let state := mending.state.markExhausted
  tellTransition unit.id state.ordinal state reason
  return { mending with state }

def mendWithin (policy : Policy) (unit : SourceUnit) (spans : List Span) :
    Nat → Mending → Work Mending
  | 0, mending => giveUp unit mending none
  | remaining + 1, mending => do
      let ordinal := mending.state.ordinal
      let state := mending.state.beginCall
      let call := state.consumed
      tell (.repairRequested unit.id ordinal call state.budget)
      let prior ← get unit.id ordinal state.lastTried
      let reason := mending.verdict.failureReason
      match ← ask policy (requestFor unit spans ordinal (some prior) (some reason)) with
      | .error (.rejected message) =>
          let state := (state.record call (.rejected message)).markRejected message
          tellTransition unit.id ordinal state state.rejection
          return { mending with state }
      | .error error =>
          tell (.generationFailed unit.id ordinal error.message)
          let state := state.record call (.serviceError error.message)
          mendWithin policy unit spans remaining { mending with state }
      | .ok text =>
          let attempt ← put unit.id ordinal text
          tell (.candidateStored unit.id ordinal attempt)
          let selection := mending.selection.insert ordinal attempt
          let state := { state with lastTried := attempt }
          let variant ← merge unit spans selection
          let verdict ← validate unit variant
          if verdict.isAccepted then
            let state := (state.record call (.accepted attempt)).markRepaired attempt
            tellTransition unit.id ordinal state none
            return ⟨selection, state, variant, verdict⟩
          else
            let state := state.record call (.stillFailing attempt verdict.failureReason)
            mendWithin policy unit spans remaining ⟨selection, state, variant, verdict⟩

/-- Repairs a function, if repairs are wanted, with what is left of its budget. -/
def mend (policy : Policy) (unit : SourceUnit) (spans : List Span) (mending : Mending) :
    Work Mending :=
  if !policy.autoFix then giveUp unit mending (some "auto_fix disabled")
  else
    let remaining :=
      if mending.state.status = .pending then mending.state.budget - mending.state.consumed else 0
    mendWithin policy unit spans remaining mending

end Work

end Graft
