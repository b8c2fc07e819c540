import Graft.Code.Location
import Graft.Verdict.Codec
import Graft.Work.Mend

/-!
The work on a unit. Its functions are replaced one after the other: the window grows by a function
when the variant of the window is accepted, and the work halts at the first function for which no
candidate is accepted.
-/

namespace Graft

open Code

/-- The variant of a window that was validated last, and the verdict on it. -/
structure WindowOutcome where
  window : Nat
  variant : Variant
  verdict : Verdict
  deriving Repr, DecidableEq, Inhabited

structure UnitOutcome where
  unitId : UnitId
  windowRequested : Nat
  windows : List WindowOutcome
  repairs : OrdinalMap RepairState
  /-- The function at which the work halted. -/
  haltedAt : Option Nat
  deriving Repr, DecidableEq, Inhabited

def WindowOutcome.toJson (outcome : WindowOutcome) : Json :=
  .object [("window", .nat outcome.window), ("variant", outcome.variant.toJson),
    ("verdict", outcome.verdict.toJson)]

namespace UnitOutcome

def toJson (outcome : UnitOutcome) : Json :=
  .object [("unit_id", .string outcome.unitId.name),
    ("window_requested", .nat outcome.windowRequested),
    ("windows", .array (outcome.windows.map (·.toJson))),
    ("repair_states", .ofOrdinalMap RepairState.toJson outcome.repairs),
    ("halted_at", .orNull .nat outcome.haltedAt)]

/-- The last window that was validated, and zero when none was. -/
def windowReached (outcome : UnitOutcome) : Nat := (outcome.windows.getLast?.map (·.window)).getD 0

def verdict? (outcome : UnitOutcome) : Option Verdict := outcome.windows.getLast?.map (·.verdict)

/-- Whether all functions that were asked for are replaced and the last variant can stand. -/
def isAccepted (outcome : UnitOutcome) : Bool :=
  outcome.haltedAt.isNone && outcome.windowReached == outcome.windowRequested &&
    outcome.verdict?.any (·.isAccepted)

def countOf (outcome : UnitOutcome) (status : RepairStatus) : Nat :=
  (outcome.repairs.values.filter (·.status == status)).length

end UnitOutcome

/-- How work is done: the policy of repairs, whether results of earlier runs may be used, and
whether checkpoints are kept. -/
structure WorkSettings where
  policy : Policy
  useCache : Bool
  keepsCheckpoints : Bool
  deriving Repr, DecidableEq, Inhabited

structure Progress where
  selection : Selection
  repairs : OrdinalMap RepairState
  windows : List WindowOutcome
  haltedAt : Option Nat
  deriving Inhabited

namespace Work

/-- The repair of a function whose variant was accepted: one that was under way has succeeded. -/
def settle (unit : SourceUnit) (ordinal attempt : Nat) (repairs : OrdinalMap RepairState) :
    Work (OrdinalMap RepairState) := do
  match repairs.get? ordinal with
  | none => return repairs
  | some state =>
      if state.status = .repaired then return repairs
      else
        let state := state.markRepaired attempt
        tellTransition unit.id ordinal state none
        return repairs.insert ordinal state

/-- The state in which the repair of a rejected variant starts. A function that was repaired before
starts over from its attempt. -/
def repairFor (policy : Policy) (ordinal attempt : Nat) (repairs : OrdinalMap RepairState) :
    RepairState :=
  match repairs.get? ordinal with
  | some state =>
      if state.status = .repaired then .start ordinal policy.maxFixAttempts attempt else state
  | none => .start ordinal policy.maxFixAttempts attempt

def settleWindow (settings : WorkSettings) (unit : SourceUnit) (spans : List Span)
    (ordinal attempt : Nat) (progress : Progress) : Work Progress := do
  let selection := progress.selection.insert ordinal attempt
  let variant ← merge unit spans selection
  let verdict ← validate unit variant
  if verdict.isAccepted then
    let repairs ← settle unit ordinal attempt progress.repairs
    return ⟨selection, repairs, progress.windows ++ [⟨ordinal, variant, verdict⟩], none⟩
  else
    let state := repairFor settings.policy ordinal attempt progress.repairs
    let mended ← mend settings.policy unit spans ⟨selection, state, variant, verdict⟩
    let haltedAt := if mended.verdict.isAccepted then none else some ordinal
    return ⟨mended.selection, progress.repairs.insert ordinal mended.state,
      progress.windows ++ [⟨ordinal, mended.variant, mended.verdict⟩], haltedAt⟩

def grow (settings : WorkSettings) (unit : SourceUnit) (spans : List Span)
    (previous : Option Checkpoint) : List Nat → Progress → Work Progress
  | [], progress => return progress
  | ordinal :: rest, progress => do
      let (attempt?, repairs) ← initialAttempt settings.policy settings.useCache unit spans ordinal
        previous progress.repairs
      let progress := { progress with repairs }
      match attempt? with
      | none => return { progress with haltedAt := some ordinal }
      | some attempt =>
          let progress ← settleWindow settings unit spans ordinal attempt progress
          if progress.haltedAt.isSome then return progress
          else grow settings unit spans previous rest progress

def unchangedWindow (unit : SourceUnit) : Work WindowOutcome := do
  let variant := Variant.unchanged unit
  let verdict ← validate unit variant
  return ⟨0, variant, verdict⟩

/-- The work on a unit, for a number of functions that are to be replaced. -/
def onUnit (settings : WorkSettings) (unit : SourceUnit) (mergeBack : Nat) : Work UnitOutcome := do
  let spans ← ofExcept .location (locate unit.text unit.functions)
  let requested := min mergeBack unit.count
  tell (.unitStarted unit.id unit.count requested)
  let previous ← if settings.keepsCheckpoints && settings.useCache then
      ofExcept id (← perform (.loadCheckpoint unit.id))
    else pure none
  let windows ← if requested = 0 then pure [← unchangedWindow unit] else pure []
  let progress ← grow settings unit spans previous (List.range' 1 requested) ⟨∅, ∅, windows, none⟩
  if settings.keepsCheckpoints then
    ofExcept id (← perform (.saveCheckpoint unit.id progress.selection progress.repairs))
  let outcome : UnitOutcome :=
    ⟨unit.id, requested, progress.windows, progress.repairs, progress.haltedAt⟩
  tell (.unitFinished unit.id outcome.windowReached outcome.isAccepted)
  return outcome

end Work

end Graft
