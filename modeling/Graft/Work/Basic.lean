import Graft.Checkpoint
import Graft.Event
import Graft.Failure
import Graft.Generation.Request

/-!
Work on a unit as a tree of actions. A piece of work is done, has failed, or takes an action and
goes on with the answer to it; what the answers are is left open. So a statement about all branches
of a tree is one about all stores, services and validators, and several pieces of work can be run
side by side, action by action.
-/

namespace Graft

open Generation

inductive Action where
  /-- Puts a candidate into the store and reads it back. -/
  | put (unit : UnitId) (ordinal : Nat) (text : String)
  | get (unit : UnitId) (ordinal attempt : Nat)
  | attempts (unit : UnitId) (ordinal : Nat)
  /-- Asks the service for a candidate. -/
  | ask (request : Request)
  | validate (variant : Variant) (fileName : String)
  | loadCheckpoint (unit : UnitId)
  | saveCheckpoint (unit : UnitId) (selection : Selection) (repairs : OrdinalMap RepairState)
  /-- Tells an observer. -/
  | tell (event : Event)

abbrev Action.Answer : Action → Type
  | .put .. => Except StoreError Nat
  | .get .. => Except StoreError String
  | .attempts .. => Except StoreError (List Nat)
  | .ask .. => Reply
  | .validate .. => Verdict
  | .loadCheckpoint .. => Except Failure (Option Checkpoint)
  | .saveCheckpoint .. => Except Failure Unit
  | .tell .. => Unit

inductive Work (α : Type) where
  | done (value : α)
  | failed (failure : Failure)
  | act (action : Action) (next : action.Answer → Work α)

namespace Work

variable {α β ω : Type}

def andThen : Work α → (α → Work β) → Work β
  | done value, next => next value
  | failed failure, _ => failed failure
  | act action rest, next => act action fun answer => (rest answer).andThen next

instance : Monad Work where
  pure := done
  bind := andThen

theorem andThen_done (work : Work α) : work.andThen done = work := by
  induction work with
  | done => rfl
  | failed => rfl
  | act action next ih => simp [andThen, ih]

theorem andThen_assoc {γ : Type} (work : Work α) (second : α → Work β) (third : β → Work γ) :
    (work.andThen second).andThen third = work.andThen fun value => (second value).andThen third := by
  induction work with
  | done => rfl
  | failed => rfl
  | act action next ih => simp [andThen, ih]

def perform (action : Action) : Work action.Answer := act action done

def ofExcept (toFailure : ε → Failure) : Except ε α → Work α
  | .ok value => done value
  | .error error => failed (toFailure error)

def tell (event : Event) : Work Unit := perform (.tell event)

def put (unit : UnitId) (ordinal : Nat) (text : String) : Work Nat := do
  ofExcept .store (← perform (.put unit ordinal text))

def get (unit : UnitId) (ordinal attempt : Nat) : Work String := do
  ofExcept .store (← perform (.get unit ordinal attempt))

def attempts (unit : UnitId) (ordinal : Nat) : Work (List Nat) := do
  ofExcept .store (← perform (.attempts unit ordinal))

def fetch (unit : UnitId) : List (Nat × Nat) → Work (List (Nat × String))
  | [] => done []
  | (ordinal, attempt) :: rest => do
      let text ← ofExcept (.merge ∘ .store) (← perform (.get unit ordinal attempt))
      let others ← fetch unit rest
      return (ordinal, text) :: others

def merge (unit : SourceUnit) (spans : List Code.Span) (selection : Selection) : Work Variant := do
  ofExcept .merge (Variant.check unit spans selection)
  let candidates ← fetch unit.id selection.entries
  return Variant.assemble unit spans selection candidates

def validate (unit : SourceUnit) (variant : Variant) : Work Verdict := do
  let verdict ← perform (.validate variant (variant.fileName unit))
  tell (.windowValidated unit.id variant.window verdict.formValid verdict.status verdict.score)
  return verdict

/-- A way to answer actions from a world, and to change it on the way. -/
abbrev Handler (ω : Type) := (action : Action) → StateM ω action.Answer

abbrev Happening := (action : Action) × action.Answer

def run (handler : Handler ω) : Work α → ω → Except Failure α × ω
  | done value, world => (.ok value, world)
  | failed failure, world => (.error failure, world)
  | act action next, world =>
      let (answer, world) := handler action world
      (next answer).run handler world

/-- What happens when work is run in a world, in the order in which it happens. -/
def trace (handler : Handler ω) : Work α → ω → List Happening
  | done _, _ => []
  | failed _, _ => []
  | act action next, world =>
      let (answer, world) := handler action world
      ⟨action, answer⟩ :: (next answer).trace handler world

end Work

end Graft
