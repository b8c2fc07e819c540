import Graft.Hash.Digest
import Graft.SourceUnit

/-!
Stores of candidates. A candidate is a text for one function of a unit; the attempts at a function
are numbered from one in the order in which they were put. A store is given by three operations,
and the rest is derived from them.
-/

namespace Graft

open Hash

inductive StoreError where
  | noCandidates (unit : UnitId) (ordinal : Nat)
  | notFound (unit : UnitId) (ordinal attempt : Nat)
  /-- The text that was read back is not the one that was put. -/
  | corrupt (unit : UnitId) (ordinal attempt : Nat)
  /-- The attempt came to exist while it was being written. -/
  | conflict (unit : UnitId) (ordinal attempt : Nat)
  | invalidOrdinal
  | invalidDigest (text : String)
  | files (reason : String)
  deriving Repr, DecidableEq, Inhabited

namespace StoreError

def message : StoreError → String
  | noCandidates unit ordinal => s!"no candidate for unit {unit.name} ordinal {ordinal}"
  | notFound unit ordinal attempt =>
      s!"candidate not found: unit {unit.name} ordinal {ordinal} attempt {attempt}"
  | corrupt unit ordinal attempt =>
      s!"candidate changed on disk: unit {unit.name} ordinal {ordinal} attempt {attempt}"
  | conflict unit ordinal attempt =>
      s!"attempt {attempt} already exists for unit {unit.name} ordinal {ordinal}"
  | invalidOrdinal => "ordinal must be at least 1"
  | invalidDigest text => s!"invalid digest hex: {text}"
  | files reason => s!"io error: {reason}"

end StoreError

/-- The operations of a store whose content is a value of type `σ`. -/
structure CandidateStore (σ : Type) where
  put : UnitId → Nat → String → σ → Except StoreError Nat × σ
  get : UnitId → Nat → Nat → σ → Except StoreError String
  attempts : UnitId → Nat → σ → Except StoreError (List Nat)

namespace CandidateStore

variable {σ : Type} (store : CandidateStore σ)

def latest (unit : UnitId) (ordinal : Nat) (content : σ) : Except StoreError Nat := do
  match (← store.attempts unit ordinal content).getLast? with
  | some attempt => return attempt
  | none => throw (.noCandidates unit ordinal)

def isStored (unit : UnitId) (ordinal attempt : Nat) (content : σ) : Except StoreError Bool := do
  return (← store.attempts unit ordinal content).contains attempt

def putVerified (unit : UnitId) (ordinal : Nat) (text : String) (content : σ) :
    Except StoreError Nat × σ :=
  match store.put unit ordinal text content with
  | (.error error, content) => (.error error, content)
  | (.ok attempt, content) =>
      match store.get unit ordinal attempt content with
      | .error error => (.error error, content)
      | .ok stored =>
          if Digest.ofText stored = Digest.ofText text then (.ok attempt, content)
          else (.error (.corrupt unit ordinal attempt), content)

def within {ω : Type} (part : ω → σ) (replace : ω → σ → ω) : CandidateStore ω where
  put unit ordinal text whole :=
    let (result, content) := store.put unit ordinal text (part whole)
    (result, replace whole content)
  get unit ordinal attempt whole := store.get unit ordinal attempt (part whole)
  attempts unit ordinal whole := store.attempts unit ordinal (part whole)

end CandidateStore

end Graft
