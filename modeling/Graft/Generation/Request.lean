import Graft.Json.Decoder
import Graft.SourceUnit

/-!
Asking a service for a candidate. A request that tells of an earlier candidate and why it failed is
one for a repair.
-/

namespace Graft.Generation

open Graft.Json

structure Request where
  unitId : UnitId
  ordinal : Nat
  functionName : String
  language : String
  /-- The text of the function in the source. -/
  definedText : String
  /-- The candidate that failed, when this is a repair. -/
  priorAttempt : Option String
  failureReason : Option String
  deriving Repr, DecidableEq, Inhabited

namespace Request

def isRepair (request : Request) : Bool := request.priorAttempt.isSome

def toJson (request : Request) : Json :=
  .object [("unit_id", .string request.unitId.name), ("ordinal", nat request.ordinal),
    ("function_name", .string request.functionName), ("language", .string request.language),
    ("original_text", .string request.definedText),
    ("prior_attempt", orNull .string request.priorAttempt),
    ("failure_reason", orNull .string request.failureReason)]

def decode : Decoder Request := record do
  return ⟨⟨← required "unit_id" .string⟩, ← required "ordinal" .u32,
    ← required "function_name" .string, ← required "language" .string,
    ← required "original_text" .string, ← nullableField "prior_attempt" .string,
    ← nullableField "failure_reason" .string⟩

end Request

inductive GenerationError where
  /-- It may come with another call. -/
  | service (message : String)
  /-- The service refuses. -/
  | rejected (message : String)
  deriving Repr, DecidableEq, Inhabited

namespace GenerationError

def message : GenerationError → String
  | service message => s!"generation service error: {message}"
  | rejected message => s!"generation rejected: {message}"

end GenerationError

inductive Reply where
  | answer (result : Except GenerationError String)
  /-- Nothing came before the time was up. -/
  | silence
  deriving Inhabited

end Graft.Generation
