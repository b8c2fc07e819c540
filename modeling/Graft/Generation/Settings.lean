import Graft.Json.Decoder

/-!
The settings of the service that writes candidates.
-/

namespace Graft.Generation

open Graft.Json Graft.Number

structure Settings where
  endpoint : String := "https://api.mistral.ai/v1/chat/completions"
  /-- The name of the environment variable that holds the key of the service. -/
  keyVariable : String := "SPLICE_API_KEY"
  /-- For how many seconds an answer is waited for. -/
  timeoutSeconds : Nat := 60
  temperature : Single := .ofDecimal false 7 (-1)
  topP : Single := .ofDecimal false 9 (-1)
  maxTokens : Option Nat := none
  deriving Repr, DecidableEq, Inhabited

namespace Settings

def toJson (settings : Settings) : Json :=
  .object [("endpoint", .string settings.endpoint), ("api_key_env", .string settings.keyVariable),
    ("timeout_secs", nat settings.timeoutSeconds), ("temperature", single settings.temperature),
    ("top_p", single settings.topP), ("max_tokens", orNull nat settings.maxTokens)]

def decode : Decoder Settings := record do
  let usual : Settings := {}
  return ⟨← defaulted "endpoint" .string usual.endpoint,
    ← defaulted "api_key_env" .string usual.keyVariable,
    ← defaulted "timeout_secs" .u64 usual.timeoutSeconds,
    ← defaulted "temperature" .single usual.temperature,
    ← defaulted "top_p" .single usual.topP, ← optional "max_tokens" .u32⟩

end Settings

end Graft.Generation
