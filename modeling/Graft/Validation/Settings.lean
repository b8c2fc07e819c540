import Graft.Json.Decoder
import Graft.Json.Printer

/-!
The settings of the toolchain that compiles variants.
-/

namespace Graft

open Json

structure ToolchainSettings where
  /-- The words of the command; the compiler is chosen by the language when there are none. -/
  command : Option (List String) := none
  includeDirs : List String := []
  /-- The directory in which the compiler runs. -/
  buildContext : Option String := none
  scratchParent : Option String := none
  /-- For how many seconds a compiler may run. -/
  timeoutSeconds : Nat := 30
  /-- For how many seconds a built program may run. -/
  testTimeoutSeconds : Nat := 10
  deriving Repr, DecidableEq, Inhabited

namespace ToolchainSettings

def toJson (settings : ToolchainSettings) : Json :=
  .object [("command", orNull strings settings.command),
    ("include_dirs", strings settings.includeDirs),
    ("build_context", orNull .string settings.buildContext),
    ("scratch_dir", orNull .string settings.scratchParent),
    ("timeout_secs", nat settings.timeoutSeconds),
    ("test_timeout_secs", nat settings.testTimeoutSeconds)]

def decode : Decoder ToolchainSettings := record do
  let usual : ToolchainSettings := {}
  return ⟨← optional "command" (.list .string), ← defaulted "include_dirs" (.list .string) [],
    ← optional "build_context" .string, ← optional "scratch_dir" .string,
    ← defaulted "timeout_secs" .u64 usual.timeoutSeconds,
    ← defaulted "test_timeout_secs" .u64 usual.testTimeoutSeconds⟩

/-- What tells these settings from others, for results that are kept. -/
def fingerprint (settings : ToolchainSettings) : String := settings.toJson.compact

end ToolchainSettings

end Graft
