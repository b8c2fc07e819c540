import Graft.Run.Config
import Graft.Validation.Pipeline
import Graft.Work.Windows

/-!
What the settings of a configuration come to: the policy of the work, and the pipeline of the
validation.
-/

namespace Graft

open Compiler

namespace RunConfig

def policy (config : RunConfig) : Policy :=
  ⟨config.maxFixAttempts, config.autoFix, config.generation.timeoutSeconds⟩

/-- A run always keeps checkpoints; it uses what an earlier run left if that is wanted. -/
def workSettings (config : RunConfig) : WorkSettings := ⟨config.policy, config.usesCache, true⟩

def compileCache (config : RunConfig) : CompileCache :=
  ⟨Path.join config.outputDirectory ".compile-cache", config.toolchain.fingerprint⟩

/-- How texts are validated, or the first pattern for the environment that cannot be read. -/
def pipelineOptions (config : RunConfig) : Except String PipelineOptions := do
  let rules ← EnvironmentRules.ofSettings config.environment
  return {
    rules
    includeDirs := config.toolchain.includeDirs
    buildContext := config.toolchain.buildContext
    scratchParent := config.toolchain.scratchParent
    smokeTimeout := if config.runsTests then some (config.toolchain.testTimeoutSeconds * 1000) else none
    cache := if config.usesCache then some config.compileCache else none }

def pipeline {σ : Type} (config : RunConfig) (launcher : Launcher) :
    Except String (Pipeline σ) := do
  let toolchain := Toolchain.command launcher config.toolchain.command
    (config.toolchain.timeoutSeconds * 1000)
  return ⟨← config.pipelineOptions, toolchain, launcher⟩

end RunConfig

end Graft
