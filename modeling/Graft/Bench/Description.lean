import Graft.Bench
import Graft.Description

/-!
Descriptions of what stands on a bench: the script of a service, and a validator with the script of
its toolchain.
-/

namespace Graft

open Compiler Description Generation Json

def SourceUnit.ofDescription (input : Json) : Described SourceUnit := do
  return ⟨← Description.text input "path", ← Description.text input "text", ← texts input "functions",
    ← field input "trial" .u32⟩

/-- The script of a service: its replies, and the one that is given when there are none left. -/
def Generation.Script.ofDescription (input : Json) : Described Script := do
  return ⟨← field input "script" (.list Reply.decode),
    ← field input "fallback" (.nullable Reply.decode), []⟩

def Compiler.EnvironmentRules.ofDescription (input : Json) : Described EnvironmentRules := do
  let settings ← match raw input "environment" with
    | .null => pure ⟨[], []⟩
    | value => typed value EnvironmentSettings.decode
  (EnvironmentRules.ofSettings settings).mapError .pattern

namespace Bench.Validator

def optionsOf (input : Json) : Described PipelineOptions := do
  let fingerprint ← field input "cache" (.nullable .string)
  return {
    rules := ← EnvironmentRules.ofDescription input
    includeDirs := ← fieldOr input "include_dirs" (.list .string) []
    buildContext := none
    scratchParent := ← field input "scratch_parent" (.nullable .string)
    smokeTimeout := ← field input "smoke_ms" (.nullable .u64)
    cache := fingerprint.map fun fingerprint => ⟨"cache", fingerprint⟩ }

/-- A validator with the script of its toolchain, if it has one. It goes by rules, or it is a pipeline
whose toolchain is scripted or runs a command. -/
def ofDescription (input : Json) : Described (Bench.Validator × Option ToolScript) := do
  match ← text input "kind" with
  | "fixed" =>
      let rules ← typed (raw input "rules") (.list VerdictRule.decode)
      return (.byRules ⟨rules, ← typed (raw input "default") Verdict.decode⟩, none)
  | "pipeline" =>
      let options ← optionsOf input
      match input.member? "scripted" with
      | some results =>
          let script := ToolScript.ofResults (← typed results (.list ScriptedResult.decode))
          return (.byStages ⟨options, ToolScript.toolchain, Machine.execute⟩, some script)
      | none =>
          let template ← field input "command" (.nullable (.list .string))
          let timeout ← fieldOr input "timeout_ms" .u64 60000
          let toolchain := Toolchain.command Machine.execute template timeout
          return (.byStages ⟨options, toolchain, Machine.execute⟩, none)
  | _ => throw (.field "kind")

def usage (validator : Bench.Validator) (script : Option ToolScript) (bench : Bench) : Json :=
  match validator, script with
  | .byRules _, _ => .object [("validator_calls", nat bench.validations)]
  | .byStages _, some _ =>
      .object [("toolchain_calls", nat bench.tools.calls),
        ("toolchain_inputs", strings bench.tools.inputs)]
  | .byStages _, none => .null

end Bench.Validator

end Graft
