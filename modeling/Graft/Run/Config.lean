import Graft.Code.Location
import Graft.Compiler.Environment
import Graft.Failure
import Graft.Generation.Settings
import Graft.Toml.Reader
import Graft.Validation.Settings

/-!
The configuration of a run. It is read from a TOML document, in which every setting may be left out,
and checked before it is used. Relative paths in a file lead from the directory of the file.
-/

namespace Graft

open Code Compiler Json

structure RunConfig where
  /-- The directory of the log file. -/
  logDirectory : Option String := none
  sourceFile : String := ""
  /-- The functions to be replaced, in their order in the file. -/
  functions : List String := []
  /-- How many functions are to be replaced; zero stands for all that are named. -/
  functionCount : Nat := 0
  model : String := "codestral-latest"
  outputDirectory : String := "splice-out"
  /-- The directory of the candidates. -/
  storeDirectory : Option String := none
  trials : Nat := 1
  /-- The window up to which replaced functions are merged. -/
  mergeBack : Option Nat := none
  autoFix : Bool := true
  /-- Whether programs that were built are run. -/
  runsTests : Bool := false
  /-- How many units are worked on at once. -/
  parallel : Nat := 4
  usesCache : Bool := false
  /-- How many calls may be made to repair a function. -/
  maxFixAttempts : Nat := 3
  generation : Generation.Settings := {}
  toolchain : ToolchainSettings := {}
  environment : EnvironmentSettings := ⟨[], []⟩
  deriving Repr, DecidableEq, Inhabited

namespace RunConfig

def toJson (config : RunConfig) : Json :=
  .object [("log_dir", orNull .string config.logDirectory),
    ("source_file", .string config.sourceFile), ("functions", strings config.functions),
    ("num_funcs", nat config.functionCount), ("llm_model", .string config.model),
    ("output_dir", .string config.outputDirectory),
    ("store_dir", orNull .string config.storeDirectory), ("trials", nat config.trials),
    ("merge_back", orNull nat config.mergeBack), ("auto_fix", .bool config.autoFix),
    ("run_tests", .bool config.runsTests), ("parallel", nat config.parallel),
    ("use_cache", .bool config.usesCache), ("max_fix_attempts", nat config.maxFixAttempts),
    ("generation", config.generation.toJson), ("toolchain", config.toolchain.toJson),
    ("environment", config.environment.toJson)]

def decode : Decoder RunConfig := record do
  let usual : RunConfig := {}
  return {
    logDirectory := ← optional "log_dir" .string
    sourceFile := ← defaulted "source_file" .string usual.sourceFile
    functions := ← defaulted "functions" (.list .string) usual.functions
    functionCount := ← defaulted "num_funcs" .u32 usual.functionCount
    model := ← defaulted "llm_model" .string usual.model
    outputDirectory := ← defaulted "output_dir" .string usual.outputDirectory
    storeDirectory := ← optional "store_dir" .string
    trials := ← defaulted "trials" .u32 usual.trials
    mergeBack := ← optional "merge_back" .u32
    autoFix := ← defaulted "auto_fix" .bool usual.autoFix
    runsTests := ← defaulted "run_tests" .bool usual.runsTests
    parallel := ← defaulted "parallel" .u64 usual.parallel
    usesCache := ← defaulted "use_cache" .bool usual.usesCache
    maxFixAttempts := ← defaulted "max_fix_attempts" .u32 usual.maxFixAttempts
    generation := ← defaulted "generation" Generation.Settings.decode usual.generation
    toolchain := ← defaulted "toolchain" ToolchainSettings.decode usual.toolchain
    environment := ← defaulted "environment" EnvironmentSettings.decode usual.environment }

def ofToml (text : String) : Except Failure RunConfig :=
  match (Toml.read? text).bind decode with
  | some config => .ok config
  | none => .error .malformedConfiguration

/-- The configuration with its relative paths leading from a directory. An empty path stays empty. -/
def rebase (base : String) (config : RunConfig) : RunConfig :=
  let fix (path : String) := if path.isEmpty then path else Path.join base path
  { config with
    sourceFile := fix config.sourceFile
    outputDirectory := fix config.outputDirectory
    storeDirectory := config.storeDirectory.map fix
    logDirectory := config.logDirectory.map fix
    toolchain := { config.toolchain with
      buildContext := config.toolchain.buildContext.map fix
      scratchParent := config.toolchain.scratchParent.map fix
      includeDirs := config.toolchain.includeDirs.map fix } }

def load (path : String) (tree : FileTree) : Except Failure RunConfig := do
  let config ← ofToml (← (tree.readText path).mapError .ofFiles)
  match Path.parent? path with
  | some base => return if base.isEmpty then config else config.rebase base
  | none => return config

/-- What is wrong with the configuration, if anything is: the first fault found. -/
def fault? (config : RunConfig) : Option String :=
  if config.sourceFile.isEmpty then some "source_file is required"
  else if config.trials = 0 then some "trials must be at least 1"
  else if config.parallel = 0 then some "parallel must be at least 1"
  else if config.functionCount = 0 ∧ config.functions.isEmpty then
    some "set num_funcs or list functions"
  else if !config.functions.isEmpty ∧ config.functions.length < config.functionCount then
    some s!"num_funcs is {config.functionCount} but only {config.functions.length} functions are listed"
  else if config.mergeBack = some 0 then some "merge_back must be at least 1"
  else if config.toolchain.command = some [] then some "toolchain.command is empty"
  else if config.generation.timeoutSeconds = 0 ∨ config.toolchain.timeoutSeconds = 0 then
    some "timeouts must be non-zero"
  else none

/-- Refuses a configuration that has a fault. -/
def check (config : RunConfig) : Except Failure Unit :=
  match config.fault? with
  | some reason => .error (.configuration reason)
  | none => .ok ()

/-- The directory of the candidates; one in the output directory when none is given. -/
def storeRoot (config : RunConfig) : String :=
  config.storeDirectory.getD (Path.join config.outputDirectory ".splice")

/-- The window up to which a unit of so many functions is merged. -/
def mergeBackFor (config : RunConfig) (count : Nat) : Nat :=
  min (config.mergeBack.getD count) count

/-- The functions of a text that are to be replaced: the first of those that are named, or the first
that the text defines. -/
def selectFunctions (config : RunConfig) (text : String) : Except LocateError (List String) :=
  if config.functions.isEmpty then discoverIdentifiers text config.functionCount
  else if config.functionCount = 0 then .ok config.functions
  else .ok (config.functions.take config.functionCount)

def unitOf (config : RunConfig) (text : String) (trial : Nat) : Except LocateError SourceUnit := do
  return ⟨config.sourceFile, text, ← config.selectFunctions text, trial⟩

def plan (config : RunConfig) (tree : FileTree) : Except Failure (List SourceUnit) := do
  let text ← (tree.readText config.sourceFile).mapError .ofFiles
  let functions ← (config.selectFunctions text).mapError .location
  return (List.range' 1 config.trials).map fun trial => ⟨config.sourceFile, text, functions, trial⟩

end RunConfig

end Graft
