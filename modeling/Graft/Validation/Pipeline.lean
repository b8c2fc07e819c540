import Graft.Code.Analysis
import Graft.Compiler.Cache
import Graft.Compiler.Environment
import Graft.Validation.Scratch
import Graft.Validation.Toolchain
import Graft.Variant.Merge

/-!
Validating a text in stages: its form, then its quality, then its compilation in a scratch
directory, and then, if that is wanted, a run of the program that was built. A stage that fails is the
verdict; nothing is tried twice. Results of compilations may be kept and used again, and are judged
anew each time.
-/

namespace Graft

open Code Compiler Text

structure PipelineOptions where
  rules : EnvironmentRules
  includeDirs : List String
  /-- The directory in which the compiler runs. -/
  buildContext : Option String
  scratchParent : Option String
  /-- For how many milliseconds a built program may run; it is not run when there is no number. -/
  smokeTimeout : Option Nat
  cache : Option CompileCache

/-- A pipeline: the options, the toolchain, and the way to run what was built. -/
structure Pipeline (σ : Type) where
  options : PipelineOptions
  toolchain : Toolchain σ
  launcher : Launcher

namespace Pipeline

variable {σ : Type} (pipeline : Pipeline σ)

def verdictOf (analysis : Analysis) (status : CompileStatus) (output : String) : Verdict :=
  .compiled analysis.issues analysis.findings analysis.score status output

/-- The verdict on a text that could not be compiled. -/
def actionable (analysis : Analysis) (reason : String) : Verdict :=
  verdictOf analysis .failedActionable reason

/-- The verdict on a text whose compilation ended. -/
def classified (analysis : Analysis) (result : CompileResult) : Verdict :=
  let status := pipeline.options.rules.classify result.exitCode result.output
  verdictOf analysis status result.output

/-- The result of an earlier compilation that may stand for a new one. Where the program is to be run,
a success may not, since nothing is kept that could be run. -/
def kept? (fileName text : String) (tree : FileTree) : Option CompileResult := do
  let cache ← pipeline.options.cache
  let result ← cache.get? (cache.key fileName text) tree
  if result.exitCode != 0 || pipeline.options.smokeTimeout.isNone then some result else none

def keep (fileName text : String) (result : CompileResult) (tree : FileTree) : FileTree :=
  match pipeline.options.cache with
  | some cache => cache.put (cache.key fileName text) result tree
  | none => tree

/-- The lines with which a program tells that a test failed. -/
def failureLines (output : String) : List String :=
  ((lines output).filter fun line => contains "FAIL" line || contains "Assertion" line).map trimmed

def smokeTestOf : Except ToolchainError ProcessOutput → SmokeTest
  | .error error => ⟨false, none, "", [error.message]⟩
  | .ok output =>
      let found := failureLines output.combined
      let failures :=
        if !output.succeeded && found.isEmpty then [s!"exited with status {output.exitCode}"] else found
      ⟨output.succeeded, some output.exitCode, output.combined, failures⟩

/-- Runs a built program once, if that is wanted, and notes in the verdict what it showed. -/
def smokeTest (scratch : Scratch) (executable : Option String) (verdict : Verdict) :
    StateM (Workshop σ) Verdict := do
  match pipeline.options.smokeTimeout, executable, verdict.status with
  | some timeout, some path, .succeeded =>
      let shop ← get
      let (result, tree) := pipeline.launcher.launch [path] (some scratch.path) timeout shop.tree
      set { shop with tree }
      return { verdict with smokeTest := some (smokeTestOf result) }
  | _, _, _ => return verdict

def executablePath (scratch : Scratch) (fileName : String) : String :=
  Path.join scratch.path ((Path.stem? fileName).getD "variant" ++ ".out")

def compileIn (scratch : Scratch) (fileName text : String) (analysis : Analysis) :
    StateM (Workshop σ) Verdict := do
  let shop ← get
  let (written, tree) := scratch.materialize fileName text shop.tree
  set { shop with tree }
  match written with
  | .error reason => return actionable analysis s!"variant could not be written: {reason}"
  | .ok input =>
      let context : BuildContext :=
        ⟨pipeline.options.buildContext, pipeline.options.includeDirs, executablePath scratch fileName⟩
      match ← pipeline.toolchain input context with
      | .error error => return actionable analysis error.message
      | .ok compiled =>
          let result : CompileResult := ⟨compiled.result.exitCode, compiled.result.combined⟩
          modify fun shop => { shop with tree := pipeline.keep fileName text result shop.tree }
          pipeline.smokeTest scratch compiled.executable (pipeline.classified analysis result)

/-- The verdict on a text of valid form, and what there is to tell beside it. -/
def compile (label fileName text : String) (analysis : Analysis) :
    StateM (Workshop σ) (Verdict × List Event) := do
  let shop ← get
  match pipeline.kept? fileName text shop.tree with
  | some result => return (pipeline.classified analysis result, [])
  | none =>
      match Scratch.create pipeline.options.scratchParent label shop.tree with
      | .error (_, reason) =>
          return (actionable analysis s!"scratch directory unavailable: {reason}", [])
      | .ok (scratch, tree) =>
          set { shop with tree }
          let verdict ← pipeline.compileIn scratch fileName text analysis
          let shop ← get
          let (tree, events) := scratch.remove shop.tree
          set { shop with tree }
          return (verdict, events)

/-- The verdict on a text, and what there is to tell beside it. -/
def validateText (label fileName text : String) : StateM (Workshop σ) (Verdict × List Event) := do
  let analysis := analyze text
  if !analysis.isValid then return (.malformed analysis.issues, [])
  else pipeline.compile label fileName text analysis

def validate (variant : Variant) (fileName : String) : StateM (Workshop σ) (Verdict × List Event) :=
  pipeline.validateText s!"{variant.unitId.name}-k{variant.window}" fileName variant.text

end Pipeline

end Graft
