import Graft.Cli.Invocation
import Graft.Number.Fixed
import Graft.Run.Batch

/-!
Carrying out the commands of the program: each one changes files, prints, and may end with an error.
What was printed and written before an error stays.
-/

namespace Graft.Cli

open Graft.Code Graft.Text

/-- What a command can change: a bench, and what was printed so far. -/
structure Session where
  bench : Bench
  printed : String
  deriving Inhabited

abbrev Command := ExceptT ErrorTrail (StateM Session)

namespace Command

def printText (text : String) : Command Unit :=
  modify fun session => { session with printed := session.printed ++ text }

def printLine (line : String) : Command Unit := printText (line ++ "\n")

def files : Command FileTree := return (← get).bench.tree

def setFiles (tree : FileTree) : Command Unit :=
  modify fun session => { session with bench := { session.bench with tree } }

def fail {α : Type} (message : String) : Command α := throw (.ofMessage message)

/-- A value, or an end with its error. -/
def orEnd {ε α : Type} (trail : ε → ErrorTrail) (result : Except ε α) : Command α :=
  match result with
  | .ok value => return value
  | .error error => throw (trail error)

/-- A value, or an end with an error that says what was being done. -/
def doing {ε α : Type} (message : String) (trail : ε → ErrorTrail) (result : Except ε α) :
    Command α :=
  orEnd (fun error => (trail error).stopping message) result

def readFile (path : String) : Command String := do
  doing s!"Failed to read {Path.quoted path}" .ofFileError ((← files).readText path)

def writeFile (path text : String) : Command Unit := do
  setFiles (← doing s!"Failed to write {Path.quoted path}" .ofFileError
    ((← files).writeText path text))

def loadConfig (path : String) : Command RunConfig := do
  doing s!"Failed to load config {Path.quoted path}" .ofFailure (RunConfig.load path (← files))

def loadUnit (config : RunConfig) (trial : Nat) : Command SourceUnit := do
  let text ← readFile config.sourceFile
  doing "Failed to select functions to mutate" (ErrorTrail.ofFailure ∘ .location)
    (config.unitOf text trial)

def openStore (config : RunConfig) : Command (CandidateStore Bench) := do
  let root := config.storeRoot
  setFiles (← doing s!"Failed to open store at {Path.quoted root}" .ofStoreError
    (CandidateFiles.openAt root (← files)))
  return Bench.fileStore (CandidateFiles.baseOf root)

/-- What marks a good end and a bad one. -/
def mark (isGood : Bool) : String := if isGood then "✓" else "✗"

structure LocatedFunction where
  ordinal : Option Nat
  name : String
  line : Nat
  start : Nat
  stop : Nat
  deriving Repr, DecidableEq, Inhabited

namespace LocatedFunction

def toJson (found : LocatedFunction) : Json :=
  .object [("ordinal", .orNull .nat found.ordinal), ("name", .string found.name),
    ("line", .nat found.line), ("start", .nat found.start), ("end", .nat found.stop)]

def render (found : LocatedFunction) : String :=
  let ordinal := match found.ordinal with
    | some ordinal => s!"{ordinal}. "
    | none => ""
  s!"{ordinal}{found.name} (line {found.line}, bytes {found.start}..{found.stop})"

/-- The functions of a text that are named, or all of them when none is. -/
def ofText (text : String) (names : List String) : Except ErrorTrail (List LocatedFunction) :=
  if names.isEmpty then
    match discover text with
    | .ok found => .ok (found.map fun found => ⟨none, found.name, found.line, found.start, found.stop⟩)
    | .error error => .error ((ErrorTrail.ofLocateError error).stopping "Failed to scan definitions")
  else
    match locate text names with
    | .ok spans =>
        .ok ((spans.zip names).map fun (span, name) =>
          ⟨some span.ordinal, name, (placeAt text.toList span.start).line, span.start, span.stop⟩)
    | .error error => .error ((ErrorTrail.ofLocateError error).stopping "Failed to locate functions")

end LocatedFunction

def locateFunctions (file : String) (names : List String) (json : Bool) : Command Unit := do
  let text ← readFile file
  let found ← orEnd id (LocatedFunction.ofText text names)
  if json then printLine (Json.array (found.map (·.toJson))).pretty
  else if found.isEmpty then printLine "No function definitions found"
  else found.forM fun found => printLine found.render

/-- The attempts to be merged, for the ordinals from a first one on: those that are given, and the
latest for the others. -/
def selectAttempts (store : CandidateStore Bench) (unit : SourceUnit)
    (attempts : List (Nat × Nat)) : List Nat → Selection → Command Selection
  | [], selection => return selection
  | ordinal :: rest, selection => do
      let attempt ← match attempts.lookup ordinal with
        | some attempt => pure attempt
        | none =>
            doing s!"No candidate for ordinal {ordinal}" .ofStoreError
              (store.latest unit.id ordinal (← get).bench)
      selectAttempts store unit attempts rest (selection.insert ordinal attempt)

/-- Writes the variant that candidates make. The window is the one given, the highest ordinal given,
or the configured one. -/
def mergeCandidates (choice : TrialChoice) (window : Option Nat) (attempts : List (Nat × Nat))
    (out : Option String) : Command Unit := do
  let config ← loadConfig choice.config
  let unit ← loadUnit config choice.trial
  let store ← openStore config
  let spans ← doing "Failed to locate functions" .ofLocateError (locate unit.text unit.functions)
  let window := (window.orElse fun _ => (attempts.map (·.1)).max?).getD (config.mergeBackFor unit.count)
  if unit.count < window then
    fail s!"Window {window} exceeds the {unit.count} selected functions"
  let selection ← selectAttempts store unit attempts (List.range' 1 window) ∅
  let variant ← doing "Failed to merge candidates" .ofMergeError
    (Variant.merge store (← get).bench unit spans selection)
  let path := out.getD (variant.fileName unit)
  writeFile path variant.text
  printLine s!"✓ Merged window {window} of {unit.id.name}"
  printLine s!"  Output: {path}"
  printLine s!"  Digest: {variant.digest.toHex}"

def verdictLines (verdict : Verdict) : List String :=
  let issue (issue : Issue) : String :=
    let place := match issue.line with
      | some line => s!"line {line}: "
      | none => ""
    s!"      {place}{issue.message}"
  let finding (finding : Finding) : String :=
    s!"      line {finding.line}: [{finding.severity.title}] {finding.message}"
  let smoke := match verdict.smokeTest with
    | some smoke =>
        s!"  {mark smoke.passed} smoke test" :: smoke.failures.map fun failure => s!"      {failure}"
    | none => []
  [s!"  {mark verdict.formValid} syntax"] ++ verdict.issues.map issue ++
    [s!"  quality score: {verdict.score.fixed 2}"] ++ verdict.findings.map finding ++
    [s!"  {mark verdict.isAccepted} compilation: {verdict.status.name}"] ++
    verdict.errors.map (fun line => s!"      {line}") ++ smoke

def invalidPattern : String := "invalid environment pattern '"

def openPipeline (config : RunConfig) : Command (Pipeline ToolScript) :=
  orEnd (fun (pattern : String) =>
    ⟨"Invalid environment rules", [invalidPattern ++ pattern ++ "': regex parse error",
      "regex parse error"]⟩)
    (config.pipeline Machine.execute)

def validateFile (file : String) (config : Option String) (json : Bool) : Command Unit := do
  let config ← match config with
    | some path => loadConfig path
    | none => pure {}
  let text ← readFile file
  let pipeline ← openPipeline config
  let name := (Path.fileName? file).getD "input.c"
  let label := (Path.stem? file).getD "input"
  let session ← get
  let ((verdict, _), bench) := Bench.inWorkshop (pipeline.validateText label name text) session.bench
  set { session with bench }
  if json then printLine verdict.toJson.pretty
  else
    printLine s!"Validating {file}"
    (verdictLines verdict).forM printLine
  if !verdict.isAccepted then fail s!"Validation failed: {verdict.failureReason}"

def putCandidate (choice : TrialChoice) (ordinal : Nat) (file : String) : Command Unit := do
  let config ← loadConfig choice.config
  let unit ← loadUnit config choice.trial
  if ordinal = 0 ∨ unit.count < ordinal then
    fail s!"Ordinal {ordinal} is outside 1..={unit.count}"
  let text ← readFile file
  let store ← openStore config
  let session ← get
  let (result, bench) := store.putVerified unit.id ordinal text session.bench
  set { session with bench }
  let attempt ← doing "Failed to store candidate" .ofStoreError result
  let identifier := (unit.identifier? ordinal).getD "?"
  printLine s!"✓ Stored attempt {attempt} for {unit.id.name} ordinal {ordinal} ({identifier})"

/-- Prints an attempt at a function, the latest when none is given. -/
def showCandidate (choice : TrialChoice) (ordinal : Nat) (attempt : Option Nat) : Command Unit := do
  let config ← loadConfig choice.config
  let unit ← loadUnit config choice.trial
  let store ← openStore config
  let attempt ← match attempt with
    | some attempt => pure attempt
    | none => orEnd .ofStoreError (store.latest unit.id ordinal (← get).bench)
  printLine (← orEnd .ofStoreError (store.get unit.id ordinal attempt (← get).bench))

def listCandidates (choice : TrialChoice) : Command Unit := do
  let config ← loadConfig choice.config
  let unit ← loadUnit config choice.trial
  let store ← openStore config
  printLine s!"Candidates for {unit.id.name}:"
  (unit.functions.zipIdx 1).forM fun (name, ordinal) => do
    let attempts ← orEnd .ofStoreError (store.attempts unit.id ordinal (← get).bench)
    let listed := if attempts.isEmpty then "(none)" else ", ".intercalate (attempts.map toString)
    printLine s!"  {ordinal}. {name}: {listed}"

def renderReport (batch : String) (out : Option String) : Command Unit := do
  let text ← doing s!"read {Path.quoted batch}" .ofFileError ((← files).readText batch)
  let report ← match (Json.read? text).bind BatchReport.decode with
    | some report => pure report
    | none => throw ((ErrorTrail.ofMessage "unexpected form").stopping s!"parse {Path.quoted batch}")
  match out with
  | some path =>
      writeFile path report.summary
      printLine s!"✓ Wrote {path}"
  | none => printText report.summary

/-- Opens the log file in a directory, a new one if there is none. -/
def openLog (directory : String) : Command Unit := do
  let opened (tree : FileTree) : Except FileError FileTree := do
    let tree ← tree.makeDirectories directory
    let path := Path.join directory "splice.log"
    tree.write path ((tree.read path).toOption.getD [])
  setFiles (← doing "Failed to initialise logging" .ofFileError (opened (← files)))

def unitLine (report : UnitReport) : String :=
  let shown := mark (!report.category.isFailure)
  match report.error with
  | some error => s!"  {shown} {report.unitId} error: {error}"
  | none =>
      s!"  {shown} {report.unitId} window {report.windowReached}/{report.mergeBackRequested} " ++
        s!"({report.category.name})"

/-- Works on all trials of a configuration. The report of the batch gets a name. -/
def runBatch (id : BatchId) (environment : List (String × String)) (path : String)
    (overrides : Overrides) : Command Unit := do
  let config := overrides.apply (← loadConfig path)
  config.logDirectory.forM openLog
  doing "Invalid run configuration" .ofFailure config.check
  let store ← openStore config
  let client := Generation.Client.ofSettings config.generation config.model environment
  let pipeline ← openPipeline config
  printLine s!"Source: {config.sourceFile}"
  printLine s!"Model: {config.model}"
  printLine s!"Trials: {config.trials} (parallel {config.parallel})"
  printLine ""
  let setting : Bench.Setting :=
    ⟨store, Bench.askServer client, .byStages pipeline, config.outputDirectory⟩
  let session ← get
  let (result, bench) := ExceptT.run (Batch.run config id setting) session.bench
  set { session with bench }
  let outcome ← orEnd (·.stopping "Batch run failed") result
  outcome.units.forM fun report => printLine (unitLine report)
  let stats := outcome.report.stats
  printLine ""
  printLine (s!"Summary: {stats.accepted}/{stats.units} units accepted, " ++
    s!"{stats.repaired} ordinals repaired, {stats.exhausted} exhausted")
  printLine s!"Report: {outcome.path}"
  if outcome.report.hasFailures then fail "Some units were not accepted"
  printLine "\n✓ All units accepted"

def perform (id : BatchId) (environment : List (String × String)) (invocation : Invocation) :
    Command Unit :=
  match invocation.action with
  | .run config overrides => runBatch id environment config overrides
  | .locate file names => locateFunctions file names invocation.json
  | .merge choice window attempts out => mergeCandidates choice window attempts out
  | .validate file config => validateFile file config invocation.json
  | .putCandidate choice ordinal file => putCandidate choice ordinal file
  | .showCandidate choice ordinal attempt => showCandidate choice ordinal attempt
  | .listCandidates choice => listCandidates choice
  | .report batch out => renderReport batch out

end Command

/-- How a run of the program ends: its exit code, and what it prints on either stream. -/
structure Ending where
  exitCode : Nat
  output : String
  errors : String
  deriving Repr, DecidableEq, Inhabited

def versionLine : String := "splice 0.3.1\n"

def execute (id : BatchId) (environment : List (String × String)) (words : List String)
    (bench : Bench) : Ending × Bench :=
  match Invocation.read environment words with
  | .error .usage => (⟨2, "", "usage: splice [--json] [--verbose] <command> ...\n"⟩, bench)
  | .error .help => (⟨0, "usage: splice [--json] [--verbose] <command> ...\n", ""⟩, bench)
  | .error .version => (⟨0, versionLine, ""⟩, bench)
  | .ok invocation =>
      let (result, session) := ExceptT.run (Command.perform id environment invocation) ⟨bench, ""⟩
      match result with
      | .ok _ => (⟨0, session.printed, ""⟩, session.bench)
      | .error trail => (⟨1, session.printed, trail.report⟩, session.bench)

end Graft.Cli
