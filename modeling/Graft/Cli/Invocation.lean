import Graft.Cli.Arguments
import Graft.Run.Config
import Graft.Text.Blank
import Graft.Text.Numeral

/-!
The commands of the program, as read from a command line.
-/

namespace Graft.Cli

open Graft.Text

/-- The settings of a run that the command line gives in the place of those in the file. -/
structure Overrides where
  sourceFile : Option String
  functionCount : Option Nat
  model : Option String
  outputDirectory : Option String
  trials : Option Nat
  mergeBack : Option Nat
  maxFixAttempts : Option Nat
  parallel : Option Nat
  usesCache : Bool
  noAutoFix : Bool
  runsTests : Bool
  logDirectory : Option String
  deriving Repr, DecidableEq, Inhabited

def Overrides.apply (overrides : Overrides) (config : RunConfig) : RunConfig :=
  { config with
    sourceFile := overrides.sourceFile.getD config.sourceFile
    functionCount := overrides.functionCount.getD config.functionCount
    model := overrides.model.getD config.model
    outputDirectory := overrides.outputDirectory.getD config.outputDirectory
    trials := overrides.trials.getD config.trials
    mergeBack := overrides.mergeBack.orElse fun _ => config.mergeBack
    maxFixAttempts := overrides.maxFixAttempts.getD config.maxFixAttempts
    parallel := overrides.parallel.getD config.parallel
    logDirectory := overrides.logDirectory.orElse fun _ => config.logDirectory
    usesCache := config.usesCache || overrides.usesCache
    runsTests := config.runsTests || overrides.runsTests
    autoFix := config.autoFix && !overrides.noAutoFix }

structure TrialChoice where
  config : String
  trial : Nat
  deriving Repr, DecidableEq, Inhabited

inductive Action where
  | run (config : String) (overrides : Overrides)
  | locate (file : String) (names : List String)
  | merge (choice : TrialChoice) (window : Option Nat) (attempts : List (Nat × Nat))
      (out : Option String)
  | validate (file : String) (config : Option String)
  | putCandidate (choice : TrialChoice) (ordinal : Nat) (file : String)
  | showCandidate (choice : TrialChoice) (ordinal : Nat) (attempt : Option Nat)
  | listCandidates (choice : TrialChoice)
  | report (batch : String) (out : Option String)
  deriving Repr, DecidableEq, Inhabited

/-- An action, and whether its output is wanted as JSON. -/
structure Invocation where
  action : Action
  json : Bool
  deriving Repr, DecidableEq, Inhabited

/-- A number of 32 bits as the value of a switch. A sign may stand before it, a minus sign only before
zero. -/
def unsigned? (text : String) : Option Nat :=
  match text.toList with
  | '-' :: digits =>
      if startsWith "+" (String.ofList digits) then none
      else (readU32? (String.ofList digits)).filter (· == 0)
  | _ => readU32? text

/-- An attempt at a function, `ordinal=attempt`; both count from one. -/
def attempt? (text : String) : Option (Nat × Nat) := do
  let (ordinal, attempt) ← cutFirst? '=' text.toList
  let ordinal ← readU32? (trimmed (String.ofList ordinal))
  let attempt ← readU32? (trimmed (String.ofList attempt))
  if ordinal = 0 ∨ attempt = 0 then none else some (ordinal, attempt)

def anyText (_ : String) : Bool := true

def isPath (text : String) : Bool := !text.isEmpty

def isUnsigned (text : String) : Bool := (unsigned? text).isSome

namespace Switch

def flag (name : String) (letter : Option Char) : Switch := ⟨name, letter, none, false⟩

def path (name : String) (letter : Option Char) : Switch := ⟨name, letter, some isPath, false⟩

def number (name : String) (letter : Option Char) : Switch := ⟨name, letter, some isUnsigned, false⟩

end Switch

def globalSwitches : List Switch := [.flag "verbose" 'v', .flag "json" none, .flag "help" 'h']

def grammarOf (switches : List Switch) (operands : List (String → Bool)) (more : Bool) : Grammar :=
  ⟨globalSwitches ++ switches, operands, more⟩

def topGrammar : Grammar := grammarOf [.flag "version" 'V'] [] false

def runGrammar : Grammar :=
  grammarOf [.path "config" 'c', .path "source" none, .number "num-funcs" none,
    ⟨"model", none, some anyText, false⟩, .path "output-dir" 'o', .number "trials" none,
    .number "merge-back" none, .number "max-fix-attempts" none,
    ⟨"parallel", some 'p', some fun text => (readU64? text).isSome, false⟩, .flag "use-cache" none,
    .flag "no-auto-fix" none, .flag "run-tests" none, .path "log-dir" none] [] false

def trialSwitches : List Switch := [.path "config" 'c', .number "trial" 't']

def mergeGrammar : Grammar :=
  grammarOf (trialSwitches ++ [.number "window" 'w',
    ⟨"attempt", some 'a', some fun text => (attempt? text).isSome, true⟩, .path "out" 'o']) [] false

/-- Reads the words of a command that has no commands within. -/
def readLeaf (grammar : Grammar) (words : List String) : Except Refusal Arguments := do
  let (arguments, _) ← Arguments.read grammar [] words .none
  if arguments.isComplete grammar then return arguments else throw .usage

def usualConfig : String := "splice.toml"

def numberOf (arguments : Arguments) (name : String) : Option Nat :=
  (arguments.value? name).bind unsigned?

/-- The trial that was chosen; the first one of the usual configuration when none was. -/
def choiceOf (arguments : Arguments) : TrialChoice :=
  ⟨(arguments.value? "config").getD usualConfig, (numberOf arguments "trial").getD 1⟩

def operandOf (arguments : Arguments) : String := arguments.operands.head?.getD ""

def wantsJson (arguments : Arguments) : Bool := arguments.hasFlag "json"

def requiredNumber (arguments : Arguments) (name : String) : Except Refusal Nat :=
  match numberOf arguments name with
  | some number => .ok number
  | none => .error .usage

def readCandidateCommand (name : String) (words : List String) : Except Refusal (Action × Bool) :=
  match name with
  | "put" => do
      let arguments ← readLeaf (grammarOf (trialSwitches ++ [.number "ordinal" 'o']) [isPath] false) words
      let ordinal ← requiredNumber arguments "ordinal"
      return (.putCandidate (choiceOf arguments) ordinal (operandOf arguments), wantsJson arguments)
  | "show" => do
      let arguments ← readLeaf (grammarOf (trialSwitches ++ [.number "ordinal" 'o',
        .number "attempt" 'a']) [] false) words
      let ordinal ← requiredNumber arguments "ordinal"
      return (.showCandidate (choiceOf arguments) ordinal (numberOf arguments "attempt"),
        wantsJson arguments)
  | _ => do
      let arguments ← readLeaf (grammarOf trialSwitches [] false) words
      return (.listCandidates (choiceOf arguments), wantsJson arguments)

def readHelp (commands : List String) (within : String → List String) :
    List String → Except Refusal (Action × Bool)
  | [] => .error .help
  | name :: rest =>
      if !commands.contains name then .error .usage
      else
        match rest with
        | [] => .error .help
        | inner :: more =>
            if (within name).contains inner && more.isEmpty then .error .help else .error .usage

def candidateCommands : List String := ["put", "show", "list", "help"]

def commands : List String :=
  ["run", "locate", "merge", "validate", "candidate", "report", "help"]

def commandsWithin (name : String) : List String :=
  if name = "candidate" then candidateCommands else []

/-- The settings of a run that were given. The model may also come from the environment. -/
def overridesOf (arguments : Arguments) (environment : List (String × String)) : Overrides where
  sourceFile := arguments.value? "source"
  functionCount := numberOf arguments "num-funcs"
  model := (arguments.value? "model").orElse fun _ => environment.lookup "SPLICE_MODEL"
  outputDirectory := arguments.value? "output-dir"
  trials := numberOf arguments "trials"
  mergeBack := numberOf arguments "merge-back"
  maxFixAttempts := numberOf arguments "max-fix-attempts"
  parallel := (arguments.value? "parallel").bind readU64?
  usesCache := arguments.hasFlag "use-cache"
  noAutoFix := arguments.hasFlag "no-auto-fix"
  runsTests := arguments.hasFlag "run-tests"
  logDirectory := arguments.value? "log-dir"

def readCommand (environment : List (String × String)) (name : String) (words : List String) :
    Except Refusal (Action × Bool) :=
  match name with
  | "run" => do
      let arguments ← readLeaf runGrammar words
      let config := (arguments.value? "config").getD usualConfig
      return (.run config (overridesOf arguments environment), wantsJson arguments)
  | "locate" => do
      let arguments ← readLeaf (grammarOf [] [isPath] true) words
      return (.locate (operandOf arguments) (arguments.operands.drop 1), wantsJson arguments)
  | "merge" => do
      let arguments ← readLeaf mergeGrammar words
      let attempts := (arguments.valuesOf "attempt").filterMap attempt?
      return (.merge (choiceOf arguments) (numberOf arguments "window") attempts
        (arguments.value? "out"), wantsJson arguments)
  | "validate" => do
      let arguments ← readLeaf (grammarOf [.path "config" 'c'] [isPath] false) words
      return (.validate (operandOf arguments) (arguments.value? "config"), wantsJson arguments)
  | "candidate" => do
      let (arguments, within) ← Arguments.read (grammarOf [] [] false) candidateCommands words .none
      match within with
      | some ("help", words) => readHelp candidateCommands (fun _ => []) words
      | some (name, words) =>
          let (action, json) ← readCandidateCommand name words
          return (action, json || wantsJson arguments)
      | none => throw .usage
  | "report" => do
      let arguments ← readLeaf (grammarOf [.path "out" 'o'] [isPath] false) words
      return (.report (operandOf arguments) (arguments.value? "out"), wantsJson arguments)
  | _ => readHelp commands commandsWithin words

/-- Reads a command line, without the name of the program. -/
def Invocation.read (environment : List (String × String)) (words : List String) :
    Except Refusal Invocation := do
  match ← Arguments.read topGrammar commands words .none with
  | (_, none) => throw .usage
  | (arguments, some (name, words)) =>
      let (action, json) ← readCommand environment name words
      return ⟨action, json || wantsJson arguments⟩

end Graft.Cli
