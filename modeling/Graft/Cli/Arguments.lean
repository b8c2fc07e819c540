import Graft.Text.Lines
import Graft.Text.Search

/-!
The words of a command line. A word that starts with two hyphens is a switch by its name, one that
starts with a single hyphen holds switches by their letters, and the others are operands. A switch may
take a value, from behind an equals sign or from the next word, and comes at most once unless it may be
repeated. Behind two hyphens alone all words are operands.
-/

namespace Graft.Cli

open Graft.Text

/-- Why a command line is not carried out: it is wrong, or it asks for help or for the version. -/
inductive Refusal where
  | usage
  | help
  | version
  deriving Repr, DecidableEq, Inhabited

/-- A switch: its name, its letter, and which values it takes if it takes any. -/
structure Switch where
  name : String
  letter : Option Char
  accepts : Option (String → Bool)
  repeats : Bool := false

structure Grammar where
  switches : List Switch
  /-- Which operands it takes, in their order. -/
  operands : List (String → Bool)
  /-- Whether more operands may follow. -/
  takesMore : Bool := false

/-- What a command was given, in the order in which it was given. -/
structure Arguments where
  flags : List String
  values : List (String × String)
  operands : List String
  deriving Repr, DecidableEq, Inhabited

namespace Arguments

def none : Arguments := ⟨[], [], []⟩

def hasFlag (arguments : Arguments) (name : String) : Bool := arguments.flags.contains name

def value? (arguments : Arguments) (name : String) : Option String := arguments.values.lookup name

def valuesOf (arguments : Arguments) (name : String) : List String :=
  (arguments.values.filter (·.1 == name)).map (·.2)

/-- Sets a flag. Help and version are given at once. -/
def setFlag (arguments : Arguments) (name : String) : Except Refusal Arguments :=
  if name = "help" then .error .help
  else if name = "version" then .error .version
  else if arguments.hasFlag name then .error .usage
  else .ok { arguments with flags := arguments.flags ++ [name] }

def setValue (arguments : Arguments) (switch : Switch) (value : String) :
    Except Refusal Arguments :=
  if !switch.repeats && (arguments.value? switch.name).isSome then .error .usage
  else if (switch.accepts.map (· value)).getD false then
    .ok { arguments with values := arguments.values ++ [(switch.name, value)] }
  else .error .usage

def addOperand (grammar : Grammar) (arguments : Arguments) (word : String) :
    Except Refusal Arguments :=
  let added := { arguments with operands := arguments.operands ++ [word] }
  match grammar.operands[arguments.operands.length]? with
  | some accepts => if accepts word then .ok added else .error .usage
  | Option.none => if grammar.takesMore then .ok added else .error .usage

/-- Reads a switch by its name, after the hyphens; the switch too if its value is still to come. -/
def readName (grammar : Grammar) (arguments : Arguments) (word : List Char) :
    Except Refusal (Arguments × Option Switch) := do
  let (name, value) := match cutFirst? '=' word with
    | some (name, value) => (name, some (String.ofList value))
    | Option.none => (word, Option.none)
  match grammar.switches.find? (·.name == String.ofList name) with
  | Option.none => throw .usage
  | some switch =>
      match switch.accepts, value with
      | Option.none, Option.none => return (← arguments.setFlag switch.name, Option.none)
      | Option.none, some _ => throw .usage
      | some _, some value => return (← arguments.setValue switch value, Option.none)
      | some _, Option.none => return (arguments, some switch)

/-- Reads switches by their letters, after the hyphen; the last one too if its value is still to
come. -/
def readLetters (grammar : Grammar) :
    List Char → Arguments → Except Refusal (Arguments × Option Switch)
  | [], arguments => .ok (arguments, Option.none)
  | letter :: rest, arguments =>
      match grammar.switches.find? (·.letter == some letter) with
      | Option.none => .error .usage
      | some switch =>
          match switch.accepts, rest with
          | Option.none, _ => do readLetters grammar rest (← arguments.setFlag switch.name)
          | some _, [] => .ok (arguments, some switch)
          | some _, '=' :: value => do
              return (← arguments.setValue switch (String.ofList value), Option.none)
          | some _, value => do
              return (← arguments.setValue switch (String.ofList value), Option.none)

/-- Whether a word is read as switches. A hyphen alone is an operand. -/
def isSwitch (word : String) : Bool := startsWith "-" word && word != "-"

/-- What a command was given, and the word of the command within it with the words that follow. -/
abbrev Reading := Arguments × Option (String × List String)

/-- Reads words up to that of one of the commands within. -/
def read (grammar : Grammar) (commands : List String) :
    List String → Arguments → Except Refusal Reading
  | [], arguments => .ok (arguments, Option.none)
  | word :: rest, arguments =>
      if word = "--" then do
        return (← rest.foldlM (addOperand grammar) arguments, Option.none)
      else if isSwitch word then do
        let (arguments, waiting) ← match word.toList with
          | '-' :: '-' :: name => readName grammar arguments name
          | _ :: letters => readLetters grammar letters arguments
          | [] => throw .usage
        match waiting, rest with
        | Option.none, rest => read grammar commands rest arguments
        | some _, [] => throw .usage
        | some switch, value :: rest =>
            if isSwitch value then throw .usage
            else read grammar commands rest (← arguments.setValue switch value)
      else if commands.isEmpty then do
        read grammar commands rest (← addOperand grammar arguments word)
      else if commands.contains word then .ok (arguments, some (word, rest))
      else .error .usage

def isComplete (grammar : Grammar) (arguments : Arguments) : Bool :=
  grammar.operands.length ≤ arguments.operands.length

end Arguments

end Graft.Cli
