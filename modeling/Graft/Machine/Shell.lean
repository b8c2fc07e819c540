import Graft.Machine.Arithmetic
import Graft.Machine.Program
import Graft.Machine.Script

/-!
Running scripts and programs. Time is counted, not waited for: a run that takes longer than it may is
stopped at its deadline, and what it would have done afterwards does not happen. Runs are bounded by
fuel, and one that uses it up counts as one that takes too long.
-/

namespace Graft.Machine

open Graft.Text

inductive Ending where
  | exited (code : Nat)
  | killed (signal : Nat)
  /-- It was still running at its deadline. -/
  | late
  deriving Repr, DecidableEq, Inhabited

/-- Where the output of a descriptor goes: to one of the streams that are being kept, into a file,
or nowhere. -/
inductive Sink where
  | stream (index : Nat)
  | file (at_ : Location)
  | nowhere
  deriving Repr, DecidableEq, Inhabited

structure Shell where
  tree : FileTree
  /-- The words of the script, its own name first. -/
  arguments : List String
  bindings : List (String × String)
  /-- Whether a command that fails ends the script. -/
  isStrict : Bool
  status : Nat
  input : Bytes
  streams : List Bytes
  output : Sink
  errors : Sink
  elapsed : Nat
  deadline : Nat
  ending : Option Ending
  deriving Inhabited

/-- What is left of a process: the files, what it printed, how it ended, and the time by then. -/
structure Remains where
  tree : FileTree
  output : Bytes
  errors : Bytes
  ending : Ending
  elapsed : Nat
  deriving Inhabited

namespace Shell

/-- The name by which a script knows its own process. -/
def ownNumber : String := "4242"

def fresh (tree : FileTree) (arguments : List String) (input : Bytes) (elapsed deadline : Nat) : Shell :=
  ⟨tree, arguments, [], false, 0, input, [[], []], .stream 0, .stream 1, elapsed, deadline, none⟩

def write (shell : Shell) (sink : Sink) (content : Bytes) : Shell :=
  match sink with
  | .stream index => { shell with streams := shell.streams.modify index (· ++ content) }
  | .nowhere => shell
  | .file location =>
      match shell.tree.node? location with
      | some (.file before executable) =>
          { shell with tree := shell.tree.set location (.file (before ++ content) executable) }
      | _ => shell

/-- The process after a time; at its deadline it is stopped. -/
def wait (shell : Shell) (time : Nat) : Shell :=
  let elapsed := shell.elapsed + time
  { shell with
    elapsed, ending := if shell.deadline ≤ elapsed then some .late else shell.ending }

def complain (shell : Shell) (line : Nat) (message : String) (status : Nat) : Shell :=
  let name := shell.arguments.head?.getD "sh"
  { shell.write shell.errors (encode s!"{name}: {line}: {message}\n") with status }

def remains (shell : Shell) : Remains :=
  ⟨shell.tree, shell.streams.head?.getD [], shell.streams[1]?.getD [],
    shell.ending.getD (.exited (shell.status % 256)), shell.elapsed⟩

def parameter (shell : Shell) (name : String) : String :=
  let words := shell.arguments.tail
  match name with
  | "?" => toString shell.status
  | "#" => toString words.length
  | "$" => ownNumber
  | "@" | "*" => " ".intercalate words
  | _ =>
      match name.toNat? with
      | some n => shell.arguments[n]?.getD ""
      | none => (shell.bindings.lookup name).getD ""

/-- The value of a parameter, or what its form makes of it: a text in its place when it is empty or
when it is not, or its length. -/
def parameterForm (shell : Shell) (form : String) : String :=
  match form.toList with
  | '#' :: c :: rest => toString (shell.parameter (String.ofList (c :: rest))).length
  | characters =>
      let name := characters.takeWhile fun c => c.isAlphanum || c == '_'
      let value := shell.parameter (String.ofList name)
      match characters.drop name.length with
      | ':' :: '-' :: other | '-' :: other | ':' :: '=' :: other =>
          if value.isEmpty && !name.isEmpty then String.ofList other else value
      | ':' :: '+' :: other => if value.isEmpty then "" else String.ofList other
      | _ => shell.parameter form

def valueOf? (shell : Shell) (expression : String) : Option Int :=
  let value (name : String) : Int := ((shell.parameter name).toInt?).getD 0
  Arithmetic.evaluate? value expression

def assign (shell : Shell) (name value : String) : Shell :=
  { shell with bindings := (name, value) :: shell.bindings.filter (·.1 != name) }

def lead (shell : Shell) (descriptor : Nat) (sink : Sink) : Shell :=
  if descriptor = 1 then { shell with output := sink }
  else if descriptor = 2 then { shell with errors := sink }
  else shell

/-- The descriptor led to a file, emptied first unless it is written at its end, and whether that
could be done. -/
def redirectTo (shell : Shell) (line descriptor : Nat) (path : String) (appends : Bool) :
    Shell × Bool :=
  if path = "/dev/null" then (shell.lead descriptor .nowhere, true)
  else if path = "/dev/stderr" then (shell.lead descriptor shell.errors, true)
  else if path = "/dev/stdout" then (shell.lead descriptor shell.output, true)
  else
    match shell.tree.resolveFile path with
    | .error error =>
        let reason := if error = .notFound then "Directory nonexistent" else Program.plainly error
        (shell.complain line s!"cannot create {path}: {reason}" 2, false)
    | .ok location =>
        let tree := match shell.tree.node? location with
          | some (.file content executable) =>
              shell.tree.set location (.file (if appends then content else []) executable)
          | _ => shell.tree.set location (.file [] false)
        (lead { shell with tree } descriptor (.file location), true)

def signal? (text : String) : Option Nat :=
  let names := [("HUP", 1), ("INT", 2), ("QUIT", 3), ("ILL", 4), ("ABRT", 6), ("FPE", 8), ("KILL", 9),
    ("SEGV", 11), ("PIPE", 13), ("ALRM", 14), ("TERM", 15), ("USR1", 10), ("USR2", 12)]
  text.toNat?.orElse fun _ => names.lookup text

/-- Sends a signal; only the process itself can be reached. -/
def kill (shell : Shell) (line : Nat) (words : List String) : Shell :=
  let (signal, targets) := match words with
    | "-s" :: name :: rest => (signal? name, rest)
    | word :: rest =>
        if startsWith "-" word then (signal? (String.ofList (word.toList.drop 1)), rest)
        else (some 15, words)
    | [] => (some 15, [])
  match signal with
  | none => shell.complain line "kill: Illegal option" 2
  | some 0 => { shell with status := 0 }
  | some signal =>
      if targets.contains ownNumber then { shell with ending := some (.killed signal) }
      else shell.complain line "kill: No such process" 1

/-- The fields of a word so far: those that are complete, and the one that is being written. -/
structure Fields where
  complete : List String
  current : Option String

namespace Fields

def add (fields : Fields) (content : String) : Fields :=
  { fields with current := some (fields.current.getD "" ++ content) }

def close (fields : Fields) : Fields :=
  ⟨fields.complete ++ fields.current.toList, none⟩

def addSplit (fields : Fields) (content : String) : Fields :=
  content.toList.foldl (fun fields c =>
    if c = ' ' ∨ c = '\t' ∨ c = '\n' then fields.close else fields.add (String.ofList [c])) fields

def put (fields : Fields) (content : String) (quoted : Bool) : Fields :=
  if quoted then fields.add content else fields.addSplit content

def addAll (fields : Fields) : List String → Fields
  | [] => fields
  | [word] => fields.add word
  | word :: rest => addAll (fields.add word).close rest

end Fields

/-- The interpreter that the first line of a program names, and the words behind it. -/
def interpreter? (content : Bytes) : Option (List String) := do
  let line ← (lines (decodeLossy content)).head?
  let rest ← dropHead? ['#', '!'] line.toList
  let words := ((splitAtChar ' ' rest).map String.ofList).filter (!·.isEmpty)
  let names := words.map fun word => (Path.fileName? word).getD word
  match names with
  | "env" :: rest => some rest
  | _ => some names

def dropBreaks (content : Bytes) : String :=
  String.ofList (dropEndWhile (· == '\n') (decodeLossy content).toList)

mutual

def expand : Nat → Shell → Word → Fields → Shell × Fields
  | 0, shell, _, fields => (shell, fields)
  | _ + 1, shell, [], fields => (shell, fields)
  | fuel + 1, shell, part :: rest, fields =>
      match part with
      | .text content true => expand fuel shell rest (fields.add content)
      | .text content false => expand fuel shell rest (fields.add content)
      | .parameter "@" true => expand fuel shell rest (fields.addAll shell.arguments.tail)
      | .parameter name quoted => expand fuel shell rest (fields.put (shell.parameterForm name) quoted)
      | .arithmetic expression quoted =>
          match shell.valueOf? expression with
          | some value => expand fuel shell rest (fields.put (toString value) quoted)
          | none =>
              ({ shell.complain 1 s!"arithmetic expression: {expression}" 2 with
                ending := some (.exited 2) }, fields)
      | .output script quoted =>
          let (shell, content) := capture fuel shell script
          expand fuel shell rest (fields.put (dropBreaks content) quoted)

def expandAll : Nat → Shell → List Word → Shell × List String
  | 0, shell, _ => (shell, [])
  | _ + 1, shell, [] => (shell, [])
  | fuel + 1, shell, word :: rest =>
      let (shell, fields) := expand fuel shell word ⟨[], none⟩
      let (shell, others) := expandAll fuel shell rest
      (shell, fields.close.complete ++ others)

def expandOne : Nat → Shell → Word → Shell × String
  | 0, shell, _ => (shell, "")
  | fuel + 1, shell, word =>
      let (shell, fields) := expand fuel shell word ⟨[], none⟩
      (shell, " ".intercalate fields.close.complete)

def capture : Nat → Shell → String → Shell × Bytes
  | 0, shell, _ => ({ shell with ending := some .late }, [])
  | fuel + 1, shell, text =>
      match Script.read? text with
      | none => (shell.complain 1 "Syntax error" 2, [])
      | some script =>
          let index := shell.streams.length
          let inner := { shell with streams := shell.streams ++ [[]], output := .stream index }
          let after := subshell fuel inner script
          ({ after with streams := after.streams.take index, output := shell.output },
            after.streams[index]?.getD [])

/-- Runs a script in a process of its own: its variables, its directory and its end are its own. -/
def subshell : Nat → Shell → Script → Shell
  | 0, shell, _ => { shell with ending := some .late }
  | fuel + 1, shell, script =>
      let after := run fuel shell script
      let (status, ending) := match after.ending with
        | some (.exited code) => (code % 256, none)
        | other => (after.status, other)
      { after with
        status, ending, bindings := shell.bindings, output := shell.output, errors := shell.errors
        input := shell.input, tree := { after.tree with current := shell.tree.current } }

/-- Leads descriptors where redirections say. A redirection that fails is told, and its command is
not run. -/
def redirect : Nat → Shell → Nat → List Redirection → Shell × Bool
  | 0, shell, _, _ => (shell, false)
  | _ + 1, shell, _, [] => (shell, true)
  | fuel + 1, shell, line, redirection :: rest =>
      let toFile (descriptor : Nat) (word : Word) (appends : Bool) : Shell × Bool :=
        let (shell, path) := expandOne fuel shell word
        match shell.redirectTo line descriptor path appends with
        | (shell, true) => redirect fuel shell line rest
        | (shell, false) => (shell, false)
      match redirection with
      | .write descriptor word => toFile descriptor word false
      | .append descriptor word => toFile descriptor word true
      | .read word =>
          let (shell, path) := expandOne fuel shell word
          if path = "/dev/null" then redirect fuel { shell with input := [] } line rest
          else
            match shell.tree.read path with
            | .ok input => redirect fuel { shell with input } line rest
            | .error error =>
                let reason := if error = .notFound then "No such file" else Program.plainly error
                (shell.complain line s!"cannot open {path}: {reason}" 2, false)
      | .copy descriptor source =>
          let sink := if source = 1 then shell.output else shell.errors
          redirect fuel (shell.lead descriptor sink) line rest

def runRedirected : Nat → Shell → Nat → List Redirection → (Shell → Shell) → Shell
  | 0, shell, _, _, _ => { shell with ending := some .late }
  | fuel + 1, shell, line, redirections, body =>
      let (ready, isReady) := redirect fuel shell line redirections
      let after := if isReady then body ready else ready
      let readsFile := redirections.any fun redirection => match redirection with
        | .read _ => true
        | _ => false
      { after with
        output := shell.output, errors := shell.errors
        input := if readsFile then shell.input else after.input }

def command : Nat → Shell → Nat → List String → Shell
  | 0, shell, _, _ => { shell with ending := some .late }
  | _ + 1, shell, _, [] => { shell with status := 0 }
  | fuel + 1, shell, line, name :: words =>
      let effect (program : Program) : Shell :=
        let effect := program ⟨words, shell.input, shell.tree⟩
        let shell := { shell with tree := effect.tree, status := effect.status }
        let shell := (shell.write shell.output effect.output).write shell.errors effect.errors
        if effect.elapsed = 0 then shell else shell.wait effect.elapsed
      match name with
      | "exit" =>
          match words with
          | [] => { shell with ending := some (.exited (shell.status % 256)) }
          | word :: _ =>
              match if word.isEmpty then none else digitsValue? 10 digit? word.toList with
              | some code => { shell with ending := some (.exited (code % 256)) }
              | none =>
                  { shell.complain line ("exit: Illegal number: " ++ word) 2 with
                    ending := some (.exited 2) }
      | "kill" => shell.kill line words
      | "cd" =>
          match shell.tree.resolve (words.head?.getD "/") with
          | .ok location =>
              if shell.tree.isDirectory location then
                { shell with tree := { shell.tree with current := location }, status := 0 }
              else shell.complain line ("cd: can't cd to " ++ words.head?.getD "") 2
          | .error _ => shell.complain line ("cd: can't cd to " ++ words.head?.getD "") 2
      | "set" =>
          let isStrict := match words.head? with
            | some "-e" => true
            | some "+e" => false
            | _ => shell.isStrict
          { shell with isStrict, status := 0 }
      | "read" =>
          let line := shell.input.takeWhile (· != 10)
          let input := shell.input.drop (line.length + 1)
          let text := decodeLossy line
          let shell := match words with
            | name :: _ => shell.assign name (trimmed text)
            | [] => shell
          { shell with input, status := if shell.input.length ≤ line.length then 1 else 0 }
      | ":" | "export" | "umask" | "trap" | "wait" => { shell with status := 0 }
      | "shift" =>
          { shell with arguments := shell.arguments.take 1 ++ shell.arguments.drop 2, status := 0 }
      | "exec" =>
          let shell := command fuel shell line words
          { shell with ending := shell.ending.orElse fun _ => some (.exited shell.status) }
      | "echo" => effect (Program.echo true)
      | _ =>
          match execute fuel (name :: words) shell.input shell.tree shell.elapsed shell.deadline with
          | .error error =>
              let (reason, status) := match error with
                | .notFound => ("not found", 127)
                | error => (Program.plainly error, 126)
              shell.complain line s!"{name}: {reason}" status
          | .ok remains =>
              let tree := { remains.tree with current := shell.tree.current }
              let shell := { shell with tree, elapsed := remains.elapsed }
              let shell := (shell.write shell.output remains.output).write shell.errors remains.errors
              match remains.ending with
              | .exited code => { shell with status := code }
              | .killed signal => { shell with status := 128 + signal }
              | .late => { shell with ending := some .late }

def run : Nat → Shell → Script → Shell
  | 0, shell, _ => { shell with ending := some .late }
  | fuel + 1, shell, script =>
      if shell.ending.isSome then shell
      else
        match script with
        | .skip => shell
        | .simple line assignments words redirections =>
            let (shell, fields) := expandAll fuel shell words
            let shell := assignAll fuel shell assignments
            if shell.ending.isSome then shell
            else
              let after := runRedirected fuel shell line redirections fun shell =>
                command fuel shell line fields
              if after.isStrict && after.status != 0 then
                { after with ending := after.ending.orElse fun _ => some (.exited after.status) }
              else after
        | .sequence first second => run fuel (run fuel shell first) second
        | .both first second =>
            let shell := ask fuel shell first
            if shell.status = 0 then run fuel shell second else shell
        | .either first second =>
            let shell := ask fuel shell first
            if shell.status = 0 then shell else run fuel shell second
        | .negation script =>
            let shell := ask fuel shell script
            { shell with status := if shell.status = 0 then 1 else 0 }
        | .choice condition accepted rejected =>
            let shell := ask fuel shell condition
            if shell.status = 0 then run fuel shell accepted
            else run fuel { shell with status := 0 } rejected
        | .loop condition body =>
            let shell := ask fuel shell condition
            if shell.ending.isSome then shell
            else if shell.status = 0 then run fuel (run fuel shell body) (.loop condition body)
            else { shell with status := 0 }
        | .forEach name words body =>
            let (shell, fields) := expandAll fuel shell words
            runEach fuel shell name fields body
        | .redirected script redirections =>
            runRedirected fuel shell 1 redirections fun shell => run fuel shell script
        | .subshell script => subshell fuel shell script
        | .pipe first second =>
            let index := shell.streams.length
            let inner := { shell with streams := shell.streams ++ [[]], output := .stream index }
            let after := subshell fuel inner first
            let input := after.streams[index]?.getD []
            let between :=
              { after with streams := after.streams.take index, output := shell.output, input }
            let after := subshell fuel between second
            { after with input := shell.input }

/-- Runs a script to learn its status; a failure in it ends nothing. -/
def ask : Nat → Shell → Script → Shell
  | 0, shell, _ => { shell with ending := some .late }
  | fuel + 1, shell, script =>
      { run fuel { shell with isStrict := false } script with isStrict := shell.isStrict }

def assignAll : Nat → Shell → List (String × Word) → Shell
  | 0, shell, _ => shell
  | _ + 1, shell, [] => shell
  | fuel + 1, shell, (name, word) :: rest =>
      let (shell, value) := expandOne fuel shell word
      assignAll fuel (shell.assign name value) rest

def runEach : Nat → Shell → String → List String → Script → Shell
  | 0, shell, _, _, _ => { shell with ending := some .late }
  | _ + 1, shell, _, [], _ => shell
  | fuel + 1, shell, name, word :: rest, body =>
      let shell := run fuel (shell.assign name word) body
      if shell.ending.isSome then shell else runEach fuel shell name rest body

def runText : Nat → Shell → String → Remains
  | 0, shell, _ => { shell with ending := some .late }.remains
  | fuel + 1, shell, text =>
      match Script.read? text with
      | some script => (run fuel shell script).remains
      | none => (shell.complain 1 "Syntax error" 2).remains

/-- Runs a program by its words. A name with a slash is a file, any other one a program that is
installed. -/
def execute : Nat → List String → Bytes → FileTree → Nat → Nat → Except FileError Remains
  | 0, _, _, tree, elapsed, _ => .ok ⟨tree, [], [], .late, elapsed⟩
  | _ + 1, [], _, _, _, _ => .error .notFound
  | fuel + 1, name :: words, input, tree, elapsed, deadline =>
      let shell (arguments : List String) := fresh tree arguments input elapsed deadline
      let installed (name : String) (words : List String) : Except FileError Remains :=
        if name = "sh" ∨ name = "dash" ∨ name = "bash" then
          match words with
          | "-c" :: script :: rest => .ok (runText fuel (shell (if rest.isEmpty then [name] else rest)) script)
          | path :: rest =>
              match tree.read path with
              | .ok content => .ok (runText fuel (shell (path :: rest)) (decodeLossy content))
              | .error error =>
                  let reason := if error = .notFound then "No such file" else Program.plainly error
                  .ok ((shell [name]).complain 0 s!"cannot open {path}: {reason}" 2).remains
          | [] => .ok (runText fuel (shell [name]) (decodeLossy input))
        else
          match Program.installed.lookup name with
          | none => .error .notFound
          | some program =>
              let effect := program ⟨words, input, tree⟩
              let elapsed := elapsed + effect.elapsed
              let ending := if 0 < effect.elapsed && deadline ≤ elapsed then Ending.late
                else .exited effect.status
              .ok ⟨effect.tree, effect.output, effect.errors, ending, elapsed⟩
      if !name.toList.contains '/' then installed name words
      else if startsWith "/bin/" name || startsWith "/usr/bin/" name then
        installed ((Path.fileName? name).getD "") words
      else
        match tree.lookUp name with
        | .error error => .error error
        | .ok .directory => .error .denied
        | .ok (.file _ false) => .error .denied
        | .ok (.file content true) =>
            match interpreter? content with
            | some (program :: rest) => installed program (rest ++ name :: words)
            | _ => .error .badFormat

end

end Shell

def fuelOfRun : Nat := 4000

def execute (words : List String) (tree : FileTree) (deadline : Nat) : Except FileError Remains :=
  Shell.execute fuelOfRun words [] tree 0 deadline

end Graft.Machine
