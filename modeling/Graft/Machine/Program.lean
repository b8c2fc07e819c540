import Graft.Files.Step
import Graft.Machine.Format
import Graft.Pattern.Match
import Graft.Pattern.Reader

/-!
The programs of a machine. A program sees its words, its input and the files, and answers what it
printed, its status and how long it took.
-/

namespace Graft.Machine

open Graft.Text

/-- What a program is given: its words without its name, its input, and the files from where it
stands. -/
structure Invocation where
  arguments : List String
  input : Bytes
  tree : FileTree

/-- What a program did. Times are in milliseconds. -/
structure Effect where
  tree : FileTree
  output : Bytes
  errors : Bytes
  status : Nat
  elapsed : Nat

abbrev Program := Invocation → Effect

namespace Program

def prints (content : Bytes) (status : Nat) : Program := fun call =>
  ⟨call.tree, content, [], status, 0⟩

def complains (message : String) (status : Nat) : Program := fun call =>
  ⟨call.tree, [], encode (message ++ "\n"), status, 0⟩

def plainly (error : FileError) : String :=
  match cutFirst? '(' error.message.toList with
  | some (before, _) => String.ofList (trim before)
  | none => error.message

def options (arguments : List String) : List Char × List String :=
  let (flags, rest) := arguments.partition fun word => word.length > 1 && startsWith "-" word
  (flags.flatMap (·.toList.drop 1), rest)

/-- Writes its words and a line break; escapes are read where the shell's own version runs. -/
def echo (readsEscapes : Bool) : Program := fun call =>
  let (newline, words) := match call.arguments with
    | "-n" :: words => (false, words)
    | words => (true, words)
  let (escapes, words) := match words with
    | "-e" :: rest => if readsEscapes then (true, words) else (true, rest)
    | _ => (readsEscapes, words)
  let line := " ".intercalate words
  let (content, more) :=
    if escapes then unescape (line.length + 1) line.toList else (encode line, true)
  prints (content ++ if newline && more then [10] else []) 0 call

def printf : Program := fun call =>
  match call.arguments with
  | [] => complains "printf: missing operand" 1 call
  | format :: rest => prints (formatted format rest) 0 call

/-- Runs a step on each word in turn; a failure is told and does not stop the others. -/
def onEach (name : String) (step : FileTree → String → Except FileError (FileTree × Bytes))
    (complaint : String → FileError → String) (words : List String) : Program := fun call =>
  words.foldl (fun effect word =>
    match step effect.tree word with
    | .ok (tree, printed) => { effect with tree, output := effect.output ++ printed }
    | .error error =>
        let line := encode (s!"{name}: {complaint word error}\n")
        { effect with errors := effect.errors ++ line, status := 1 })
    ⟨call.tree, [], [], 0, 0⟩

def named (word : String) (error : FileError) : String := s!"{word}: {plainly error}"

def cat : Program := fun call =>
  if call.arguments.isEmpty then prints call.input 0 call
  else
    onEach "cat" (fun tree word =>
      if word = "-" then .ok (tree, call.input) else (tree.read word).map fun bytes => (tree, bytes))
      named call.arguments call

def ls : Program := fun call =>
  let (flags, words) := options call.arguments
  let shown (names : List String) : Bytes :=
    let visible := names.filter fun name => flags.contains 'a' || !startsWith "." name
    encode (String.join ((visible.mergeSort fun a b => decide (a ≤ b)).map (· ++ "\n")))
  let effect := onEach "ls" (fun tree word =>
    match tree.list word with
    | .ok names => .ok (tree, shown (if flags.contains 'a' then "." :: ".." :: names else names))
    | .error .notDirectory => .ok (tree, encode (word ++ "\n"))
    | .error error => .error error)
    (fun word error => s!"cannot access '{word}': {plainly error}")
    (if words.isEmpty then ["."] else words) call
  { effect with status := if effect.status = 0 then 0 else 2 }

def mkdir : Program := fun call =>
  let (flags, words) := options call.arguments
  onEach "mkdir" (fun tree word =>
    if flags.contains 'p' then (tree.makeDirectories word).map fun tree => (tree, [])
    else do
      let location ← tree.resolve word
      if (tree.node? location).isSome then throw .exists
      return (tree.set location .directory, []))
    (fun word error => s!"cannot create directory '{word}': {plainly error}") words call

def touch : Program := fun call =>
  onEach "touch" (fun tree word =>
    if tree.hasPath word then .ok (tree, []) else (tree.write word []).map fun tree => (tree, []))
    (fun word error => s!"cannot touch '{word}': {plainly error}") call.arguments call

def rm : Program := fun call =>
  let (flags, words) := options call.arguments
  let words := if flags.contains 'f' then words.filter call.tree.hasPath else words
  onEach "rm" (fun tree word => do
    let location ← tree.resolve word
    match tree.node? location with
    | none => throw .notFound
    | some .directory =>
        if flags.contains 'r' || flags.contains 'R' then return (tree.prune location, [])
        else throw .isDirectory
    | some (.file ..) => return (tree.erase location, []))
    (fun word error => s!"cannot remove '{word}': {plainly error}") words call

/-- The location that a copy takes: one inside the target, when that is a directory. -/
def landing (tree : FileTree) (source target : String) : Except FileError Location := do
  let location ← tree.resolve target
  if tree.isDirectory location then return location ++ [(Path.fileName? source).getD source]
  return location

def cp : Program := fun call =>
  match (options call.arguments).2 with
  | [source, target] =>
      onEach "cp" (fun tree word => do
        let node ← tree.lookUp word
        if node = .directory then throw .isDirectory
        return (tree.set (← landing tree word target) node, []))
        (fun word error => s!"cannot stat '{word}': {plainly error}") [source] call
  | _ => complains "cp: missing file operand" 1 call

def mv : Program := fun call =>
  match (options call.arguments).2 with
  | [source, target] =>
      onEach "mv" (fun tree word => do
        let origin ← tree.resolve word
        let node ← tree.lookUp word
        return ((tree.erase origin).set (← landing tree word target) node, []))
        (fun word error => s!"cannot stat '{word}': {plainly error}") [source] call
  | _ => complains "mv: missing file operand" 1 call

/-- Whether a mode lets a file be run; nothing when the mode says nothing about that. -/
def runnable? (mode : String) : Option Bool :=
  if mode.toList.all Char.isDigit then
    (digitsValue? 8 digit? mode.toList).map fun bits => bits % 2 = 1 || bits / 8 % 2 = 1 || bits / 64 % 2 = 1
  else if contains "+" mode && contains "x" mode then some true
  else if contains "-" mode && contains "x" mode then some false
  else none

def chmod : Program := fun call =>
  match call.arguments with
  | mode :: words =>
      onEach "chmod" (fun tree word => do
        let location ← tree.resolve word
        match ← tree.lookUp word, runnable? mode with
        | .file content _, some runnable => return (tree.set location (.file content runnable), [])
        | _, _ => return (tree, []))
        (fun word error => s!"cannot access '{word}': {plainly error}") words call
  | [] => complains "chmod: missing operand" 1 call

def linesOfBytes (content : Bytes) : List String := lines (decodeLossy content)

def grep : Program := fun call =>
  let (flags, words) := options call.arguments
  match words with
  | [] => complains "Usage: grep [OPTION]... PATTERNS [FILE]..." 2 call
  | pattern :: files =>
      let source := if flags.contains 'i' then "(?i)" ++ pattern else pattern
      let isFound (line : String) : Bool :=
        match if flags.contains 'F' then none else Pattern.read? source with
        | some pattern => pattern.isIn line
        | none => contains pattern line
      let input := match files with
        | [] => call.input
        | _ => files.flatMap fun file => (call.tree.read file).toOption.getD []
      let found := (linesOfBytes input).filter fun line => isFound line != flags.contains 'v'
      let status := if found.isEmpty then 1 else 0
      if flags.contains 'q' then prints [] status call
      else if flags.contains 'c' then prints (encode s!"{found.length}\n") status call
      else prints (encode (String.join (found.map (· ++ "\n")))) status call

def wc : Program := fun call =>
  let (flags, words) := options call.arguments
  let input := match words with
    | [] => call.input
    | _ => words.flatMap fun file => (call.tree.read file).toOption.getD []
  let count := if flags.contains 'c' then input.length else input.count 10
  let suffix := if words.isEmpty then "" else " " ++ " ".intercalate words
  prints (encode s!"{count}{suffix}\n") 0 call

/-- The content of files, or the input when there are none. -/
def contentOf (call : Invocation) (files : List String) : Bytes :=
  match files with
  | [] => call.input
  | _ => files.flatMap fun file => (call.tree.read file).toOption.getD []

def limitOf (unit : Char) : List String → Option (Nat × List String)
  | word :: rest =>
      match word.toList with
      | '-' :: c :: digits =>
          if c = unit && digits.isEmpty then
            match rest with
            | n :: files => (readU64? n).map fun n => (n, files)
            | [] => none
          else if c = unit then (digitsValue? 10 digit? digits).map fun n => (n, rest)
          else if unit = 'n' then (digitsValue? 10 digit? (c :: digits)).map fun n => (n, rest)
          else none
      | _ => none
  | [] => none

def ended (lines : List String) : Bytes := encode (String.join (lines.map (· ++ "\n")))

def head : Program := fun call =>
  match limitOf 'c' call.arguments with
  | some (limit, ["/dev/zero"]) => prints (List.replicate limit 0) 0 call
  | some (limit, files) => prints ((contentOf call files).take limit) 0 call
  | none =>
      let (limit, files) := (limitOf 'n' call.arguments).getD (10, call.arguments)
      prints (ended ((linesOfBytes (contentOf call files)).take limit)) 0 call

def tail : Program := fun call =>
  match limitOf 'c' call.arguments with
  | some (limit, files) =>
      let content := contentOf call files
      prints (content.drop (content.length - limit)) 0 call
  | none =>
      let (limit, files) := (limitOf 'n' call.arguments).getD (10, call.arguments)
      let lines := linesOfBytes (contentOf call files)
      prints (ended (lines.drop (lines.length - limit))) 0 call

def seq : Program := fun call =>
  let numbers (first step last : Int) : Program :=
    if step = 0 then complains "seq: invalid Zero increment value: \x270\x27" 1
    else
      let count := if 0 < step then (last - first) / step + 1 else (first - last) / (-step) + 1
      prints (ended ((List.range count.toNat).map fun (k : Nat) => toString (first + step * (k : Int)))) 0
  match call.arguments.mapM String.toInt? with
  | some [last] => numbers 1 1 last call
  | some [first, last] => numbers first 1 last call
  | some [first, step, last] => numbers first step last call
  | _ => complains "seq: missing operand" 1 call

/-- The bytes that a set of characters names: single ones, escapes and ranges. -/
def byteSet (text : String) : Bytes :=
  let rec ranges : Bytes → Bytes
    | a :: 45 :: b :: rest =>
        ((List.range (b.toNat + 1 - a.toNat)).map fun k => UInt8.ofNat (a.toNat + k)) ++ ranges rest
    | a :: rest => a :: ranges rest
    | [] => []
  ranges (unescape (text.length + 1) text.toList).1

/-- Puts the bytes of one set in the place of those of another; the last one stands for all that are
missing. With `-d` they are dropped. -/
def tr : Program := fun call =>
  match call.arguments with
  | ["-d", dropped] =>
      let set := byteSet dropped
      prints (call.input.filter fun byte => !set.contains byte) 0 call
  | [source, target] =>
      let target := byteSet target
      let change (byte : UInt8) : UInt8 :=
        match (byteSet source).idxOf? byte with
        | some index => (target[index]?).getD (target.getLast?.getD byte)
        | none => byte
      prints (call.input.map change) 0 call
  | _ => complains "tr: missing operand" 1 call

def sort : Program := fun call =>
  let (flags, files) := options call.arguments
  let lines := (linesOfBytes (contentOf call files)).mergeSort fun a b => decide (a ≤ b)
  let lines := if flags.contains 'u' then lines.eraseDups else lines
  prints (ended (if flags.contains 'r' then lines.reverse else lines)) 0 call

def milliseconds? (text : String) : Option Nat :=
  let text := if endsWith "s" text then text.toList.dropLast else text.toList
  match cutFirst? '.' text with
  | none => (digitsValue? 10 digit? text).map (· * 1000)
  | some (whole, fraction) => do
      let whole ← digitsValue? 10 digit? whole
      let fraction ← digitsValue? 10 digit? ((fraction ++ ['0', '0', '0']).take 3)
      return whole * 1000 + fraction

def sleep : Program := fun call =>
  match call.arguments.mapM milliseconds? with
  | some durations =>
      if durations.isEmpty then complains "sleep: missing operand" 1 call
      else ⟨call.tree, [], [], 0, durations.foldl (· + ·) 0⟩
  | none => complains "sleep: invalid time interval" 1 call

def pwd : Program := fun call => prints (encode (call.tree.current.toPath ++ "\n")) 0 call

def holds (tree : FileTree) : List String → Bool
  | [] => false
  | [word] => !word.isEmpty
  | ["!", word] => word.isEmpty
  | "!" :: rest => !holds tree rest
  | ["-n", word] => !word.isEmpty
  | ["-z", word] => word.isEmpty
  | [flag, path] =>
      match flag, (tree.lookUp path).toOption with
      | _, none => false
      | "-e", some _ => true
      | "-d", some .directory => true
      | "-f", some (.file ..) => true
      | "-s", some (.file content _) => !content.isEmpty
      | "-x", some (.file _ executable) => executable
      | "-x", some .directory => true
      | "-r", some _ | "-w", some _ => true
      | _, some _ => false
  | [a, "=", b] => a == b
  | [a, "!=", b] => a != b
  | [a, "-eq", b] => numberOf a == numberOf b
  | [a, "-ne", b] => numberOf a != numberOf b
  | [a, "-lt", b] => numberOf a < numberOf b
  | [a, "-le", b] => numberOf a ≤ numberOf b
  | [a, "-gt", b] => numberOf b < numberOf a
  | [a, "-ge", b] => numberOf b ≤ numberOf a
  | _ => false

def test : Program := fun call =>
  prints [] (if holds call.tree call.arguments then 0 else 1) call

def bracket : Program := fun call =>
  if call.arguments.getLast? = some "]" then test { call with arguments := call.arguments.dropLast }
  else complains "[: missing ]" 2 call

def basename : Program := fun call =>
  match call.arguments with
  | path :: _ => prints (encode ((Path.fileName? path).getD path ++ "\n")) 0 call
  | [] => complains "basename: missing operand" 1 call

def dirname : Program := fun call =>
  match call.arguments with
  | path :: _ =>
      let parent := (Path.parent? path).getD path
      prints (encode ((if parent.isEmpty then "." else parent) ++ "\n")) 0 call
  | [] => complains "dirname: missing operand" 1 call

def installed : List (String × Program) :=
  [("true", prints [] 0), ("false", prints [] 1), ("echo", echo false), ("printf", printf),
    ("cat", cat), ("ls", ls), ("mkdir", mkdir), ("touch", touch), ("rm", rm), ("cp", cp), ("mv", mv),
    ("chmod", chmod), ("grep", grep), ("wc", wc), ("head", head), ("tail", tail), ("seq", seq),
    ("tr", tr), ("sort", sort), ("sleep", sleep), ("pwd", pwd),
    ("test", test), ("[", bracket), ("basename", basename), ("dirname", dirname)]

end Program

end Graft.Machine
