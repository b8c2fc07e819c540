import Graft.Cli.Session
import Std.Time.DateTime.Timestamp

/-!
The program. It sees the files below the directory in which it starts and those that its command line
names; what the command changes among them is written back when it is done. No service can be reached
from here.
-/

namespace Graft

/-- The tree with the files below a directory, whose entries are given. -/
partial def gather (entries : Array IO.FS.DirEntry) (location : Location) (tree : FileTree) :
    IO FileTree := do
  let mut tree := tree
  for entry in entries do
    let inner := location ++ [entry.fileName]
    if ← entry.path.isDir then
      tree ← gather (← entry.path.readDir) inner (tree.set inner .directory)
    else if ← entry.path.pathExists then
      tree := tree.set inner (.file (← IO.FS.readBinFile entry.path).data.toList false)
  return tree

def addNamed (tree : FileTree) (word : String) : IO FileTree := do
  try
    let content ← IO.FS.readBinFile word
    return if tree.hasPath word then tree else tree.plant word content.data.toList
  catch _ => return tree

def writeChanges (before after : FileTree) : IO Unit := do
  for (location, node) in after.nodes.reverse do
    if before.node? location != some node then
      match node with
      | .directory => IO.FS.createDirAll location.toPath
      | .file content _ =>
          IO.FS.createDirAll (Location.toPath location.dropLast)
          IO.FS.writeBinFile location.toPath ⟨content.toArray⟩
  for (location, node) in before.nodes do
    if (after.node? location).isNone then
      match node with
      | .file .. => IO.FS.removeFile location.toPath
      | .directory => pure ()

def presentTime : IO Instant := do
  let since := (← Std.Time.Timestamp.now).toDurationSinceUnixEpoch
  return ⟨since.second.toInt, since.nano.toInt.toNat⟩

def newBatchId : IO BatchId := do
  let bytes := (← IO.getRandomBytes 16).data.toList
  let digits := bytes.flatMap fun byte => [Text.hexDigit (byte.toNat / 16), Text.hexDigit (byte.toNat % 16)]
  return ⟨(digits.set 12 '4').set 16 'a'⟩

end Graft

open Graft in
def main (words : List String) : IO UInt32 := do
  let directory ← IO.currentDir
  let start := FileTree.empty (Path.parts directory.toString)
  let before ← gather (← directory.readDir) start.current start
  let before ← words.foldlM addNamed before
  let mut environment := []
  for name in ["SPLICE_MODEL", "SPLICE_API_KEY"] do
    if let some value ← IO.getEnv name then environment := environment ++ [(name, value)]
  let bench : Bench :=
    { tree := before.set ["tmp"] .directory, log := .empty, tools := .ofResults []
      script := ⟨[], none, []⟩, server := none, validations := 0, events := []
      now := ← presentTime }
  let (ending, bench) := Cli.execute (← newBatchId) environment words bench
  writeChanges (before.set ["tmp"] .directory) bench.tree
  IO.print ending.output
  (← IO.getStderr).putStr ending.errors
  return ending.exitCode.toUInt32
