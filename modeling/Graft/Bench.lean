import Graft.Generation.Completion
import Graft.Generation.Script
import Graft.Store.Files
import Graft.Store.Log
import Graft.Validation.Fixed
import Graft.Validation.Pipeline
import Graft.Work.Windows

/-!
A bench on which work can be run: files, a store in memory or in files, a service that answers from a
script or over the net, and a validator that goes by rules or compiles.
-/

namespace Graft

open Generation

/-- All that work on a bench can change. -/
structure Bench where
  tree : FileTree
  log : CandidateLog
  tools : ToolScript
  script : Script
  /-- The only server that can be reached. -/
  server : Option Http.Server
  /-- How often a validator that goes by rules was asked. -/
  validations : Nat
  /-- What the observer was told so far. -/
  events : List Event
  now : Instant
  deriving Inhabited

namespace Bench

def memoryStore : CandidateStore Bench :=
  CandidateLog.store.within Bench.log fun bench log => { bench with log }

def fileStore (base : String) : CandidateStore Bench :=
  (CandidateFiles.store base).within Bench.tree fun bench tree => { bench with tree }

def tell (events : List Event) : StateM Bench Unit :=
  modify fun bench => { bench with events := bench.events ++ events }

def inWorkshop (action : StateM (Workshop ToolScript) α) : StateM Bench α := fun bench =>
  let (value, shop) := action ⟨bench.tree, bench.tools⟩
  (value, { bench with tree := shop.tree, tools := shop.tools })

inductive Validator where
  | byRules (rules : VerdictRules)
  | byStages (pipeline : Pipeline ToolScript)

def Validator.validate (variant : Variant) (fileName : String) : Validator → StateM Bench Verdict
  | .byRules rules => do
      modify fun bench => { bench with validations := bench.validations + 1 }
      return rules.verdict variant
  | .byStages pipeline => do
      let (verdict, events) ← inWorkshop (pipeline.validate variant fileName)
      tell events
      return verdict

def askScript (request : Request) : StateM Bench Reply := fun bench =>
  let (reply, script) := bench.script.next request
  (reply, { bench with script })

def askServer (client : Client) (request : Request) : StateM Bench Reply := fun bench =>
  let (result, server) := client.ask request bench.server
  (.answer result, { bench with server })

structure Setting where
  store : CandidateStore Bench
  ask : Request → StateM Bench Reply
  validator : Validator
  /-- The directory of the checkpoints. -/
  checkpoints : String

def handler (setting : Setting) : Work.Handler Bench
  | .put unit ordinal text => fun bench => setting.store.putVerified unit ordinal text bench
  | .get unit ordinal attempt => fun bench => (setting.store.get unit ordinal attempt bench, bench)
  | .attempts unit ordinal => fun bench => (setting.store.attempts unit ordinal bench, bench)
  | .ask request => setting.ask request
  | .validate variant fileName => setting.validator.validate variant fileName
  | .loadCheckpoint unit => fun bench =>
      (Checkpoint.load setting.checkpoints unit bench.tree, bench)
  | .saveCheckpoint unit selection repairs => fun bench =>
      let checkpoint : Checkpoint := ⟨unit, selection, repairs, bench.now⟩
      let (result, tree) := Checkpoint.save setting.checkpoints checkpoint bench.tree
      (result.map fun _ => (), { bench with tree })
  | .tell event => tell [event]

def run (setting : Setting) (work : Work α) (bench : Bench) : Except Failure α × Bench :=
  work.run (handler setting) bench

end Bench

end Graft
