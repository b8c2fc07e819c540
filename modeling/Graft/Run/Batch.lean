import Graft.Bench
import Graft.ErrorTrail
import Graft.Report.Batch
import Graft.Run.Setup

/-!
Running a batch: the work on each trial in turn, with its variants and its report written below the
output directory, and then the report on the whole. A unit that fails is reported and does not keep
the others from being worked on; files that cannot be written end the batch.
-/

namespace Graft

structure BatchOutcome where
  report : BatchReport
  /-- The reports on the units, in the order of the trials. -/
  units : List UnitReport
  /-- The path of the report. -/
  path : String

abbrev Batch := ExceptT ErrorTrail (StateM Bench)

namespace Batch

/-- Goes on with the files that an operation leaves, or ends because it fails. -/
def files (doing : String) (operation : FileTree → Except FileError FileTree) : Batch Unit := do
  let bench ← get
  match operation bench.tree with
  | .ok tree => set { bench with tree }
  | .error error => throw ((ErrorTrail.ofFileError error).stopping doing)

def makeDirectory (path : String) : Batch Unit :=
  files s!"create {Path.quoted path}" (·.makeDirectories path)

def write (path text : String) : Batch Unit :=
  files s!"write {Path.quoted path}" (·.writeText path text)

/-- Writes the variants of a unit, each into a directory for its window, and gives their paths. -/
def writeVariants (unit : SourceUnit) (directory : String) :
    List WindowOutcome → Batch (List (Nat × String))
  | [] => return []
  | window :: rest => do
      let inner := Path.join directory (toString window.window)
      makeDirectory inner
      let path := Path.join inner (window.variant.fileName unit)
      write path window.variant.text
      return (window.window, path) :: (← writeVariants unit directory rest)

/-- Works on a unit and writes what came of it. -/
def runUnit (config : RunConfig) (setting : Bench.Setting) (unit : SourceUnit) :
    Batch UnitReport := do
  let directory := Path.join config.outputDirectory unit.id.name
  makeDirectory directory
  let mergeBack := config.mergeBackFor unit.count
  let (result, bench) := Bench.run setting (Work.onUnit config.workSettings unit mergeBack) (← get)
  set bench
  let report ← match result with
    | .ok outcome => do
        let paths ← writeVariants unit directory outcome.windows
        pure (UnitReport.ofOutcome bench.now 0 unit outcome (.ofList paths))
    | .error failure => pure (UnitReport.ofError bench.now unit mergeBack failure.message)
  write (Path.join directory "report.json") report.toJson.pretty
  return report

def run (config : RunConfig) (id : BatchId) (setting : Bench.Setting) : Batch BatchOutcome := do
  match config.check with
  | .ok _ => pure ()
  | .error failure => throw ((ErrorTrail.ofFailure failure).stopping "invalid run configuration")
  let units ← match config.plan (← get).tree with
    | .ok units => pure units
    | .error failure =>
        throw ((ErrorTrail.ofFailure failure).stopping
          s!"plan units for {Path.quoted config.sourceFile}")
  makeDirectory config.outputDirectory
  let reports ← units.mapM (runUnit config setting)
  let report := BatchReport.ofReports (← get).now id config.sourceFile config.model reports
  let path := Path.join config.outputDirectory "batch.json"
  write path report.toJson.pretty
  write (Path.join config.outputDirectory "batch.md") report.summary
  return ⟨report, reports, path⟩

end Batch

end Graft
