import Graft.Number.Fixed
import Graft.Report.BatchId
import Graft.Report.Unit

/-!
Reports on batches: a summary of each unit and how many units ended in which way.
-/

namespace Graft

open Json Number

/-- How many units of a batch ended in which way, and how many functions were repaired or given up. -/
structure BatchStats where
  units : Nat
  accepted : Nat
  succeeded : Nat
  failedEnvironment : Nat
  failedActionable : Nat
  notAttempted : Nat
  halted : Nat
  errored : Nat
  repaired : Nat
  exhausted : Nat
  meanScore : Single
  deriving Repr, DecidableEq, Inhabited

namespace BatchStats

def mean (scores : List Single) : Single :=
  if scores.isEmpty then .zero
  else scores.foldl (· + ·) .zero / .ofNat scores.length

def repairsWith (status : RepairStatus) (reports : List UnitReport) : Nat :=
  (reports.flatMap (·.repairs.values)).countP (·.status == status)

def ofReports (reports : List UnitReport) : BatchStats :=
  let ended (category : UnitCategory) : Nat := (reports.map (·.category)).count category
  { units := reports.length
    accepted := reports.countP (·.accepted)
    succeeded := ended .succeeded
    failedEnvironment := ended .failedEnvironment
    failedActionable := ended .failedActionable
    notAttempted := ended .notAttempted
    halted := ended .halted
    errored := ended .errored
    repaired := repairsWith .repaired reports
    exhausted := repairsWith .exhausted reports
    meanScore := mean (reports.filterMap (·.score?)) }

def toJson (stats : BatchStats) : Json :=
  .object [("units", nat stats.units), ("accepted", nat stats.accepted),
    ("succeeded", nat stats.succeeded), ("failed_environment", nat stats.failedEnvironment),
    ("failed_actionable", nat stats.failedActionable), ("not_attempted", nat stats.notAttempted),
    ("halted", nat stats.halted), ("errored", nat stats.errored),
    ("repaired_ordinals", nat stats.repaired), ("exhausted_ordinals", nat stats.exhausted),
    ("mean_quality_score", single stats.meanScore)]

def decode : Decoder BatchStats := record do
  return ⟨← required "units" .u64, ← required "accepted" .u64, ← required "succeeded" .u64,
    ← required "failed_environment" .u64, ← required "failed_actionable" .u64,
    ← required "not_attempted" .u64, ← defaulted "halted" .u64 0, ← required "errored" .u64,
    ← required "repaired_ordinals" .u64, ← required "exhausted_ordinals" .u64,
    ← required "mean_quality_score" .single⟩

end BatchStats

structure UnitSummary where
  unitId : String
  trial : Nat
  category : UnitCategory
  accepted : Bool
  windowReached : Nat
  mergeBackRequested : Nat
  score : Option Single
  haltedAt : Option Nat
  error : Option String
  deriving Repr, DecidableEq, Inhabited

namespace UnitSummary

def ofReport (report : UnitReport) : UnitSummary :=
  ⟨report.unitId, report.trial, report.category, report.accepted, report.windowReached,
    report.mergeBackRequested, report.score?, report.haltedAt, report.error⟩

def toJson (summary : UnitSummary) : Json :=
  .object ([("unit_id", .string summary.unitId), ("trial", nat summary.trial),
    ("category", .string summary.category.name), ("accepted", .bool summary.accepted),
    ("window_reached", nat summary.windowReached),
    ("merge_back_requested", nat summary.mergeBackRequested)] ++
    optionalMember "quality_score" single summary.score ++
    optionalMember "halted_at" nat summary.haltedAt ++
    optionalMember "error" .string summary.error)

def decode : Decoder UnitSummary := record do
  return ⟨← required "unit_id" .string, ← required "trial" .u32,
    ← required "category" (.choice UnitCategory.names), ← required "accepted" .bool,
    ← required "window_reached" .u32, ← required "merge_back_requested" .u32,
    ← optional "quality_score" .single, ← optional "halted_at" .u32, ← optional "error" .string⟩

def status (summary : UnitSummary) : String :=
  match summary.haltedAt with
  | some ordinal => s!"{summary.category.name} (halted at {ordinal})"
  | none => summary.category.name

def row (summary : UnitSummary) : String :=
  let score := match summary.score with
    | some score => score.fixed 2
    | none => "-"
  "| \x60" ++ summary.unitId ++ "\x60" ++
    s!" | {summary.trial} | {summary.windowReached}/{summary.mergeBackRequested}" ++
    s!" | {summary.status} | {score} |\n"

end UnitSummary

structure BatchReport where
  schemaVersion : String
  generatedAt : Instant
  batchId : BatchId
  sourceFile : String
  model : String
  stats : BatchStats
  units : List UnitSummary
  deriving Repr, DecidableEq, Inhabited

namespace BatchReport

def ofReports (generatedAt : Instant) (batchId : BatchId) (sourceFile model : String)
    (reports : List UnitReport) : BatchReport :=
  ⟨reportSchemaVersion, generatedAt, batchId, sourceFile, model, .ofReports reports,
    reports.map .ofReport⟩

def hasFailures (report : BatchReport) : Bool := report.units.any (·.category.isFailure)

def toJson (report : BatchReport) : Json :=
  .object [("schema_version", .string report.schemaVersion),
    ("generated_at", report.generatedAt.toJson), ("batch_id", report.batchId.toJson),
    ("source_file", .string report.sourceFile), ("llm_model", .string report.model),
    ("stats", report.stats.toJson), ("units", .array (report.units.map UnitSummary.toJson))]

def decode : Decoder BatchReport := record do
  return ⟨← required "schema_version" .string, ← required "generated_at" Instant.decode,
    ← required "batch_id" BatchId.decode, ← required "source_file" .string,
    ← required "llm_model" .string, ← required "stats" BatchStats.decode,
    ← required "units" (.list UnitSummary.decode)⟩

def markedItem (name value : String) : String := s!"- {name}: " ++ "\x60" ++ value ++ "\x60\n"

def countItem (name : String) (count : Nat) : String := s!"- {name}: {count}\n"

def summary (report : BatchReport) : String :=
  let stats := report.stats
  let table :=
    if report.units.isEmpty then ""
    else "\n## Units\n| unit | trial | window | status | quality |\n|---|---|---|---|---|\n" ++
      String.join (report.units.map UnitSummary.row)
  "# Splice Batch Summary\n\n" ++ markedItem "source" report.sourceFile ++
    markedItem "model" report.model ++ markedItem "batch" report.batchId.render ++
    "\n## Verdicts\n" ++ countItem "units" stats.units ++ countItem "accepted" stats.accepted ++
    countItem "succeeded" stats.succeeded ++
    countItem "failed (environment)" stats.failedEnvironment ++
    countItem "failed (actionable)" stats.failedActionable ++
    countItem "not attempted" stats.notAttempted ++ countItem "halted" stats.halted ++
    countItem "errored" stats.errored ++ "\n## Repair\n" ++
    countItem "repaired ordinals" stats.repaired ++ countItem "exhausted ordinals" stats.exhausted ++
    s!"- mean quality score: {stats.meanScore.fixed 2}\n" ++ table

end BatchReport

end Graft
