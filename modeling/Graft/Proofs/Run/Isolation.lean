import Graft.Proofs.Identity
import Graft.Proofs.Run.Pool
import Mathlib.Data.List.Nodup

/-!
The trials of a batch are isolated from each other. Each has an id of its own (`nodup_id_of_plan`),
under which all its things are kept, so a pool leads to where the trials come one after the other
(`leads_of_plan`), whatever comes between their actions. Putting the reports in order removes the order
in which the trials ended (`inOrder_of_perm`), and the report on the batch depends on them without their
dates only (`undated_ofReports`). `isolated` puts this together.
-/

namespace Graft

open Generation

namespace UnitReport

def precedes (report other : UnitReport) : Bool :=
  decide (report.trial < other.trial ∨ report.trial = other.trial ∧ report.unitId ≤ other.unitId)

def inOrder (reports : List UnitReport) : List UnitReport := reports.mergeSort precedes

theorem precedes_trans (a b c : UnitReport) (first : precedes a b = true)
    (second : precedes b c = true) : precedes a c = true := by
  simp only [precedes, decide_eq_true_eq] at *
  rcases first with before | ⟨same, le⟩
  · omega
  · rcases second with before | ⟨same', le'⟩
    · omega
    · exact .inr ⟨same.trans same', String.le_trans le le'⟩

theorem precedes_total (a b : UnitReport) : (precedes a b || precedes b a) = true := by
  simp only [precedes, Bool.or_eq_true, decide_eq_true_eq]
  rcases Nat.lt_trichotomy a.trial b.trial with before | same | behind
  · exact .inl (.inl before)
  · exact (String.le_total a.unitId b.unitId).imp (.inr ⟨same, ·⟩) (.inr ⟨same.symm, ·⟩)
  · exact .inr (.inl behind)

/-- Reports whose trials differ have one order, in whatever order they come. -/
theorem inOrder_of_perm {reports goal : List UnitReport}
    (perm : (reports.map undated).Perm goal) (ascending : goal.Pairwise (·.trial < ·.trial)) :
    (inOrder reports).map undated = goal := by
  have apart : (goal.map (·.trial)).Nodup :=
    List.pairwise_map.2 (ascending.imp fun less => Nat.ne_of_lt less)
  have sorted : (inOrder reports).map undated = inOrder (reports.map undated) :=
    List.map_mergeSort fun _ _ _ _ => rfl
  rw [sorted]
  refine List.Perm.eq_of_pairwise ?_ (List.pairwise_mergeSort precedes_trans precedes_total _)
    (ascending.imp fun less => decide_eq_true (.inl less)) ((List.mergeSort_perm ..).trans perm)
  intro a b listed listed' before behind
  have listed : a ∈ goal := perm.mem_iff.1 (List.mem_mergeSort.1 listed)
  have same : a.trial = b.trial := by
    simp only [precedes, decide_eq_true_eq] at before behind
    omega
  exact List.inj_on_of_nodup_map apart listed listed' same

end UnitReport

def BatchReport.undated (report : BatchReport) : BatchReport :=
  { report with generatedAt := default, batchId := default }

/-- The report on a batch does not depend on the dates of the reports on the units. -/
theorem BatchReport.undated_ofReports {reports others : List UnitReport}
    (same : reports.map UnitReport.undated = others.map UnitReport.undated)
    (now later : Instant) (id other : BatchId) (sourceFile model : String) :
    (ofReports now id sourceFile model reports).undated =
      (ofReports later other sourceFile model others).undated := by
  have stats (reports : List UnitReport) :
      BatchStats.ofReports reports = .ofReports (reports.map UnitReport.undated) := by
    simp only [BatchStats.ofReports, BatchStats.repairsWith, List.map_map, List.length_map,
      List.countP_map, List.flatMap_map, List.filterMap_map]
    rfl
  have units (reports : List UnitReport) : reports.map UnitSummary.ofReport =
      (reports.map UnitReport.undated).map UnitSummary.ofReport := by
    rw [List.map_map]
    rfl
  simp only [ofReports, undated]
  rw [stats reports, stats others, units reports, units others, same]

namespace RunConfig

variable {config : RunConfig} {tree : FileTree} {units : List SourceUnit}
  {reply : Request → Reply} {judge : Variant → String → Verdict} {archive : Archive}

/-- The trials of a batch differ in their numbers only. -/
theorem exists_of_plan (planned : config.plan tree = .ok units) : ∃ text functions,
    units = (List.range' 1 config.trials).map fun trial =>
      ⟨config.sourceFile, text, functions, trial⟩ := by
  unfold plan at planned
  cases read : tree.readText config.sourceFile with
  | error error =>
      rw [read] at planned
      cases planned
  | ok text =>
      cases selected : config.selectFunctions text with
      | error error =>
          simp only [read, selected, bind, Except.bind, Except.mapError] at planned
          cases planned
      | ok functions =>
          simp only [read, selected, bind, Except.bind, Except.mapError] at planned
          exact ⟨text, functions, (Except.ok.inj planned).symm⟩

theorem ascending_of_plan (planned : config.plan tree = .ok units) :
    units.Pairwise (·.trial < ·.trial) := by
  obtain ⟨text, functions, rfl⟩ := exists_of_plan planned
  exact List.pairwise_map.2 (List.pairwise_lt_range' ..)

/-- A configuration that is not refused lets some trial be worked on. -/
theorem parallel_of_check (checked : config.check = .ok ()) : config.parallel ≠ 0 := by
  intro none
  have fault : config.fault?.isSome := by
    unfold fault?
    simp only [none, ↓reduceIte]
    split <;> [rfl; (split <;> rfl)]
  obtain ⟨reason, found⟩ := Option.isSome_iff_exists.1 fault
  rw [check, found] at checked
  cases checked

/-- Each trial has an id of its own. -/
theorem nodup_id_of_plan (planned : config.plan tree = .ok units) :
    (units.map SourceUnit.id).Nodup :=
  List.pairwise_map.2 <| (ascending_of_plan planned).imp fun less same =>
    Nat.ne_of_lt less (SourceUnit.id_eq_iff.1 same).2.2

theorem trial_report (generatedAt : Instant) (duration : Nat) (unit : SourceUnit)
    (result : Except Failure UnitOutcome) :
    (config.report generatedAt duration unit result).trial = unit.trial := by
  cases result <;> rfl

section InTurn

variable (config : RunConfig) (reply : Request → Reply) (judge : Variant → String → Verdict)

theorem trials_inTurn (units : List SourceUnit) (archive : Archive) :
    (config.inTurn reply judge units archive).1.map (·.trial) = units.map (·.trial) := by
  induction units generalizing archive with
  | nil => rfl
  | cons unit rest ih => exact congr (congrArg List.cons (trial_report ..)) (ih _)

theorem ascending_inTurn (ascending : units.Pairwise (·.trial < ·.trial)) (archive : Archive) :
    (config.inTurn reply judge units archive).1.Pairwise (·.trial < ·.trial) :=
  List.pairwise_map.1 (config.trials_inTurn reply judge units archive ▸ List.pairwise_map.2 ascending)

theorem undated_inTurn (units : List SourceUnit) (archive : Archive) :
    (config.inTurn reply judge units archive).1.map UnitReport.undated =
      (config.inTurn reply judge units archive).1 := by
  induction units generalizing archive with
  | nil => rfl
  | cons unit rest ih =>
      rw [inTurn, List.map_cons, undated_report, ih]

end InTurn

end RunConfig

namespace Pool

variable {config : RunConfig} {tree : FileTree} {units : List SourceUnit} {pool : Pool}
  {reply : Request → Reply} {judge : Variant → String → Verdict} {archive : Archive}

/-- Whether a pool has come to what trials come to that leave an archive and reports, but for times,
durations and the name of the batch. -/
structure SameAs (config : RunConfig) (found : List UnitReport) (last : Archive) (pool : Pool) :
    Prop where
  candidates : ∀ id ordinal, pool.archive.log.texts id ordinal = last.log.texts id ordinal
  checkpoints : ∀ id, (pool.archive.checkpoints id).map Checkpoint.undated =
    (last.checkpoints id).map Checkpoint.undated
  reports : (UnitReport.inOrder pool.reports).map UnitReport.undated = found.map UnitReport.undated
  batch : ∀ now later id other,
    (BatchReport.ofReports now id config.sourceFile config.model
      (UnitReport.inOrder pool.reports)).undated =
    (BatchReport.ofReports later other config.sourceFile config.model found).undated

/-- The trials of a batch lead to where they come one after the other. -/
theorem leads_of_plan (reply : Request → Reply) (judge : Variant → String → Verdict)
    (archive : Archive) (planned : config.plan tree = .ok units) : ∃ steps,
    (start archive units).LeadsTo config reply judge (config.inTurn reply judge units archive).1
      (config.inTurn reply judge units archive).2.part steps := by
  have leads := leads_inTurn config reply judge (RunConfig.nodup_id_of_plan planned) archive
  exact ⟨_, _, rfl, by rwa [jobs, start, List.append_nil]⟩

/-- However the actions of the trials of a batch come one between the other, and in whatever order the
trials end, they come to what they come to one after the other: the candidates, the checkpoints, the
reports on the units and the report on the batch are the same. And they come to an end: something can
happen as long as a trial has not ended, and this does not go on forever. -/
theorem isolated (planned : config.plan tree = .ok units)
    (run : Relation.ReflTransGen (Step config reply judge) (start archive units) pool) :
    (pool.Done → pool.SameAs config (config.inTurn reply judge units archive).1
      (config.inTurn reply judge units archive).2) ∧
    (config.check = .ok () → ¬pool.Done → ∃ next, Step config reply judge pool next) ∧
    Acc (fun next pool => Step config reply judge pool next) pool := by
  obtain ⟨steps, leads⟩ := leads_of_plan reply judge archive planned
  obtain ⟨rest, later⟩ := leads_of_steps leads run
  refine ⟨fun done => ?_, fun checked => exists_step reply judge (RunConfig.parallel_of_check checked),
    acc_of_leadsTo later⟩
  obtain ⟨perm, parts⟩ := comes_of_done later done
  have ascending := config.ascending_inTurn reply judge (RunConfig.ascending_of_plan planned) archive
  have reports : (UnitReport.inOrder pool.reports).map UnitReport.undated =
      (config.inTurn reply judge units archive).1.map UnitReport.undated := by
    rw [RunConfig.undated_inTurn]
    exact UnitReport.inOrder_of_perm perm ascending
  exact ⟨fun id => congrFun (Archive.Part.mk.inj (parts id)).1,
    fun id => (Archive.Part.mk.inj (parts id)).2, reports,
    fun now later id other => BatchReport.undated_ofReports reports now later id other _ _⟩

/-- Two trials are worked on at once: the second one is begun first, and each takes an action before
the other goes on. -/
theorem isolated_two_trials :
    let config : RunConfig := { sourceFile := "/f.c", functions := ["f"], trials := 2, parallel := 2 }
    let text := "int f(void) { return 1; }"
    let tree : FileTree := ⟨[(["f.c"], .file (Text.encode text) false)], []⟩
    let first : SourceUnit := ⟨"/f.c", text, ["f"], 1⟩
    let second : SourceUnit := ⟨"/f.c", text, ["f"], 2⟩
    let reply : Request → Reply := fun _ => .answer (.ok "int f(void) { return 2; }")
    let judge : Variant → String → Verdict := fun _ _ => .compiled [] [] .zero .succeeded ""
    let archive : Archive := ⟨.empty, fun _ => none⟩
    let (reports, last) := config.inTurn reply judge [first, second] archive
    config.plan tree = .ok [first, second] ∧ reports.map (·.accepted) = [true, true] ∧
      ∃ both pool : Pool, both.active.map (·.unit) = [first, second] ∧
        Relation.ReflTransGen (Step config reply judge) (start archive [first, second]) both ∧
        Relation.ReflTransGen (Step config reply judge) both pool ∧ pool.Done ∧
        pool.SameAs config reports last := by
  intro config text tree first second reply judge archive
  have planned : config.plan tree = .ok [first, second] := by decide +kernel
  have begins (unit : SourceUnit) (spans : List Code.Span)
      (located : Code.locate unit.text unit.functions = .ok spans) :
      ∃ event next, config.job unit = ⟨unit, .act (.tell event) next⟩ := by
    unfold RunConfig.job Work.onUnit
    rw [located]
    exact ⟨_, _, rfl⟩
  obtain ⟨event, next, hfirst⟩ := begins first [⟨1, 0, 25⟩] (by decide +kernel)
  obtain ⟨event', next', hsecond⟩ := begins second [⟨1, 0, 25⟩] (by decide +kernel)
  let both : Pool := ⟨archive, [], [⟨first, next ()⟩, ⟨second, next' ()⟩], []⟩
  have toBoth :
      Relation.ReflTransGen (Step config reply judge) (start archive [first, second]) both := by
    have begun : Step config reply judge (start archive [first, second])
        ⟨archive, [first], [config.job second], []⟩ := .start [first] (by decide)
    have joined : Step config reply judge ⟨archive, [first], [config.job second], []⟩
        ⟨archive, [], [config.job first, config.job second], []⟩ := .start [] (by decide)
    rw [hsecond] at begun
    rw [hfirst, hsecond] at joined
    exact .head begun <| .head joined <|
      .head (.act [⟨first, _⟩] (Archive.answersBy_answering reply judge (.tell event') archive)) <|
      .head (.act [] (Archive.answersBy_answering reply judge (.tell event) archive)) .refl
  obtain ⟨steps, leads⟩ := leads_of_plan reply judge archive planned
  obtain ⟨rest, later⟩ := leads_of_steps leads toBoth
  obtain ⟨pool, toPool, done⟩ := exists_done later (by decide)
  exact ⟨planned, by decide +kernel, both, pool, rfl, toBoth, toPool, done,
    (isolated planned (toBoth.trans toPool)).1 done⟩

end Pool

end Graft
