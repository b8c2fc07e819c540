import Graft.Proofs.Run.Pool
import Graft.Run.Batch
import Mathlib.Data.List.Forall2

/-!
The reports of a batch that is run on a bench. `report_of_runUnit` says that a unit gets the report on
what the work on it came to, with the paths at which its variants were written, and `reports_of_run`
that a batch that ends works on the trials of its plan one after the other and sums up their reports.
-/

namespace Graft

namespace Batch

variable {config : RunConfig} {setting : Bench.Setting} {unit : SourceUnit} {bench after : Bench}

/-- One change after the other gives a value if both do. -/
theorem bind_eq_ok {α β : Type} {first : Batch α} {next : α → Batch β} {value : β} :
    (first >>= next) bench = (.ok value, after) ↔
      ∃ found between, first bench = (.ok found, between) ∧
        next found between = (.ok value, after) := by
  have bound : (first >>= next) bench =
      ExceptT.bindCont next (first bench).1 (first bench).2 := rfl
  rw [bound]
  rcases first bench with ⟨_ | found, between⟩
  · exact ⟨fun h => (nomatch h), fun ⟨_, _, h, _⟩ => (nomatch h)⟩
  · exact ⟨fun h => ⟨found, between, rfl, h⟩, fun ⟨_, _, rfl, h⟩ => h⟩

theorem pure_eq_ok {α : Type} {given value : α} :
    (pure given : Batch α) bench = (.ok value, after) ↔ given = value ∧ bench = after := by
  have done : (pure given : Batch α) bench = (.ok given, bench) := rfl
  rw [done, Prod.mk.injEq, Except.ok.injEq]

theorem get_eq_ok {found : Bench} :
    (get : Batch Bench) bench = (.ok found, after) ↔ bench = found ∧ bench = after := by
  have done : (get : Batch Bench) bench = (.ok bench, bench) := rfl
  rw [done, Prod.mk.injEq, Except.ok.injEq]

theorem throw_ne_ok {α : Type} {trail : ErrorTrail} {value : α} :
    (throw trail : Batch α) bench ≠ (.ok value, after) := by
  intro h
  cases h

/-- The variants of a unit are written where reports say. -/
theorem paths_of_writeVariants {windows : List WindowOutcome} {paths : List (Nat × String)}
    (written : writeVariants unit (Path.join config.outputDirectory unit.id.name) windows bench =
      (.ok paths, after)) :
    paths = windows.map fun window => (window.window, config.outputFile unit window) := by
  induction windows generalizing bench after paths with
  | nil => exact (pure_eq_ok.1 written).1.symm
  | cons window rest ih =>
      simp only [writeVariants, bind_eq_ok, pure_eq_ok] at written
      obtain ⟨_, _, -, _, _, -, others, _, found, rfl, -⟩ := written
      rw [ih found, List.map_cons]
      rfl

def Reported (config : RunConfig) (setting : Bench.Setting) (unit : SourceUnit)
    (report : UnitReport) : Prop :=
  ∃ world generatedAt, report = config.report generatedAt 0 unit
    (Bench.run setting (Work.onUnit config.workSettings unit (config.mergeBackFor unit.count)) world).1

/-- A unit that is worked on gets the report on what the work came to. -/
theorem report_of_runUnit {report : UnitReport}
    (ran : runUnit config setting unit bench = (.ok report, after)) :
    Reported config setting unit report := by
  simp only [runUnit, bind_eq_ok, get_eq_ok] at ran
  obtain ⟨_, world, -, _, _, ⟨rfl, rfl⟩, _, _, -, ran⟩ := ran
  refine ⟨world, (Bench.run setting (Work.onUnit config.workSettings unit
    (config.mergeBackFor unit.count)) world).2.now, ?_⟩
  cases result : (Bench.run setting (Work.onUnit config.workSettings unit
      (config.mergeBackFor unit.count)) world).1 with
  | ok outcome =>
      simp only [result, bind_eq_ok, pure_eq_ok] at ran
      obtain ⟨paths, _, written, _, _, ⟨rfl, -⟩, _, _, -, rfl, -⟩ := ran
      rw [paths_of_writeVariants written]
      rfl
  | error failure =>
      simp only [result, bind_eq_ok, pure_eq_ok] at ran
      obtain ⟨_, _, ⟨rfl, -⟩, _, _, -, rfl, -⟩ := ran
      rfl

/-- The units of a batch get their reports one after the other. -/
theorem reports_of_mapM {units : List SourceUnit} {reports : List UnitReport}
    (ran : units.mapM (runUnit config setting) bench = (.ok reports, after)) :
    List.Forall₂ (Reported config setting) units reports := by
  induction units generalizing bench after reports with
  | nil =>
      rw [List.mapM_nil] at ran
      obtain ⟨rfl, -⟩ := pure_eq_ok.1 ran
      exact .nil
  | cons unit rest ih =>
      simp only [List.mapM_cons, bind_eq_ok, pure_eq_ok] at ran
      obtain ⟨report, _, first, others, _, later, rfl, -⟩ := ran
      exact .cons (report_of_runUnit first) (ih later)

/-- A batch that ends has worked on the trials of its plan and sums up the reports on them. -/
theorem reports_of_run {id : BatchId} {outcome : BatchOutcome}
    (ran : run config id setting bench = (.ok outcome, after)) :
    ∃ units generatedAt, config.check = .ok () ∧ config.plan bench.tree = .ok units ∧
      List.Forall₂ (Reported config setting) units outcome.units ∧
      outcome.report =
        .ofReports generatedAt id config.sourceFile config.model outcome.units := by
  unfold run at ran
  cases checked : config.check with
  | error failure =>
      simp only [checked, bind_eq_ok] at ran
      obtain ⟨_, _, threw, -⟩ := ran
      exact absurd threw throw_ne_ok
  | ok =>
      simp only [checked, pure_bind, bind_eq_ok, get_eq_ok] at ran
      obtain ⟨_, _, ⟨rfl, rfl⟩, ran⟩ := ran
      cases planned : config.plan bench.tree with
      | error failure =>
          simp only [planned, bind_eq_ok] at ran
          obtain ⟨_, _, threw, -⟩ := ran
          exact absurd threw throw_ne_ok
      | ok units =>
          simp only [planned, bind_eq_ok, pure_eq_ok, get_eq_ok] at ran
          obtain ⟨_, _, -, reports, _, ran, last, _, ⟨rfl, -⟩, _, _, -, _, _, -, rfl, -⟩ := ran
          exact ⟨units, _, rfl, rfl, reports_of_mapM ran, rfl⟩

end Batch

end Graft
