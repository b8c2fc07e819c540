import Graft.Proofs.Work.Confined
import Graft.Report.Batch
import Graft.Run.Setup
import Mathlib.Algebra.GroupWithZero.Nat
import Mathlib.Logic.Relation

/-!
Trials that are worked on at once. A `Pool` has the trials that wait, the jobs that are under way and
the reports on those that have ended, in the order in which they ended; all share one archive. A
`Pool.Step` begins a trial while there is room, takes the next action of any job, or ends a job whose
work has come to a result. So the runs of a pool are the ways in which the actions of the trials can
come one between the other. Putting a candidate and reading it back are two of these actions
(`Work.parted`); on its own, work comes to the same in either form (`Work.run_parted`).

`Leads` is what all of them preserve: the reports that there are and those to which the jobs would
come on their own, and what the units would have then. `leads_of_step` says that a step keeps to it,
and brings the end nearer by one.
-/

namespace Graft

open Generation Hash

namespace Work

variable {α : Type} {id : UnitId}

/-- What reading back a candidate that was put with an attempt comes to. -/
def verified (unit : UnitId) (ordinal attempt : Nat) (text : String) :
    Except StoreError String → Except StoreError Nat
  | .error error => .error error
  | .ok stored =>
      if Digest.ofText stored = Digest.ofText text then .ok attempt
      else .error (.corrupt unit ordinal attempt)

/-- The work in which candidates are put and read back in two actions. To put a candidate in memory and
to put it and read it back at once are the same change with the same answer
(`CandidateLog.putVerified_eq_put`). -/
def parted : Work α → Work α
  | done value => done value
  | failed failure => failed failure
  | act (.put unit ordinal text) next => act (.put unit ordinal text) fun
      | .error error => (next (.error error)).parted
      | .ok attempt => act (.get unit ordinal attempt) fun stored =>
          (next (verified unit ordinal attempt text stored)).parted
  | act action next => act action fun answer => (next answer).parted

theorem confined_parted {work : Work α} (confined : Confined id work) :
    Confined id work.parted := by
  induction confined with
  | done value => exact .done value
  | failed failure => exact .failed failure
  | @act action next isOf dateless _ ih =>
      have later {first second : action.Answer} (alike : action.Alike first second) :
          (next first).parted = (next second).parted := congrArg parted (dateless alike)
      cases action with
      | put unit ordinal text =>
          unfold parted
          refine .act isOf (fun alike => alike ▸ rfl) fun answer => ?_
          cases answer with
          | error error => exact ih _
          | ok attempt => exact .act isOf (fun alike => alike ▸ rfl) fun _ => ih _
      | _ => exact .act isOf later ih

/-- On its own, work comes to the same when candidates are put and read back in two actions. -/
theorem run_parted (reply : Request → Reply) (judge : Variant → String → Verdict) (work : Work α)
    (archive : Archive) :
    work.parted.run (Archive.answering reply judge) archive =
      work.run (Archive.answering reply judge) archive := by
  induction work generalizing archive with
  | done value => rfl
  | failed failure => rfl
  | act action next ih =>
      cases action with
      | put unit ordinal text =>
          cases answered : (CandidateLog.store.putVerified unit ordinal text archive.log).1 with
          | error error =>
              simp only [parted, run, Archive.answering, answered]
              exact ih _ _
          | ok attempt =>
              have back : CandidateLog.store.get unit ordinal attempt
                  (archive.put unit ordinal text).log = .ok text :=
                CandidateLog.get_of_putVerified answered
              simp only [parted, run, Archive.answering, answered, back, verified, ↓reduceIte]
              exact ih _ _
      | _ => exact ih _ _

end Work

structure Job where
  unit : SourceUnit
  work : Work UnitOutcome

namespace RunConfig

/-- The job of a trial. The work of another one can come between any two of its actions. -/
def job (config : RunConfig) (unit : SourceUnit) : Job :=
  ⟨unit, (Work.onUnit config.workSettings unit (config.mergeBackFor unit.count)).parted⟩

def outputFile (config : RunConfig) (unit : SourceUnit) (window : WindowOutcome) : String :=
  Path.join (Path.join (Path.join config.outputDirectory unit.id.name) (toString window.window))
    (window.variant.fileName unit)

def report (config : RunConfig) (generatedAt : Instant) (duration : Nat) (unit : SourceUnit) :
    Except Failure UnitOutcome → UnitReport
  | .ok outcome =>
      .ofOutcome generatedAt duration unit outcome
        (.ofList (outcome.windows.map fun window => (window.window, config.outputFile unit window)))
  | .error failure => .ofError generatedAt unit (config.mergeBackFor unit.count) failure.message

end RunConfig

def UnitReport.undated (report : UnitReport) : UnitReport :=
  { report with generatedAt := default, duration := 0 }

theorem RunConfig.undated_report (config : RunConfig) (generatedAt : Instant) (duration : Nat)
    (unit : SourceUnit) (result : Except Failure UnitOutcome) :
    (config.report generatedAt duration unit result).undated = config.report default 0 unit result := by
  cases result <;> rfl

def Work.result? {α : Type} : Work α → Option (Except Failure α)
  | .done value => some (.ok value)
  | .failed failure => some (.error failure)
  | .act _ _ => none

structure Pool where
  archive : Archive
  waiting : List SourceUnit
  active : List Job
  /-- The reports on the trials that have ended, in the order in which they ended. -/
  reports : List UnitReport

namespace Pool

def start (archive : Archive) (units : List SourceUnit) : Pool := ⟨archive, units, [], []⟩

def Done (pool : Pool) : Prop := pool.waiting = [] ∧ pool.active = []

inductive Step (config : RunConfig) (reply : Request → Reply) (judge : Variant → String → Verdict) :
    Pool → Pool → Prop
  /-- A trial is begun; there are never more jobs than the configuration allows. -/
  | start {archive : Archive} (before : List SourceUnit) {behind : List SourceUnit}
      {unit : SourceUnit} {active : List Job} {reports : List UnitReport}
      (room : active.length < config.parallel) :
      Step config reply judge ⟨archive, before ++ unit :: behind, active, reports⟩
        ⟨archive, before ++ behind, config.job unit :: active, reports⟩
  /-- A job takes its next action. -/
  | act {archive after : Archive} {waiting : List SourceUnit} (before : List Job)
      {behind : List Job} {unit : SourceUnit} {action : Action} {answer : action.Answer}
      {next : action.Answer → Work UnitOutcome} {reports : List UnitReport}
      (answers : archive.AnswersBy reply judge ⟨action, answer⟩ after) :
      Step config reply judge ⟨archive, waiting, before ++ ⟨unit, .act action next⟩ :: behind, reports⟩
        ⟨after, waiting, before ++ ⟨unit, next answer⟩ :: behind, reports⟩
  /-- A job has come to a result, and its report is written. -/
  | finish {archive : Archive} {waiting : List SourceUnit} (before : List Job) {behind : List Job}
      {job : Job} {result : Except Failure UnitOutcome} {reports : List UnitReport}
      (ended : job.work.result? = some result) (generatedAt : Instant) (duration : Nat) :
      Step config reply judge ⟨archive, waiting, before ++ job :: behind, reports⟩
        ⟨archive, waiting, before ++ behind,
          reports ++ [config.report generatedAt duration job.unit result]⟩

end Pool

/-- The trials of a batch worked on one after the other; gives the reports on them and the archive
after them. -/
def RunConfig.inTurn (config : RunConfig) (reply : Request → Reply)
    (judge : Variant → String → Verdict) : List SourceUnit → Archive → List UnitReport × Archive
  | [], archive => ([], archive)
  | unit :: rest, archive =>
      let work := Work.onUnit config.workSettings unit (config.mergeBackFor unit.count)
      let (result, archive) := work.run (Archive.answering reply judge) archive
      let (reports, archive) := config.inTurn reply judge rest archive
      (config.report default 0 unit result :: reports, archive)

variable {config : RunConfig} {reply : Request → Reply} {judge : Variant → String → Verdict}
  {archive after : Archive} {job : Job} {left others : List Job} {reports goal : List UnitReport}
  {part : UnitId → Archive.Part} {actions : Nat}

namespace Job

def fate (reply : Request → Reply) (judge : Variant → String → Verdict) (archive : Archive)
    (job : Job) : Work.Fate UnitOutcome :=
  job.work.fate reply judge job.unit.id archive

def report (config : RunConfig) (reply : Request → Reply) (judge : Variant → String → Verdict)
    (archive : Archive) (job : Job) : UnitReport :=
  config.report default 0 job.unit (job.fate reply judge archive).result

theorem fate_of_ended (reply : Request → Reply) (judge : Variant → String → Verdict)
    (archive : Archive) {result : Except Failure UnitOutcome}
    (ended : job.work.result? = some result) :
    job.fate reply judge archive = ⟨result, archive.part job.unit.id, 0⟩ := by
  obtain ⟨unit, work⟩ := job
  cases work with
  | done value =>
      obtain rfl := Option.some.inj ended
      rfl
  | failed failure =>
      obtain rfl := Option.some.inj ended
      rfl
  | act action next => cases ended

/-- The job's fate depends only on what its unit has. -/
theorem fate_congr (confined : job.work.Confined job.unit.id)
    (same : after.part job.unit.id = archive.part job.unit.id) :
    job.fate reply judge after = job.fate reply judge archive := Work.fate_congr confined same

theorem map_report_congr
    (same : ∀ job ∈ left, job.fate reply judge after = job.fate reply judge archive) :
    left.map (·.report config reply judge after) =
      left.map (·.report config reply judge archive) :=
  List.map_congr_left fun job member => by rw [report, report, same job member]

/-- How many steps jobs take on their own, the one that ends each included. -/
def steps (reply : Request → Reply) (judge : Variant → String → Verdict) (archive : Archive)
    (left : List Job) : Nat :=
  (left.map fun job => (job.fate reply judge archive).actions + 1).sum

theorem steps_cons : steps reply judge archive (job :: left) =
    (job.fate reply judge archive).actions + 1 + steps reply judge archive left := by
  rw [steps, List.map_cons, List.sum_cons, steps]

theorem steps_congr
    (same : ∀ job ∈ left, job.fate reply judge after = job.fate reply judge archive) :
    steps reply judge after left = steps reply judge archive left :=
  congrArg List.sum (List.map_congr_left fun job member => by rw [same job member])

end Job

/-- Where jobs lead, of which each keeps to its unit: to the reports of a goal, in some order and but
for their dates, to what each unit has in the end, and how many steps are left to take. -/
structure Leads (config : RunConfig) (reply : Request → Reply) (judge : Variant → String → Verdict)
    (archive : Archive) (left : List Job) (reports goal : List UnitReport)
    (part : UnitId → Archive.Part) (actions : Nat) : Prop where
  apart : (left.map (·.unit.id)).Nodup
  confined : ∀ job ∈ left, job.work.Confined job.unit.id
  comes : (reports.map UnitReport.undated ++ left.map (·.report config reply judge archive)).Perm goal
  parts : ∀ job ∈ left, (job.fate reply judge archive).part = part job.unit.id
  others : ∀ id, id ∉ left.map (·.unit.id) → archive.part id = part id
  steps : Job.steps reply judge archive left = actions

namespace Leads

/-- It does not matter in which order jobs are listed. -/
theorem perm (leads : Leads config reply judge archive left reports goal part actions)
    (same : left.Perm others) : Leads config reply judge archive others reports goal part actions where
  apart := ((same.map _).nodup_iff).1 leads.apart
  confined job member := leads.confined job (same.mem_iff.2 member)
  comes := ((same.symm.map _).append_left _).trans leads.comes
  parts job member := leads.parts job (same.mem_iff.2 member)
  others id stranger := leads.others id fun member => stranger ((same.map _).mem_iff.1 member)
  steps := ((same.map _).sum_nat).symm.trans leads.steps

/-- An action of one job makes no difference to the others. -/
theorem fate_of_answers {unit : SourceUnit} {action : Action} {answer : action.Answer}
    {next : action.Answer → Work UnitOutcome}
    (leads : Leads config reply judge archive (⟨unit, .act action next⟩ :: left) reports goal part
      actions)
    (answers : archive.AnswersBy reply judge ⟨action, answer⟩ after) (member : job ∈ left) :
    job.fate reply judge after = job.fate reply judge archive := by
  have isOf : action.IsOf unit.id := by
    cases leads.confined _ List.mem_cons_self with
    | act isOf => exact isOf
  have differs : job.unit.id ≠ unit.id := fun same =>
    (List.nodup_cons.1 leads.apart).1 (List.mem_map.2 ⟨job, member, same⟩)
  exact Job.fate_congr (leads.confined job (List.mem_cons_of_mem _ member))
    (Archive.part_of_answers_of_ne isOf differs answers.1)

/-- A job that takes an action leads where it led before. -/
theorem act {unit : SourceUnit} {action : Action} {answer : action.Answer}
    {next : action.Answer → Work UnitOutcome}
    (leads : Leads config reply judge archive (⟨unit, .act action next⟩ :: left) reports goal part
      actions)
    (answers : archive.AnswersBy reply judge ⟨action, answer⟩ after) :
    ∃ rest, actions = rest + 1 ∧
      Leads config reply judge after (⟨unit, next answer⟩ :: left) reports goal part rest := by
  have own := leads.confined _ List.mem_cons_self
  obtain ⟨isOf, rest⟩ : action.IsOf unit.id ∧ ∀ answer, (next answer).Confined unit.id := by
    cases own with
    | act isOf _ rest => exact ⟨isOf, rest⟩
  have head : Job.fate reply judge archive ⟨unit, .act action next⟩ =
      (Job.fate reply judge after ⟨unit, next answer⟩).later := Work.fate_of_answers own answers
  have tail (job : Job) (member : job ∈ left) := leads.fate_of_answers answers member
  refine ⟨_, ?_, ⟨leads.apart, ?_, ?_, ?_, ?_, rfl⟩⟩
  · rw [← leads.steps, Job.steps_cons, Job.steps_cons, Job.steps_congr tail, head]
    exact Nat.add_right_comm ..
  · exact List.forall_mem_cons.2 ⟨rest answer, (List.forall_mem_cons.1 leads.confined).2⟩
  · have same : Job.report config reply judge archive ⟨unit, .act action next⟩ =
        Job.report config reply judge after ⟨unit, next answer⟩ := by
      rw [Job.report, Job.report, head, Work.Fate.later]
    have comes := leads.comes
    rwa [List.map_cons, same, ← Job.map_report_congr tail] at comes
  · obtain ⟨first, others⟩ := List.forall_mem_cons.1 leads.parts
    refine List.forall_mem_cons.2 ⟨?_, fun job member => (tail job member).symm ▸ others job member⟩
    rwa [head] at first
  · intro id stranger
    have differs : id ≠ unit.id := fun same => stranger (same ▸ List.mem_cons_self)
    exact (Archive.part_of_answers_of_ne isOf differs answers.1).trans (leads.others id stranger)

/-- A job that ends leaves the report to which it led. -/
theorem finish {result : Except Failure UnitOutcome}
    (leads : Leads config reply judge archive (job :: left) reports goal part actions)
    (ended : job.work.result? = some result) (generatedAt : Instant) (duration : Nat) :
    ∃ rest, actions = rest + 1 ∧
      Leads config reply judge archive left
        (reports ++ [config.report generatedAt duration job.unit result]) goal part rest := by
  have fate := Job.fate_of_ended reply judge archive ended
  refine ⟨_, ?_, ⟨(List.nodup_cons.1 leads.apart).2, ?_, ?_, ?_, ?_, rfl⟩⟩
  · rw [← leads.steps, Job.steps_cons, fate]
    exact Nat.add_comm ..
  · exact (List.forall_mem_cons.1 leads.confined).2
  · have written : job.report config reply judge archive =
        (config.report generatedAt duration job.unit result).undated := by
      rw [Job.report, fate, config.undated_report]
    have comes := leads.comes
    rw [List.map_cons, written] at comes
    simpa using comes
  · exact (List.forall_mem_cons.1 leads.parts).2
  · intro id stranger
    by_cases same : id = job.unit.id
    · have own := leads.parts job List.mem_cons_self
      rw [fate] at own
      rw [same]
      exact own
    · exact leads.others id (List.not_mem_cons_of_ne_of_not_mem same stranger)

end Leads

namespace Pool

variable {pool next : Pool} {units : List SourceUnit}

def jobs (config : RunConfig) (pool : Pool) : List Job := pool.waiting.map config.job ++ pool.active

def LeadsTo (config : RunConfig) (reply : Request → Reply) (judge : Variant → String → Verdict)
    (goal : List UnitReport) (part : UnitId → Archive.Part) (pool : Pool)
    (steps : Nat) : Prop :=
  ∃ actions, steps = pool.waiting.length + actions ∧
    Leads config reply judge pool.archive (pool.jobs config) pool.reports goal part actions

/-- A step leads where the pool led before, and there is one step less to take. -/
theorem leads_of_step {steps : Nat} (leads : pool.LeadsTo config reply judge goal part steps)
    (step : Step config reply judge pool next) :
    ∃ rest, steps = rest + 1 ∧ next.LeadsTo config reply judge goal part rest := by
  obtain ⟨actions, rfl, leads⟩ := leads
  cases step with
  | @start archive before behind unit active reports room =>
      have same : ((before ++ unit :: behind).map config.job ++ active).Perm
          ((before ++ behind).map config.job ++ config.job unit :: active) := by
        rw [List.map_append, List.map_append, List.map_cons]
        exact (List.perm_middle.append_right active).trans List.perm_middle.symm
      refine ⟨_, ?_, actions, rfl, leads.perm same⟩
      simp only [List.length_append, List.length_cons]
      omega
  | @act archive after waiting before behind unit action next answer reports answers =>
      have first (work : Work UnitOutcome) :
          (waiting.map config.job ++ (before ++ ⟨unit, work⟩ :: behind)).Perm
            (⟨unit, work⟩ :: (waiting.map config.job ++ (before ++ behind))) := by
        rw [← List.append_assoc, ← List.append_assoc]
        exact List.perm_middle
      obtain ⟨rest, rfl, later⟩ := (leads.perm (first _)).act answers
      exact ⟨_, rfl, rest, rfl, later.perm (first _).symm⟩
  | @finish archive waiting before behind job result reports ended generatedAt duration =>
      have first : (waiting.map config.job ++ (before ++ job :: behind)).Perm
          (job :: (waiting.map config.job ++ (before ++ behind))) := by
        rw [← List.append_assoc, ← List.append_assoc]
        exact List.perm_middle
      obtain ⟨rest, rfl, later⟩ := (leads.perm first).finish ended generatedAt duration
      exact ⟨_, rfl, rest, rfl, later⟩

theorem leads_of_steps {steps : Nat} (leads : pool.LeadsTo config reply judge goal part steps)
    (run : Relation.ReflTransGen (Step config reply judge) pool next) :
    ∃ rest, next.LeadsTo config reply judge goal part rest := by
  induction run with
  | refl => exact ⟨steps, leads⟩
  | tail _ step ih =>
      obtain ⟨count, later⟩ := ih
      obtain ⟨rest, -, last⟩ := leads_of_step later step
      exact ⟨rest, last⟩

/-- No run of a pool goes on without end. -/
theorem acc_of_leadsTo {steps : Nat} (leads : pool.LeadsTo config reply judge goal part steps) :
    Acc (fun next pool => Step config reply judge pool next) pool := by
  induction steps generalizing pool with
  | zero =>
      refine .intro pool fun next step => ?_
      obtain ⟨rest, none, -⟩ := leads_of_step leads step
      omega
  | succ steps ih =>
      refine .intro pool fun next step => ?_
      obtain ⟨rest, less, later⟩ := leads_of_step leads step
      obtain rfl : steps = rest := Nat.succ.inj less
      exact ih later

/-- As long as a trial has not ended, something can happen. -/
theorem exists_step (reply : Request → Reply) (judge : Variant → String → Verdict)
    (room : config.parallel ≠ 0) (notDone : ¬pool.Done) :
    ∃ next, Step config reply judge pool next := by
  obtain ⟨archive, waiting, active, reports⟩ := pool
  cases active with
  | cons job rest =>
      obtain ⟨unit, work⟩ := job
      cases work with
      | done value => exact ⟨_, .finish [] rfl default 0⟩
      | failed failure => exact ⟨_, .finish [] rfl default 0⟩
      | act action following =>
          exact ⟨_, .act [] (Archive.answersBy_answering reply judge action archive)⟩
  | nil =>
      cases waiting with
      | cons unit rest => exact ⟨_, .start [] (Nat.pos_of_ne_zero room)⟩
      | nil => exact absurd ⟨rfl, rfl⟩ notDone

/-- A pool can be run to the end, whatever has happened in it. -/
theorem exists_done {steps : Nat} (leads : pool.LeadsTo config reply judge goal part steps)
    (room : config.parallel ≠ 0) :
    ∃ last, Relation.ReflTransGen (Step config reply judge) pool last ∧ last.Done := by
  induction acc_of_leadsTo leads generalizing steps with
  | intro pool _ ih =>
      by_cases done : pool.Done
      · exact ⟨pool, .refl, done⟩
      · obtain ⟨next, step⟩ := exists_step reply judge room done
        obtain ⟨rest, -, later⟩ := leads_of_step leads step
        obtain ⟨last, run, done⟩ := ih next step later
        exact ⟨last, .head step run, done⟩

/-- A pool in which all trials have ended has come to where it led. -/
theorem comes_of_done {steps : Nat} (leads : pool.LeadsTo config reply judge goal part steps)
    (done : pool.Done) :
    (pool.reports.map UnitReport.undated).Perm goal ∧ ∀ id, pool.archive.part id = part id := by
  obtain ⟨actions, -, leads⟩ := leads
  have none : pool.jobs config = [] := by rw [jobs, done.1, done.2]; rfl
  rw [none] at leads
  exact ⟨by simpa using leads.comes, fun id => leads.others id List.not_mem_nil⟩

end Pool

section InTurn

variable {units : List SourceUnit}

theorem confined_job (config : RunConfig) (unit : SourceUnit) :
    (config.job unit).work.Confined unit.id :=
  Work.confined_parted (Work.confined_onUnit config.workSettings _)

/-- The first trial is worked on as its job would be on its own, the others after it. -/
theorem inTurn_cons (config : RunConfig) (reply : Request → Reply)
    (judge : Variant → String → Verdict) (archive : Archive) (unit : SourceUnit)
    (rest : List SourceUnit) : ∃ after,
    (config.inTurn reply judge (unit :: rest) archive =
      ((config.job unit).report config reply judge archive ::
        (config.inTurn reply judge rest after).1, (config.inTurn reply judge rest after).2)) ∧
    after.part unit.id = ((config.job unit).fate reply judge archive).part ∧
    ∀ id ≠ unit.id, after.part id = archive.part id := by
  have parted := Work.run_parted reply judge
    (Work.onUnit config.workSettings unit (config.mergeBackFor unit.count)) archive
  refine ⟨((config.job unit).work.run (Archive.answering reply judge) archive).2, ?_, rfl, ?_⟩
  · rw [RunConfig.inTurn, ← parted]
    rfl
  · exact fun id differs => Work.part_run_of_ne (confined_job config unit) differs archive

/-- Trials of which each has an id of its own lead to where they come one after the other. -/
theorem leads_inTurn (config : RunConfig) (reply : Request → Reply)
    (judge : Variant → String → Verdict) (apart : (units.map SourceUnit.id).Nodup)
    (archive : Archive) :
    Leads config reply judge archive (units.map config.job) []
      (config.inTurn reply judge units archive).1 (config.inTurn reply judge units archive).2.part
      (Job.steps reply judge archive (units.map config.job)) := by
  induction units generalizing archive with
  | nil => exact ⟨.nil, by simp, .nil, by simp, fun _ _ => rfl, rfl⟩
  | cons unit rest ih =>
      obtain ⟨after, same, own, frame⟩ := inTurn_cons config reply judge archive unit rest
      obtain ⟨fresh, apart⟩ := List.nodup_cons.1 apart
      have leads := ih apart after
      have stranger {id : UnitId} : id ∉ (rest.map config.job).map (·.unit.id) ↔
          id ∉ rest.map SourceUnit.id := by
        rw [List.map_map]
        rfl
      have tail : ∀ job ∈ rest.map config.job,
          job.fate reply judge after = job.fate reply judge archive := by
        intro job member
        obtain ⟨other, listed, rfl⟩ := List.mem_map.1 member
        have differs : other.id ≠ unit.id := fun same =>
          fresh (same ▸ List.mem_map_of_mem listed)
        exact Job.fate_congr (confined_job config other) (frame other.id differs)
      rw [same]
      refine ⟨?_, ?_, ?_, ?_, ?_, rfl⟩
      · exact List.nodup_cons.2 ⟨stranger.2 fresh, leads.apart⟩
      · exact List.forall_mem_cons.2 ⟨confined_job config unit, leads.confined⟩
      · have comes := leads.comes
        rw [Job.map_report_congr tail] at comes
        exact comes.cons _
      · refine List.forall_mem_cons.2 ⟨?_, fun job member => tail job member ▸ leads.parts job member⟩
        exact own.symm.trans (leads.others unit.id (stranger.2 fresh))
      · intro id away
        obtain ⟨differs, away⟩ := List.ne_and_not_mem_of_not_mem_cons away
        exact (frame id differs).symm.trans (leads.others id away)

end InTurn

end Graft
