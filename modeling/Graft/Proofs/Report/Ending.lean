import Graft.Proofs.Validation.Pipeline
import Graft.Proofs.Work.Archive
import Graft.Proofs.Work.Windows
import Graft.Report.Batch

/-!
What the reports of a batch say about how the work on its units ended. `ending_of_course` says in which
ways the work on a unit can end, whatever the store, the service and the validator answer;
`failures_of_reports` says that the categories of the reports tell these ways apart, and that a batch
has failures exactly when some unit of it is not accepted.
-/

namespace Graft

open Code Work

/-- How work can end: with the window that was asked for, at the last function of a window whose
variant is rejected, or at the function behind the last window, which is then no rejected one. -/
inductive UnitOutcome.Ending (outcome : UnitOutcome) : Prop
  | reached {window : WindowOutcome} (last : outcome.windows.getLast? = some window)
      (own : window.window = outcome.windowRequested) (goesOn : outcome.haltedAt = none)
  | rejected {window : WindowOutcome} (last : outcome.windows.getLast? = some window)
      (notAccepted : window.verdict.isAccepted = false)
      (halted : outcome.haltedAt = some window.window)
  | stopped (accepted : ∀ window, outcome.windows.getLast? = some window →
      window.verdict.isAccepted = true) (halted : outcome.haltedAt = some (outcome.windowReached + 1))

namespace Work

variable {settings : WorkSettings} {unit : SourceUnit} {spans : List Span}
  {previous : Option Checkpoint} {mergeBack ordinal last count : Nat} {happenings : List Happening}
  {progress after : Progress}

/-- What one window adds: an accepted variant with which the work goes on, or an end at its last
function, with a rejected variant or without any. -/
theorem window_cases
    (window : Window settings unit spans previous ordinal progress happenings (.ok after)) :
    (after.haltedAt = none ∧ ∃ variant verdict, verdict.isAccepted = true ∧
      after.windows = progress.windows ++ [⟨ordinal, variant, verdict⟩]) ∨
    (after.haltedAt = some ordinal ∧ (after.windows = progress.windows ∨
      ∃ variant verdict, verdict.isAccepted = false ∧
        after.windows = progress.windows ++ [⟨ordinal, variant, verdict⟩])) := by
  cases window with
  | noAttempt => exact .inr ⟨rfl, .inl rfl⟩
  | settled attempts settles =>
      cases settled_of_windowSettles settles with
      | @accepted _ _ variant verdict _ _ isAccepted =>
          exact .inl ⟨rfl, variant, verdict, isAccepted, rfl⟩
      | @rejected _ _ _ _ mended =>
          cases isAccepted : mended.verdict.isAccepted with
          | true => exact .inl ⟨by simp [Progress.mended, isAccepted], _, _, isAccepted, rfl⟩
          | false =>
              exact .inr ⟨by simp [Progress.mended, isAccepted], .inr ⟨_, _, isAccepted, rfl⟩⟩

/-- All windows up to the last one have grown: there is none yet, or that one is accepted. -/
inductive StandsAt (last : Nat) (progress : Progress) : Prop
  | start (zero : last = 0) (none : progress.windows = [])
  | window {window : WindowOutcome} (found : progress.windows.getLast? = some window)
      (own : window.window = last) (accepted : window.verdict.isAccepted = true)

theorem StandsAt.reached (stands : StandsAt last progress) (unit : SourceUnit) (requested : Nat) :
    (progress.outcome unit requested).windowReached = last := by
  cases stands with
  | start zero none => simp [UnitOutcome.windowReached, Progress.outcome, none, zero]
  | window found own => simp [UnitOutcome.windowReached, Progress.outcome, found, own]

theorem StandsAt.accepted (stands : StandsAt last progress) {window : WindowOutcome}
    (found : progress.windows.getLast? = some window) : window.verdict.isAccepted = true := by
  cases stands with
  | start _ none => simp [none] at found
  | window given _ accepted =>
      obtain rfl := Option.some.inj (given.symm.trans found)
      exact accepted

/-- Growing one window after the other ends in one of these ways. The induction is on the number of
windows that are left, and the window at which the work stands is carried along. -/
theorem ending_of_grows
    (grows : Grows settings unit spans previous (List.range' (last + 1) count) progress happenings
      (.ok after))
    (stands : StandsAt last progress) (goesOn : progress.haltedAt = none)
    (positive : last + count ≠ 0) :
    (after.outcome unit (last + count)).Ending := by
  induction count generalizing last progress happenings with
  | zero =>
      obtain _ | _ | _ | _ := grows
      cases stands with
      | start zero => exact absurd zero positive
      | window found own => exact .reached found own goesOn
  | succ count ih =>
      rw [List.range'_succ] at grows
      cases grows with
      | halted window halts =>
          rcases window_cases window with ⟨goesOn, -⟩ | ⟨halted, same | ⟨variant, verdict, rejected, same⟩⟩
          · exact absurd goesOn halts
          · have reached : (after.outcome unit (last + (count + 1))).windowReached = last := by
              rw [← stands.reached unit (last + (count + 1))]
              simp [UnitOutcome.windowReached, Progress.outcome, same]
            refine .stopped (fun window found => stands.accepted (same ▸ found)) ?_
            rw [reached]
            exact halted
          · have found : after.windows.getLast? = some ⟨last + 1, variant, verdict⟩ := by simp [same]
            exact .rejected found rejected halted
      | @further _ _ _ next _ _ _ window goesOn later =>
          rcases window_cases window with ⟨-, variant, verdict, accepted, same⟩ | ⟨halted, -⟩
          · have found : next.windows.getLast? = some ⟨last + 1, variant, verdict⟩ := by simp [same]
            have ends := ih later (.window found rfl accepted) goesOn (by omega)
            rwa [show last + (count + 1) = last + 1 + count by omega]
          · simp [goesOn] at halted

/-- The work on a unit ends in one of these ways, whatever it is answered. -/
theorem ending_of_course {outcome : UnitOutcome}
    (course : Course (onUnit settings unit mergeBack) happenings (.ok outcome)) :
    outcome.Ending := by
  obtain ⟨_, _, _, _, _, _, _, _, -, -, opens, grows, -, rfl, rfl⟩ := stages_of_course course
  generalize hrequested : min mergeBack unit.count = requested at opens grows ⊢
  cases opens with
  | unchanged none verdict =>
      subst none
      obtain _ | _ | _ | _ := grows
      exact .reached rfl rfl rfl
  | none some =>
      have stands : StandsAt 0 ⟨∅, ∅, [], none⟩ := .start rfl rfl
      rw [← Nat.zero_add requested] at some ⊢
      exact ending_of_grows grows stands rfl some

end Work

namespace UnitReport

inductive Tells : UnitReport → Except String UnitOutcome → Prop
  | ofOutcome {settings : WorkSettings} {unit : SourceUnit} {mergeBack : Nat}
      {happenings : List Happening} {outcome : UnitOutcome} (generatedAt : Instant) (duration : Nat)
      (files : OrdinalMap String)
      (course : Course (onUnit settings unit mergeBack) happenings (.ok outcome))
      (consistent : ∀ window ∈ outcome.windows, window.verdict.Consistent) :
      Tells (.ofOutcome generatedAt duration unit outcome files) (.ok outcome)
  | ofError (generatedAt : Instant) (unit : SourceUnit) (mergeBack : Nat) (error : String) :
      Tells (.ofError generatedAt unit mergeBack error) (.error error)

def accepts (result : Except String UnitOutcome) : Bool := result.toOption.any (·.isAccepted)

def lastVerdict? (result : Except String UnitOutcome) : Option Verdict :=
  result.toOption.bind (·.verdict?)

variable {report : UnitReport} {result : Except String UnitOutcome}

theorem accepted_of_tells (tells : report.Tells result) : report.accepted = accepts result := by
  cases tells <;> rfl

/-- A rejected verdict is one on a text that is not valid, or one on a compilation that failed. -/
theorem status_of_rejected {verdict : Verdict} (consistent : verdict.Consistent)
    (rejected : verdict.isAccepted = false) :
    verdict.status = .failedActionable ∨ verdict.status = .notAttempted := by
  cases valid : verdict.formValid with
  | false => exact .inr (consistent.1 valid)
  | true => exact .inl (by simpa [Verdict.isAccepted, valid] using rejected)

/-- An accepted verdict is one on a compilation that succeeded, or that failed for reasons outside the
text. -/
theorem status_of_accepted {verdict : Verdict} (consistent : verdict.Consistent)
    (accepted : verdict.isAccepted = true) :
    verdict.status = .succeeded ∨ verdict.status = .failedEnvironment := by
  simp only [Verdict.isAccepted, Bool.and_eq_true, bne_iff_ne, ne_eq] at accepted
  have attempted : verdict.status ≠ .notAttempted := fun status => by
    simp [consistent.2 status] at accepted
  cases status : verdict.status <;> simp_all

/-- How the category of a report follows from what the work came to. -/
structure Categorized (report : UnitReport) (result : Except String UnitOutcome) : Prop where
  failure : report.category.isFailure = true ↔ accepts result = false
  halted : report.category = .halted ↔ report.haltedAt = some (report.windowReached + 1)
  errored : report.category = .errored ↔ report.error ≠ none
  failed : report.category.isFailure = true → report.category ≠ .halted → report.error = none →
    ∃ verdict, lastVerdict? result = some verdict ∧
      ((verdict.status = .failedActionable ∧ report.category = .failedActionable) ∨
        (verdict.status = .notAttempted ∧ report.category = .notAttempted))

section Category

variable {generatedAt : Instant} {duration : Nat} {unit : SourceUnit} {outcome : UnitOutcome}
  {files : OrdinalMap String} {verdict : Verdict}

theorem category_of_rejected (found : outcome.verdict? = some verdict)
    (consistent : verdict.Consistent) (rejected : verdict.isAccepted = false) :
    (verdict.status = .failedActionable ∧
      (ofOutcome generatedAt duration unit outcome files).category = .failedActionable) ∨
    (verdict.status = .notAttempted ∧
      (ofOutcome generatedAt duration unit outcome files).category = .notAttempted) := by
  rcases status_of_rejected consistent rejected with status | status
  · exact .inl ⟨status, by simp [category, ofOutcome, CompilationSection.ofVerdict, found, status]⟩
  · exact .inr ⟨status, by simp [category, ofOutcome, CompilationSection.ofVerdict, found, status]⟩

theorem category_of_accepted (found : outcome.verdict? = some verdict)
    (consistent : verdict.Consistent) (accepted : outcome.isAccepted = true) :
    (ofOutcome generatedAt duration unit outcome files).category = .succeeded ∨
    (ofOutcome generatedAt duration unit outcome files).category = .failedEnvironment := by
  have isAccepted : verdict.isAccepted = true := by
    simp only [UnitOutcome.isAccepted, found, Option.any_some, Bool.and_eq_true] at accepted
    exact accepted.2
  rcases status_of_accepted consistent isAccepted with status | status
  · exact .inl (by simp [category, ofOutcome, CompilationSection.ofVerdict, found, status, accepted])
  · exact .inr (by simp [category, ofOutcome, CompilationSection.ofVerdict, found, status, accepted])

theorem category_of_stopped
    (accepted : ∀ verdict, outcome.verdict? = some verdict →
      verdict.isAccepted = true ∧ verdict.Consistent)
    (halted : outcome.haltedAt ≠ none) :
    (ofOutcome generatedAt duration unit outcome files).category = .halted := by
  have notAccepted : outcome.isAccepted = false := by simp [UnitOutcome.isAccepted, halted]
  cases found : outcome.verdict? with
  | none => simp [category, ofOutcome, found, halted]
  | some verdict =>
      obtain ⟨isAccepted, consistent⟩ := accepted verdict found
      rcases status_of_accepted consistent isAccepted with status | status <;>
        simp [category, ofOutcome, CompilationSection.ofVerdict, found, status, notAccepted]

theorem categorized_of_rejected (found : outcome.verdict? = some verdict)
    (consistent : verdict.Consistent) (rejected : verdict.isAccepted = false)
    (notBehind : outcome.haltedAt ≠ some (outcome.windowReached + 1)) :
    (ofOutcome generatedAt duration unit outcome files).Categorized (.ok outcome) := by
  have notAccepted : accepts (.ok outcome) = false := by
    simp [accepts, Except.toOption, UnitOutcome.isAccepted, found, rejected]
  have hcategory := @category_of_rejected generatedAt duration unit outcome files verdict found
    consistent rejected
  refine ⟨?failure, ?halted, ?errored, fun _ _ _ => ⟨verdict, found, hcategory⟩⟩
  case failure => rcases hcategory with ⟨-, h⟩ | ⟨-, h⟩ <;> simp [h, UnitCategory.isFailure, notAccepted]
  case halted =>
    have elsewhere : ¬(ofOutcome generatedAt duration unit outcome files).haltedAt =
      some ((ofOutcome generatedAt duration unit outcome files).windowReached + 1) := notBehind
    rcases hcategory with ⟨-, h⟩ | ⟨-, h⟩ <;> simp [h, elsewhere]
  case errored =>
    have noError : (ofOutcome generatedAt duration unit outcome files).error = none := rfl
    rcases hcategory with ⟨-, h⟩ | ⟨-, h⟩ <;> simp [h, noError]

theorem categorized_of_accepted (found : outcome.verdict? = some verdict)
    (consistent : verdict.Consistent) (accepted : outcome.isAccepted = true) :
    (ofOutcome generatedAt duration unit outcome files).Categorized (.ok outcome) := by
  have isAccepted : accepts (.ok outcome) = true := accepted
  have goesOn : (ofOutcome generatedAt duration unit outcome files).haltedAt = none := by
    simp only [UnitOutcome.isAccepted, Bool.and_eq_true, Option.isNone_iff_eq_none] at accepted
    exact accepted.1.1
  rcases @category_of_accepted generatedAt duration unit outcome files verdict found consistent
    accepted with h | h
  all_goals
    constructor <;> simp [h, UnitCategory.isFailure, isAccepted, goesOn]
    rfl

theorem categorized_of_stopped
    (accepted : ∀ verdict, outcome.verdict? = some verdict →
      verdict.isAccepted = true ∧ verdict.Consistent)
    (halted : outcome.haltedAt = some (outcome.windowReached + 1)) :
    (ofOutcome generatedAt duration unit outcome files).Categorized (.ok outcome) := by
  have hcategory := @category_of_stopped generatedAt duration unit outcome files accepted
    (by simp [halted])
  have notAccepted : accepts (.ok outcome) = false := by
    simp [accepts, Except.toOption, UnitOutcome.isAccepted, halted]
  have behind : (ofOutcome generatedAt duration unit outcome files).haltedAt =
    some ((ofOutcome generatedAt duration unit outcome files).windowReached + 1) := halted
  have noError : (ofOutcome generatedAt duration unit outcome files).error = none := rfl
  constructor <;> simp [hcategory, UnitCategory.isFailure, notAccepted, behind, noError]

end Category

/-- The category of a report follows from what the work came to. -/
theorem categorized_of_tells (tells : report.Tells result) : report.Categorized result := by
  cases tells with
  | ofError generatedAt unit mergeBack error =>
      constructor <;> simp [category, ofError, UnitCategory.isFailure, accepts, Except.toOption]
  | @ofOutcome _ unit _ _ outcome generatedAt duration files course consistent =>
      have lastVerdict {window : WindowOutcome} (last : outcome.windows.getLast? = some window) :
          outcome.verdict? = some window.verdict ∧ window.verdict.Consistent ∧
            outcome.windowReached = window.window :=
        ⟨by simp [UnitOutcome.verdict?, last], consistent window (List.mem_of_getLast? last),
          by simp [UnitOutcome.windowReached, last]⟩
      rcases ending_of_course course with
        @⟨window, last, own, goesOn⟩ | @⟨window, last, rejected, halted⟩ | ⟨accepted, halted⟩
      · obtain ⟨found, consistent, reached⟩ := lastVerdict last
        cases isAccepted : window.verdict.isAccepted with
        | true =>
            refine categorized_of_accepted found consistent ?_
            simp [UnitOutcome.isAccepted, goesOn, reached, own, found, isAccepted]
        | false => exact categorized_of_rejected found consistent isAccepted (by simp [goesOn])
      · obtain ⟨found, consistent, reached⟩ := lastVerdict last
        exact categorized_of_rejected found consistent rejected (by simp [halted, reached])
      · refine categorized_of_stopped (fun verdict found => ?_) halted
        obtain ⟨window, last, rfl⟩ := Option.map_eq_some_iff.1 found
        exact ⟨accepted window last, (lastVerdict last).2.1⟩

end UnitReport

namespace BatchStats

/-- Each report is counted under one category. -/
theorem sum_ofReports (reports : List UnitReport) :
    (ofReports reports).succeeded + (ofReports reports).failedEnvironment +
      (ofReports reports).failedActionable + (ofReports reports).notAttempted +
      (ofReports reports).halted + (ofReports reports).errored = (ofReports reports).units := by
  unfold ofReports
  induction reports with
  | nil => rfl
  | cons report reports ih =>
      simp only [List.map_cons, List.count_cons, List.length_cons] at ih ⊢
      cases report.category <;> simp <;> omega

/-- The accepted reports are those of the categories that are no failures. -/
theorem accepted_ofReports {reports : List UnitReport}
    (categorized : ∀ report ∈ reports, (report.category.isFailure = true ↔ report.accepted = false)) :
    (ofReports reports).accepted =
      (ofReports reports).succeeded + (ofReports reports).failedEnvironment := by
  unfold ofReports
  induction reports with
  | nil => rfl
  | cons report reports ih =>
      obtain ⟨here, later⟩ := List.forall_mem_cons.1 categorized
      have ih := ih later
      simp only [List.map_cons, List.count_cons, List.countP_cons] at ih ⊢
      cases h : report.category <;> cases ha : report.accepted <;>
        simp_all [UnitCategory.isFailure] <;> omega

end BatchStats

/-- A batch has failures exactly when not all of its units are accepted. -/
theorem BatchReport.hasFailures_ofReports {reports : List UnitReport} (generatedAt : Instant)
    (batchId : BatchId) (sourceFile model : String)
    (categorized : ∀ report ∈ reports, (report.category.isFailure = true ↔ report.accepted = false)) :
    (ofReports generatedAt batchId sourceFile model reports).hasFailures = true ↔
      (BatchStats.ofReports reports).accepted < (BatchStats.ofReports reports).units := by
  have counted : (BatchStats.ofReports reports).accepted ≤ (BatchStats.ofReports reports).units :=
    List.countP_le_length
  have all : (BatchStats.ofReports reports).accepted = (BatchStats.ofReports reports).units ↔
      ∀ report ∈ reports, report.accepted = true := List.countP_eq_length
  have any : (ofReports generatedAt batchId sourceFile model reports).hasFailures = true ↔
      ∃ report ∈ reports, report.category.isFailure = true := by
    simp [hasFailures, ofReports, UnitSummary.ofReport]
  rw [any, Nat.lt_iff_le_and_ne, and_iff_right counted, ne_eq, all]
  simp only [Classical.not_forall, Bool.not_eq_true, exists_prop]
  exact ⟨fun ⟨report, member, failure⟩ => ⟨report, member, (categorized report member).1 failure⟩,
    fun ⟨report, member, rejected⟩ => ⟨report, member, (categorized report member).2 rejected⟩⟩

/-- In the reports on a batch of units, whatever the store, the service and the validator answered, a
category is a failure exactly when the unit is not accepted; the six categories count every unit once,
the accepted ones being those that succeeded or failed for reasons outside the text; and the batch has
failures exactly when fewer units are accepted than there are. -/
theorem failures_of_reports {reports : List UnitReport}
    (tell : ∀ report ∈ reports, ∃ result, report.Tells result) (generatedAt : Instant)
    (batchId : BatchId) (sourceFile model : String) :
    let stats := BatchStats.ofReports reports
    (∀ report ∈ reports, ∀ result, report.Tells result → report.Categorized result) ∧
    stats.units = reports.length ∧
    stats.succeeded + stats.failedEnvironment + stats.failedActionable + stats.notAttempted +
      stats.halted + stats.errored = stats.units ∧
    stats.accepted = stats.succeeded + stats.failedEnvironment ∧
    ((BatchReport.ofReports generatedAt batchId sourceFile model reports).hasFailures = true ↔
      stats.accepted < stats.units) := by
  have categorized : ∀ report ∈ reports,
      (report.category.isFailure = true ↔ report.accepted = false) := by
    intro report member
    obtain ⟨result, tells⟩ := tell report member
    rw [UnitReport.accepted_of_tells tells]
    exact (UnitReport.categorized_of_tells tells).failure
  exact ⟨fun _ _ _ tells => UnitReport.categorized_of_tells tells, rfl,
    BatchStats.sum_ofReports reports, BatchStats.accepted_ofReports categorized,
    BatchReport.hasFailures_ofReports generatedAt batchId sourceFile model categorized⟩

/-- A run that comes to consistent verdicts is reported. -/
theorem UnitReport.exists_tells_of_run {ω : Type} {handler : Handler ω} {world : ω}
    {settings : WorkSettings} {unit : SourceUnit} {mergeBack : Nat} {category : UnitCategory}
    (came : ((onUnit settings unit mergeBack).run handler world).1.toOption.any (fun outcome =>
      outcome.windows.all (fun window => decide window.verdict.Consistent) &&
        (UnitReport.ofOutcome default 0 unit outcome ∅).category == category) = true) :
    ∃ report result, UnitReport.Tells report result ∧ report.category = category := by
  obtain ⟨outcome, -, course, h⟩ := course_of_run came
  simp only [Bool.and_eq_true, List.all_eq_true, decide_eq_true_eq, beq_iff_eq] at h
  exact ⟨_, _, .ofOutcome default 0 ∅ course h.1, h.2⟩

/-- A batch of a unit that is accepted, one for whose second function the service refuses after the
first was accepted, one that does not compile, one whose form is not valid, and one that failed. -/
theorem failures_of_five_units :
    ∃ reports : List UnitReport, (∀ report ∈ reports, ∃ result, report.Tells result) ∧
      reports.map (·.category) =
        [.succeeded, .halted, .failedActionable, .notAttempted, .errored] ∧
      (BatchStats.ofReports reports).accepted < (BatchStats.ofReports reports).units ∧
      (BatchReport.ofReports default default "f.c" "m" reports).hasFailures = true := by
  let unit : SourceUnit :=
    ⟨"f.c", "int f(void) { return 1; }\nint g(void) { return 2; }", ["f", "g"], 1⟩
  let settings : WorkSettings := ⟨⟨0, false, 30⟩, false, false⟩
  let archive : Archive := ⟨.empty, fun _ => none⟩
  let replies : Generation.Request → Generation.Reply := fun _ => .answer (.ok "int h(void);")
  let refuses : Generation.Request → Generation.Reply := fun request =>
    .answer (if request.ordinal = 2 then .error (.rejected "no") else .ok "int h(void);")
  let compiles (status : CompileStatus) : Variant → String → Verdict := fun _ _ =>
    .compiled [] [] .zero status ""
  obtain ⟨first, _, hfirst, firstCategory⟩ := @UnitReport.exists_tells_of_run _
    (Archive.answering replies (compiles .succeeded)) archive settings unit 2 .succeeded
    (by decide +kernel)
  obtain ⟨second, _, hsecond, secondCategory⟩ := @UnitReport.exists_tells_of_run _
    (Archive.answering refuses (compiles .succeeded)) archive settings unit 2 .halted
    (by decide +kernel)
  obtain ⟨third, _, hthird, thirdCategory⟩ := @UnitReport.exists_tells_of_run _
    (Archive.answering replies (compiles .failedActionable)) archive settings unit 2 .failedActionable
    (by decide +kernel)
  obtain ⟨fourth, _, hfourth, fourthCategory⟩ := @UnitReport.exists_tells_of_run _
    (Archive.answering replies fun _ _ => .malformed []) archive settings unit 2 .notAttempted
    (by decide +kernel)
  let fifth := UnitReport.ofError default unit 2 "no such file"
  have hfifth : fifth.Tells _ := .ofError default unit 2 "no such file"
  let reports : List UnitReport := [first, second, third, fourth, fifth]
  have tell : ∀ report ∈ reports, ∃ result, report.Tells result := by
    simp only [reports, List.forall_mem_cons, List.not_mem_nil, false_implies, implies_true, and_true]
    exact ⟨⟨_, hfirst⟩, ⟨_, hsecond⟩, ⟨_, hthird⟩, ⟨_, hfourth⟩, ⟨_, hfifth⟩⟩
  have categories : reports.map (·.category) =
      [.succeeded, .halted, .failedActionable, .notAttempted, .errored] := by
    simp only [reports, List.map_cons, List.map_nil, firstCategory, secondCategory, thirdCategory,
      fourthCategory]
    rfl
  obtain ⟨-, -, -, accepted, failures⟩ := failures_of_reports tell default default "f.c" "m"
  have units : (BatchStats.ofReports reports).units = 5 := rfl
  have succeeded : (BatchStats.ofReports reports).succeeded = 1 :=
    congrArg (List.count UnitCategory.succeeded) categories
  have failedEnvironment : (BatchStats.ofReports reports).failedEnvironment = 0 :=
    congrArg (List.count UnitCategory.failedEnvironment) categories
  have fewer : (BatchStats.ofReports reports).accepted < (BatchStats.ofReports reports).units := by
    rw [accepted, units, succeeded, failedEnvironment]
    decide
  exact ⟨reports, tell, categories, fewer, failures.2 fewer⟩

end Graft
