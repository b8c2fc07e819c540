import Graft.Proofs.Work.Budget
import Graft.Proofs.Work.Tried

/-!
What a request for a repair goes back to. `Throughout` is a statement about each happening and what
happened before it, and `Grounded` the one about requests: the variant that was judged last was
rejected, the request is for the last function of it, and tells the candidate that it has for this
function and why it was rejected. `repair_requests_grounded` says so of every run over an archive that
earlier runs left.
-/

namespace Graft

open Code Generation

namespace Work

def judged? : Happening → Option (Variant × Verdict)
  | ⟨.validate variant _, verdict⟩ => some (variant, verdict)
  | _ => none

def lastJudged? (happenings : List Happening) : Option (Variant × Verdict) :=
  (happenings.filterMap judged?).getLast?

theorem lastJudged?_append {happenings rest : List Happening}
    (none : ∀ happening ∈ rest, judged? happening = none) :
    lastJudged? (happenings ++ rest) = lastJudged? happenings := by
  have quiet : rest.filterMap judged? = [] := List.filterMap_eq_nil_iff.2 none
  unfold lastJudged?
  rw [List.filterMap_append, quiet, List.append_nil]

theorem lastJudged?_validate (happenings : List Happening) (variant : Variant) (fileName : String)
    (verdict : Verdict) :
    lastJudged? (happenings ++ [⟨.validate variant fileName, verdict⟩]) = some (variant, verdict) := by
  unfold lastJudged?
  rw [List.filterMap_append]
  simp [judged?]

/-- What was judged last was judged. -/
theorem mem_of_lastJudged? {happenings : List Happening} {variant : Variant} {verdict : Verdict}
    (h : lastJudged? happenings = some (variant, verdict)) :
    ∃ fileName, ⟨.validate variant fileName, verdict⟩ ∈ happenings := by
  have member := List.mem_of_getLast? h
  obtain ⟨⟨action, answer⟩, hmember, hjudged⟩ := List.mem_filterMap.1 member
  cases action with
  | validate judged fileName =>
      obtain ⟨rfl, rfl⟩ := Prod.mk.inj (Option.some.inj hjudged)
      exact ⟨fileName, hmember⟩
  | _ => cases hjudged

inductive Throughout (p : List Happening → Happening → Prop) :
    List Happening → List Happening → Prop
  | nil {earlier : List Happening} : Throughout p earlier []
  | cons {earlier rest : List Happening} {happening : Happening} (now : p earlier happening)
      (later : Throughout p (earlier ++ [happening]) rest) :
      Throughout p earlier (happening :: rest)

section Throughout

variable {p : List Happening → Happening → Prop} {earlier first rest : List Happening}

theorem throughout_append_iff : Throughout p earlier (first ++ rest) ↔
    Throughout p earlier first ∧ Throughout p (earlier ++ first) rest := by
  induction first generalizing earlier with
  | nil => simp [Throughout.nil]
  | cons happening others ih =>
      constructor
      · rintro ⟨⟩
        next now later =>
          obtain ⟨hothers, hrest⟩ := ih.1 later
          exact ⟨.cons now hothers, by simpa using hrest⟩
      · rintro ⟨hfirst, hrest⟩
        cases hfirst with
        | cons now hothers => exact .cons now (ih.2 ⟨hothers, by simpa using hrest⟩)

/-- What holds throughout holds wherever what happens is divided. -/
theorem Throughout.of_split {before later : List Happening} {happening : Happening}
    (h : Throughout p earlier (before ++ happening :: later)) : p (earlier ++ before) happening := by
  cases (throughout_append_iff.1 h).2 with
  | cons now _ => exact now

theorem throughout_of_forall {happenings : List Happening}
    (h : ∀ happening ∈ happenings, ∀ earlier, p earlier happening) :
    Throughout p earlier happenings := by
  induction happenings generalizing earlier with
  | nil => exact .nil
  | cons happening rest ih =>
      obtain ⟨hhead, htail⟩ := List.forall_mem_cons.1 h
      exact .cons (hhead earlier) (ih htail)

end Throughout

/-- What a request for a repair goes back to: the variant that was judged last, which was rejected. The
request is for the last function of this variant, tells the candidate that the variant has for it, as it
was read from the store, and the reason of the verdict. -/
def Grounded (unit : UnitId) (earlier : List Happening) (request : Request) : Prop :=
  ∃ variant verdict attempt prior, lastJudged? earlier = some (variant, verdict) ∧
    verdict.isAccepted = false ∧ Selection.window variant.provenance = request.ordinal ∧
    variant.provenance.get? request.ordinal = some attempt ∧
    ⟨.get unit request.ordinal attempt, .ok prior⟩ ∈ earlier ∧ request.unitId = unit ∧
    request.priorAttempt = some prior ∧ request.failureReason = some verdict.failureReason

/-- That a happening is no request for a repair, or one that goes back to what happened before it. -/
def AsksGrounded (unit : UnitId) (earlier : List Happening) (happening : Happening) : Prop :=
  ∀ request, happening.1.request? = some request → request.isRepair = true →
    Grounded unit earlier request

variable {policy : Policy} {settings : WorkSettings} {unit : SourceUnit} {spans : List Span}
  {happenings earlier : List Happening} {previous : Option Checkpoint}

/-- What holds of all that is told, loaded, judged and saved around the windows, and throughout the
windows, holds throughout a run. -/
theorem throughout_of_runs {p : List Happening → Happening → Prop} {mergeBack : Nat}
    {result : Except Failure UnitOutcome} (runs : Runs settings unit mergeBack happenings result)
    (tells : ∀ before event, p before (told event))
    (loads : ∀ before answer, settings.useCache = true →
      p before ⟨.loadCheckpoint unit.id, answer⟩)
    (opens : ∀ before fileName verdict, p before ⟨.validate (.unchanged unit) fileName, verdict⟩)
    (saves : ∀ before selection repairs answer,
      p before ⟨.saveCheckpoint unit.id selection repairs, answer⟩)
    (grows : ∀ {spans loading opening growing closing previous windows grown before},
      happenings = told (.unitStarted unit.id unit.count (min mergeBack unit.count)) ::
        (loading ++ opening ++ growing ++ closing) →
      Loads settings unit loading (.ok previous) →
      Opens unit (min mergeBack unit.count) opening windows →
      Grows settings unit spans previous (List.range' 1 (min mergeBack unit.count))
        ⟨∅, ∅, windows, none⟩ growing grown →
      Throughout p before growing) :
    Throughout p earlier happenings := by
  have loading {before first : List Happening} {found : Except Failure (Option Checkpoint)}
      (loaded : Loads settings unit first found) : Throughout p before first := by
    cases loaded with
    | unused => exact .nil
    | loaded kept => exact .cons (loads _ _ (Bool.and_eq_true_iff.1 kept).2) .nil
  have saving {before last : List Happening} {progress : Progress} {found : Except Failure Unit}
      (saved : Saves settings unit progress last found) : Throughout p before last := by
    cases saved with
    | unkept => exact .nil
    | saved => exact .cons (saves _ _ _ _) .nil
  cases runs with
  | notLocated => exact .nil
  | notLoaded located loaded => exact .cons (tells _ _) (loading loaded)
  | loaded located loaded opened grown closes =>
      refine .cons (tells _ _) (throughout_append_iff.2 ⟨throughout_append_iff.2
        ⟨throughout_append_iff.2 ⟨loading loaded, ?_⟩, grows rfl loaded opened grown⟩, ?_⟩)
      · cases opened with
        | unchanged => exact .cons (opens _ _ _) (.cons (tells _ _) .nil)
        | none => exact .nil
      · cases closes with
        | notGrown => exact .nil
        | notSaved saved => exact saving saved
        | finished saved => exact throughout_append_iff.2 ⟨saving saved, .cons (tells _ _) .nil⟩

theorem grounded_of_no_repair {id : UnitId}
    (noRepair : ∀ request ∈ asked happenings, request.isRepair = false) :
    Throughout (AsksGrounded id) earlier happenings := by
  apply throughout_of_forall
  intro happening member _ request hrequest repair
  have sent : request ∈ asked happenings := List.mem_filterMap.2 ⟨happening, member, hrequest⟩
  simp [noRepair request sent] at repair

theorem grounded_of_asked_eq_nil {id : UnitId} (quiet : asked happenings = []) :
    Throughout (AsksGrounded id) earlier happenings :=
  grounded_of_no_repair (by simp [quiet])

/-- A call of a repair goes back to the variant that the repair works on. -/
theorem grounded_of_called (unit : SourceUnit) (spans : List Span) {last : Nat} {mending : Mending}
    (prior : String) (reply : Reply)
    (h : mending.At last) (failing : mending.Failing) (tried : mending.Tried)
    (judged : lastJudged? earlier = some (mending.variant, mending.verdict)) :
    Throughout (AsksGrounded unit.id) earlier (called unit spans mending prior reply) := by
  let request := mending.request unit spans prior
  let asking : Happening := ⟨.ask request, reply⟩
  let preparing : List Happening :=
    [told (.repairRequested unit.id mending.state.ordinal mending.state.beginCall.consumed
        mending.state.budget),
      ⟨.get unit.id mending.state.ordinal mending.state.lastTried, .ok prior⟩]
  have quiet : ∀ happening ∈ preparing, judged? happening = none := by
    simp [preparing, told, judged?]
  have unasked : asked preparing = [] := rfl
  have stays : lastJudged? (earlier ++ preparing) = some (mending.variant, mending.verdict) := by
    rw [lastJudged?_append quiet, judged]
  have grounded : Grounded unit.id (earlier ++ preparing) request := by
    refine ⟨mending.variant, mending.verdict, mending.state.lastTried, prior, stays,
      failing.rejected, ?_, ?_, ?_, rfl, rfl, rfl⟩
    · rw [failing.provenance, Selection.window_eq h.selected]
      exact h.ordinal.symm
    · rw [failing.provenance]
      exact tried
    · exact List.mem_append_right _ (List.mem_cons_of_mem _ List.mem_cons_self)
  have asks : AsksGrounded unit.id (earlier ++ preparing) asking := by
    intro other sent _
    obtain rfl := Option.some.inj sent
    exact grounded
  have all : Throughout (AsksGrounded unit.id) earlier (preparing ++ [asking]) :=
    throughout_append_iff.2 ⟨grounded_of_asked_eq_nil unasked, .cons asks .nil⟩
  exact all

/-- What is asked behind a verdict may go back to it. -/
theorem grounded_of_judged {id : UnitId} {trying rest : List Happening} {variant : Variant}
    {fileName : String} {verdict : Verdict}
    (now : Throughout (AsksGrounded id) earlier trying)
    (later : ∀ before, lastJudged? before = some (variant, verdict) →
      Throughout (AsksGrounded id) before rest) :
    Throughout (AsksGrounded id) earlier
      (trying ++ ⟨.validate variant fileName, verdict⟩ :: toldVerdict unit variant verdict :: rest) := by
  let judging : List Happening :=
    [⟨.validate variant fileName, verdict⟩, toldVerdict unit variant verdict]
  have unasked : asked judging = [] := rfl
  have last : lastJudged? (earlier ++ trying ++ judging) = some (variant, verdict) := by
    have quiet : ∀ happening ∈ [toldVerdict unit variant verdict], judged? happening = none := by
      simp [toldVerdict, told, judged?]
    have split : earlier ++ trying ++ judging = earlier ++ trying ++
        [⟨.validate variant fileName, verdict⟩] ++ [toldVerdict unit variant verdict] := by
      simp [judging]
    rw [split, lastJudged?_append quiet, lastJudged?_validate]
  have behind : Throughout (AsksGrounded id) (earlier ++ trying) (judging ++ rest) :=
    throughout_append_iff.2 ⟨grounded_of_asked_eq_nil unasked, later _ last⟩
  exact throughout_append_iff.2 ⟨now, behind⟩

/-- The calls of a repair go back to the variant that was judged last: the one that the repair began
with, or the one that a call before made. -/
theorem grounded_of_mendCalls {last remaining : Nat} {mending : Mending}
    {result : Except Failure Mending}
    (calls : MendCalls policy unit spans remaining mending happenings result)
    (h : mending.At last) (failing : mending.Failing) (tried : mending.Tried)
    (judged : lastJudged? earlier = some (mending.variant, mending.verdict)) :
    Throughout (AsksGrounded unit.id) earlier happenings := by
  -- On the calls; what happened before a call says which variant it works on.
  induction calls generalizing earlier with
  | spent => exact grounded_of_asked_eq_nil rfl
  | priorMissing => exact grounded_of_asked_eq_nil rfl
  | @rejected _ mending prior reply _ taken =>
      have asks := grounded_of_called unit spans prior reply h failing tried judged
      exact throughout_append_iff.2 ⟨asks, grounded_of_asked_eq_nil rfl⟩
  | @unanswered _ mending prior reply _ _ _ _ taken herror later ih =>
      have asks := grounded_of_called unit spans prior reply h failing tried judged
      refine throughout_append_iff.2 ⟨asks, .cons (by simp [AsksGrounded, told, Action.request?]) ?_⟩
      apply ih (h.unanswered _) ⟨failing.provenance, failing.rejected⟩ tried
      rw [List.append_assoc, lastJudged?_append (by simp [called, told, judged?]), judged]
      rfl
  | @notStored _ mending prior reply _ error taken =>
      have asks := grounded_of_called unit spans prior reply h failing tried judged
      exact throughout_append_iff.2 ⟨asks, grounded_of_asked_eq_nil rfl⟩
  | @notMerged _ mending prior reply _ attempt _ _ taken merges =>
      have asks := grounded_of_called unit spans prior reply h failing tried judged
      have unasked := (cost_of_merges merges (h.keys_select attempt)).1
      refine throughout_append_iff.2 ⟨throughout_append_iff.2 ⟨asks, ?_⟩, ?_⟩
      · exact grounded_of_asked_eq_nil rfl
      · exact grounded_of_asked_eq_nil unasked
  | @accepted _ mending prior reply _ attempt _ _ _ taken merges isAccepted =>
      have asks := grounded_of_called unit spans prior reply h failing tried judged
      have unasked := (cost_of_merges merges (h.keys_select attempt)).1
      refine grounded_of_judged (throughout_append_iff.2 ⟨throughout_append_iff.2 ⟨asks, ?_⟩, ?_⟩) ?_
      · exact grounded_of_asked_eq_nil rfl
      · exact grounded_of_asked_eq_nil unasked
      · exact fun _ _ => grounded_of_asked_eq_nil rfl
  | @stillFailing _ mending prior reply _ attempt _ _ variant verdict _ taken merges notAccepted
      later ih =>
      have asks := grounded_of_called unit spans prior reply h failing tried judged
      have unasked := (cost_of_merges merges (h.keys_select attempt)).1
      have provenance := ((concerns_of_merges merges (h.keys_select attempt)).2 _ rfl).2
      refine grounded_of_judged (throughout_append_iff.2 ⟨throughout_append_iff.2 ⟨asks, ?_⟩, ?_⟩) ?_
      · exact grounded_of_asked_eq_nil rfl
      · exact grounded_of_asked_eq_nil unasked
      · intro before hjudged
        have selected : (mending.stillFailing attempt variant verdict).Tried :=
          OrdinalMap.get?_insert_self _ _ _
        exact ih (h.stillFailing attempt _ _) ⟨provenance, notAccepted⟩ selected hjudged

theorem grounded_of_mends {last : Nat} {mending : Mending} {result : Except Failure Mending}
    (mends : Mends policy unit spans mending happenings result) (h : mending.At last)
    (failing : mending.Failing) (tried : mending.Tried)
    (judged : lastJudged? earlier = some (mending.variant, mending.verdict)) :
    Throughout (AsksGrounded unit.id) earlier happenings := by
  cases mends with
  | unwanted => exact grounded_of_asked_eq_nil rfl
  | wanted fix calls => exact grounded_of_mendCalls calls h failing tried judged

/-- What a window asks for goes back to the variant of it that was judged last. -/
theorem grounded_of_windowSettles {last attempt : Nat} {progress : Progress}
    {result : Except Failure Progress}
    (settles : WindowSettles settings unit spans (last + 1) attempt progress happenings result)
    (selected : OrdinalMap.keys progress.selection = List.range' 1 last)
    (numbered : NumberedUpTo (last + 1) progress.repairs)
    (tried : ∀ state, progress.repairs.get? (last + 1) = some state → state.lastTried = attempt) :
    Throughout (AsksGrounded unit.id) earlier happenings := by
  have hselected := keys_insert_succ selected attempt
  cases settles with
  | notMerged merges => exact grounded_of_asked_eq_nil (cost_of_merges merges hselected).1
  | accepted merges isAccepted settles =>
      have unasked := (cost_of_merges merges hselected).1
      refine grounded_of_judged (grounded_of_asked_eq_nil unasked) fun before _ => ?_
      cases settles with
      | untouched => exact .nil
      | repaired => exact grounded_of_asked_eq_nil rfl
  | rejected merges notAccepted mends =>
      have unasked := (cost_of_merges merges hselected).1
      have provenance := ((concerns_of_merges merges hselected).2 _ rfl).2
      refine grounded_of_judged (grounded_of_asked_eq_nil unasked) fun before judged => ?_
      exact grounded_of_mends mends ⟨Nat.succ_pos last, ordinal_repairFor numbered, hselected⟩
        ⟨provenance, notAccepted⟩ (tried_repairFor numbered tried) judged

theorem grounded_of_window {last : Nat} {progress : Progress} {result : Except Failure Progress}
    (window : Window settings unit spans previous (last + 1) progress happenings result)
    (hprevious : Numbered previous) (traced : Traced unit.id previous happenings)
    (reached : Reached last progress) :
    Throughout (AsksGrounded unit.id) earlier happenings := by
  cases window with
  | noFirst attempts => exact grounded_of_no_repair (cost_of_firstAttempt attempts).2.1
  | noAttempt attempts => exact grounded_of_no_repair (cost_of_firstAttempt attempts).2.1
  | settled attempts settles =>
      have noRepair := (cost_of_firstAttempt attempts).2.1
      have numbered := numbered_of_firstAttempt attempts hprevious reached.numbered
      have tried := lastTried_of_begins (begins_of_firstAttempt attempts)
        (traced.of_subset (List.subset_append_left _ _)) reached.numbered.get?_succ
      refine throughout_append_iff.2 ⟨grounded_of_no_repair noRepair, ?_⟩
      exact grounded_of_windowSettles settles reached.selected numbered tried

/-- What is asked while windows grow goes back to the variant that was judged last. -/
theorem grounded_of_grows {last count : Nat} {progress : Progress} {result : Except Failure Progress}
    (grows : Grows settings unit spans previous (List.range' (last + 1) count) progress happenings
      result)
    (hprevious : Numbered previous) (traced : Traced unit.id previous happenings)
    (reached : Reached last progress) :
    Throughout (AsksGrounded unit.id) earlier happenings := by
  induction count generalizing last progress earlier happenings with
  | zero =>
      cases grows
      exact .nil
  | succ count ih =>
      rw [List.range'_succ] at grows
      cases grows with
      | failed window => exact grounded_of_window window hprevious traced reached
      | halted window => exact grounded_of_window window hprevious traced reached
      | further window goesOn later =>
          have first := traced.of_subset (List.subset_append_left _ _)
          have rest := traced.of_subset (List.subset_append_right _ _)
          have further := reached_of_window window hprevious reached goesOn
          exact throughout_append_iff.2
            ⟨grounded_of_window window hprevious first reached, ih later rest further⟩

/-- What a run asks for goes back to the variant that it judged last. -/
theorem grounded_of_runs {mergeBack : Nat} {result : Except Failure UnitOutcome}
    {archive after : Archive} (sound : archive.Sound unit.id) (retains : archive.Retains unit.id)
    (runs : Runs settings unit mergeBack happenings result)
    (steps : Archive.Steps Archive.Step archive happenings after) :
    Throughout (AsksGrounded unit.id) [] happenings := by
  have silent {before : List Happening} {happening : Happening}
      (unasked : happening.1.request? = none) : AsksGrounded unit.id before happening := by
    intro request asks
    cases unasked.symm.trans asks
  apply throughout_of_runs runs
  · exact fun _ _ => silent rfl
  · exact fun _ _ _ => silent rfl
  · exact fun _ _ _ => silent rfl
  · exact fun _ _ _ _ => silent rfl
  · intro spans loading opening growing closing previous windows grown before whole loads opens grows
    rw [whole] at steps
    obtain ⟨hprevious, traced⟩ : Numbered previous ∧ Traced unit.id previous growing := by
      rcases previous_of_loads loads steps with rfl | rfl
      · exact ⟨by simp [Numbered], by simp [Traced]⟩
      · have listed := retains.listed steps
        exact ⟨sound.numbered, listed.of_subset fun _ member => by simp [member]⟩
    exact grounded_of_grows grows hprevious traced (reached_zero windows)

/-- In every run over an archive to which runs can come, a request for a repair goes back to the variant
that was judged last before it: this variant needs a repair, the request is for the highest function
of it, tells the text that is stored for the attempt which the variant has for this function, and
gives the reason of the verdict. So a run whose variants are all accepted asks for no repair. -/
theorem repair_requests_grounded {mergeBack : Nat} {archive after : Archive}
    {result : Except Failure UnitOutcome} (chronicle : Chronicle archive)
    (course : Course (onUnit settings unit mergeBack) happenings result)
    (steps : Archive.Steps Archive.Step archive happenings after) :
    (∀ before request reply later, happenings = before ++ ⟨.ask request, reply⟩ :: later →
      request.isRepair = true →
      ∃ variant verdict attempt prior now, lastJudged? before = some (variant, verdict) ∧
        verdict.needsRepair = true ∧
        (verdict.formValid = false ∨ verdict.status = .failedActionable) ∧
        Selection.window variant.provenance = request.ordinal ∧
        variant.provenance.get? request.ordinal = some attempt ∧
        Archive.Steps Archive.Step archive before now ∧
        CandidateLog.store.get unit.id request.ordinal attempt now.log = .ok prior ∧
        request.unitId = unit.id ∧ request.priorAttempt = some prior ∧
        request.failureReason = some verdict.failureReason) ∧
    ((∀ variant fileName verdict, ⟨.validate variant fileName, verdict⟩ ∈ happenings →
      verdict.isAccepted = true) → ∀ request ∈ asked happenings, request.isRepair = false) := by
  have all := grounded_of_runs (chronicle.sound unit.id) (chronicle.retains unit.id)
    (runs_of_course course) steps
  constructor
  · rintro before request reply later rfl repair
    have grounded := all.of_split request rfl repair
    rw [List.nil_append] at grounded
    obtain ⟨variant, verdict, attempt, prior, judged, rejected, highest, selected, read, own, told,
      reason⟩ := grounded
    obtain ⟨now, first, -⟩ := Archive.steps_append_iff.1 steps
    have stored := Archive.get_of_mem first read
    have needed : verdict.needsRepair = true := by simp [Verdict.needsRepair, rejected]
    have why : verdict.formValid = false ∨ verdict.status = .failedActionable := by
      simpa [Verdict.isAccepted, Decidable.or_iff_not_imp_left] using rejected
    exact ⟨variant, verdict, attempt, prior, now, judged, needed, why, highest, selected, first,
      stored, own, told, reason⟩
  · intro accepts request sent
    obtain ⟨⟨action, reply⟩, member, hrequest⟩ := List.mem_filterMap.1 sent
    obtain ⟨before, later, rfl⟩ := List.append_of_mem member
    by_contra repair
    have grounded := all.of_split request hrequest (by simpa using repair)
    obtain ⟨variant, verdict, _, _, judged, rejected, -⟩ := grounded
    obtain ⟨fileName, validated⟩ := mem_of_lastJudged? judged
    have accepted := accepts variant fileName verdict (List.mem_append_left _ validated)
    simp [rejected] at accepted

/-- A run that repairs nothing leaves a function whose stored candidate was rejected; the next run may
repair, and tells the service this candidate and why it was rejected. -/
theorem repair_requests_grounded_in_rerun :
    let unit : SourceUnit := ⟨"f.c", "int f(void) { return 1; }", ["f"], 1⟩
    ∃ archive happenings result after before request reply later, Chronicle archive ∧
      Course (onUnit ⟨⟨1, true, 30⟩, true, true⟩ unit 1) happenings result ∧
      Archive.Steps Archive.Step archive happenings after ∧
      (archive.checkpoints unit.id).isSome = true ∧
      happenings = before ++ ⟨.ask request, reply⟩ :: later ∧ request.isRepair = true ∧
      request.priorAttempt = some "x" ∧
      ∃ variant verdict, lastJudged? before = some (variant, verdict) ∧
        verdict.needsRepair = true ∧ request.failureReason = some verdict.failureReason := by
  intro _
  let first : WorkSettings := ⟨⟨1, false, 30⟩, true, true⟩
  let second : WorkSettings := ⟨⟨1, true, 30⟩, true, true⟩
  let state : RepairState := ⟨1, .exhausted, 0, 1, 1, none, []⟩
  obtain ⟨stored, put, unkept, texts⟩ : ∃ stored : Archive, Chronicle stored ∧
      stored.checkpoints Sample.unit.id = none ∧ stored.log.texts Sample.unit.id 1 = ["x"] := by
    let start : Archive := ⟨.empty, fun _ => none⟩
    exact ⟨start.put Sample.unit.id 1 "x", .put (.start start fun _ => rfl) Sample.unit.id 1 "x", rfl,
      start.texts_put Sample.unit.id "x" Nat.one_ne_zero⟩
  let archive : Archive := stored.keep (Sample.checkpoint state)
  let refusal : Reply := .answer (.error (.rejected "no"))
  let request : Request :=
    requestFor Sample.unit Sample.spans 1 (some "x") (some (Verdict.malformed []).failureReason)
  have bad : (Verdict.malformed []).isAccepted = false := rfl
  have refused : second.policy.taken refusal = .error (.rejected "no") := rfl
  have listed : CandidateLog.store.attempts Sample.unit.id 1 stored.log = .ok [1] := by
    simp [CandidateLog.store, texts]
  have found : CandidateLog.store.get Sample.unit.id 1 1 stored.log = .ok "x" := by
    simp [CandidateLog.store, texts]
  -- The candidate that was put is rejected, and the first run may not repair it.
  have takes : chosenAttempt? none 1 [1] = some 1 := rfl
  have unmended : WindowSettles first Sample.unit Sample.spans 1 1 ⟨∅, ∅, [], none⟩ _
      (Except.map _ _) :=
    .rejected (Sample.merges 1 "x") bad (.unwanted rfl)
  have firstGrows : Grows first Sample.unit Sample.spans none [1] ⟨∅, ∅, [], none⟩ _ (.ok _) :=
    .halted (.settled (.chosen rfl takes) unmended) (Option.some_ne_none 1)
  have firstCourse : Course (onUnit first Sample.unit 1) _ _ := Runs.course (.loaded Sample.located
    (.loaded rfl (.ok none)) (.none Nat.one_ne_zero) firstGrows (.finished (.saved rfl (.ok ())) rfl))
  have chronicle : Chronicle archive :=
    .run put firstCourse <| .cons (.inl (.tell _)) <| .cons (Archive.loads unkept) <|
      .cons (Archive.lists listed) <| .cons (Archive.reads found) <|
      .cons (.inl (.validate _ _ _)) <| .cons (.inl (.tell _)) <| .cons (.inl (.tell _)) <|
      .cons (.inl (.save Sample.unit.id _ _ default)) <| .cons (.inl (.tell _)) <| .nil _
  -- The second run goes on with it, and asks for a repair.
  have mends : Mends second.policy Sample.unit Sample.spans
      ⟨Sample.selection 1, state.refreshBudget 1, Sample.variant 1 "x", .malformed []⟩ _ (.ok _) :=
    .wanted rfl (.rejected _ "x" refused)
  have settles : WindowSettles second Sample.unit Sample.spans 1 1
      ⟨∅, (∅ : OrdinalMap RepairState).insert 1 (state.refreshBudget 1), [], none⟩ _
      (Except.map _ _) := .rejected (Sample.merges 1 "x") bad mends
  have keeps : continuation (state.refreshBudget 1) [1] = .kept 1 := rfl
  have grows : Grows second Sample.unit Sample.spans (some (Sample.checkpoint state)) [1]
      ⟨∅, ∅, [], none⟩ _ (.ok _) :=
    .halted (.settled (.kept rfl keeps) settles) (Option.some_ne_none 1)
  have restored : archive.checkpoints Sample.unit.id = some (Sample.checkpoint state) :=
    stored.checkpoints_keep (Sample.checkpoint state)
  have kept : (archive.checkpoints Sample.unit.id).isSome = true := by simp [restored]
  obtain ⟨happenings, result, course, asks, after, steps⟩ : ∃ happenings result,
      Course (onUnit second Sample.unit 1) happenings result ∧ ⟨.ask request, refusal⟩ ∈ happenings ∧
      ∃ after, Archive.Steps Archive.Step archive happenings after := by
    refine ⟨_, _, Runs.course (.loaded Sample.located (.loaded rfl _) (.none Nat.one_ne_zero) grows
      (.finished (.saved rfl (.ok ())) rfl)), ?asks, ?steps⟩
    case steps =>
      exact ⟨_, .cons (.inl (.tell _)) <| .cons (Archive.loads restored) <|
        .cons (Archive.lists listed) <| .cons (Archive.reads found) <|
        .cons (.inl (.validate _ _ _)) <| .cons (.inl (.tell _)) <| .cons (.inl (.tell _)) <|
        .cons (Archive.reads found) <| .cons (.inl (.ask _ _)) <| .cons (.inl (.tell _)) <|
        .cons (.inl (.save Sample.unit.id _ _ default)) <| .cons (.inl (.tell _)) <| .nil _⟩
    case asks =>
      have member : ⟨.ask request, refusal⟩ ∈ called Sample.unit Sample.spans
          ⟨Sample.selection 1, state.refreshBudget 1, Sample.variant 1 "x", .malformed []⟩ "x"
          refusal :=
        List.mem_cons_of_mem _ (List.mem_cons_of_mem _ List.mem_cons_self)
      simp [member]
  obtain ⟨before, later, rfl⟩ := List.append_of_mem asks
  obtain ⟨judged, verdict, _, _, _, hjudged, needed, -, -, -, -, -, -, -, reason⟩ :=
    (repair_requests_grounded chronicle course steps).1 before request refusal later rfl rfl
  exact ⟨archive, _, result, after, before, request, refusal, later, chronicle, course, steps,
    kept, rfl, rfl, rfl, judged, verdict, hjudged, needed, reason⟩

end Work

end Graft
