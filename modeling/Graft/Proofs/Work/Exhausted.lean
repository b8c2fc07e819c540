import Graft.Proofs.Work.Budget

/-!
Whether a later run asks again for a function whose repair is exhausted. `no_request_for_exhausted`
says that it does not as long as a candidate of the function is stored, none is newer than the one
that was tried last, and the budget has no calls left for it. A function of which no candidate is
stored has nothing to go on with, and is asked for as one that is new
(`asked_again_without_candidate`).
-/

namespace Graft

open Code Generation

namespace RepairState

/-- A new budget without calls left, or a refusal, leaves an exhausted repair as it is. -/
theorem refreshBudget_status_of_spent {state : RepairState} {budget : Nat}
    (exhausted : state.status = .exhausted)
    (spent : state.rejection = none → budget ≤ state.consumed) :
    (state.refreshBudget budget).status = .exhausted := by
  have closed : (state.status == .exhausted && state.rejection.isNone &&
      decide (state.consumed < budget)) = false := by
    cases refusal : state.rejection with
    | some message => simp
    | none =>
        have enough := spent refusal
        simp [Nat.not_lt.2 enough]
  unfold refreshBudget
  simp only [closed, Bool.false_eq_true, ↓reduceIte]
  exact exhausted

theorem callsLeft_of_exhausted {state : RepairState} (exhausted : state.status = .exhausted) :
    state.callsLeft = 0 := by
  simp [callsLeft, exhausted]

end RepairState

namespace Work

variable {settings : WorkSettings} {unit : SourceUnit} {spans : List Span} {mergeBack : Nat}
  {happenings : List Happening} {previous : Option Checkpoint}

/-- With candidates that are stored, none of them newer than the last one that was tried, an exhausted
repair is neither resumed nor begun anew. -/
theorem continuation_of_exhausted {state : RepairState} {stored : List Nat}
    (exhausted : state.status = .exhausted) (some : stored ≠ [])
    (notNewer : ∀ attempt ∈ stored, attempt ≤ state.lastTried) :
    ∃ attempt, continuation state stored = .kept attempt := by
  cases hlatest : stored.getLast? with
  | none => exact absurd (List.getLast?_eq_none_iff.1 hlatest) some
  | some latest =>
      have hle : ¬state.lastTried < latest :=
        Nat.not_lt.2 (notNewer latest (List.mem_of_getLast? hlatest))
      unfold continuation
      simp only [exhausted, hlatest, hle, reduceCtorEq, false_and, ne_eq, not_false_eq_true,
        true_and, ↓reduceIte]
      split
      · exact ⟨_, rfl⟩
      · exact ⟨_, rfl⟩

/-- A request in the course of growing is sent in the window of its function. -/
theorem window_of_mem_asked {last count : Nat} {progress : Progress}
    {result : Except Failure Progress} {request : Request}
    (grows : Grows settings unit spans previous (List.range' (last + 1) count) progress happenings
      result)
    (hprevious : Numbered previous) (reached : Reached last progress)
    (member : request ∈ asked happenings) :
    ∃ before start first found, request.ordinal = before + 1 ∧ Reached before start ∧
      Window settings unit spans previous (before + 1) start first found ∧
      first ⊆ happenings ∧ request ∈ asked first := by
  induction count generalizing last progress happenings with
  | zero =>
      cases grows
      simp at member
  | succ count ih =>
      rw [List.range'_succ] at grows
      cases grows with
      | failed window =>
          have own := ordinal_of_window window hprevious reached request member
          exact ⟨last, progress, _, _, own, reached, window, List.Subset.refl _, member⟩
      | halted window halts =>
          have own := ordinal_of_window window hprevious reached request member
          exact ⟨last, progress, _, _, own, reached, window, List.Subset.refl _, member⟩
      | further window goesOn later =>
          rw [asked_append, List.mem_append] at member
          rcases member with now | afterwards
          · have own := ordinal_of_window window hprevious reached request now
            exact ⟨last, progress, _, _, own, reached, window, List.subset_append_left _ _, now⟩
          · have further := reached_of_window window hprevious reached goesOn
            obtain ⟨before, start, first, found, own, hreached, hwindow, part, hmember⟩ :=
              ih later further afterwards
            exact ⟨before, start, first, found, own, hreached, hwindow,
              List.subset_append_of_subset_right _ part, hmember⟩

/-- The window of a function whose exhausted repair has nothing to go on with asks for nothing. -/
theorem asked_of_exhausted {last : Nat} {progress : Progress} {result : Except Failure Progress}
    {state : RepairState}
    (window : Window settings unit spans previous (last + 1) progress happenings result)
    (hprevious : Numbered previous) (reached : Reached last progress)
    (cached : settings.useCache = true)
    (restored : previous.bind (·.repairs.get? (last + 1)) = some state)
    (exhausted : state.status = .exhausted)
    (spent : state.rejection = none → settings.policy.maxFixAttempts ≤ state.consumed)
    (stays : ∀ stored, ⟨.attempts unit.id (last + 1), .ok stored⟩ ∈ happenings →
      stored ≠ [] ∧ ∀ attempt ∈ stored, attempt ≤ state.lastTried) :
    asked happenings = [] := by
  let refreshed := state.refreshBudget settings.policy.maxFixAttempts
  have closed : refreshed.status = .exhausted :=
    RepairState.refreshBudget_status_of_spent exhausted spent
  have keeps {stored : List Nat} {other : RepairState}
      (listed : ⟨.attempts unit.id (last + 1), .ok stored⟩ ∈ happenings)
      (hother : previous.bind (·.repairs.get? (last + 1)) = some other) :
      other = state ∧ ∃ attempt, continuation refreshed stored = .kept attempt := by
    obtain rfl := Option.some.inj (hother.symm.trans restored)
    obtain ⟨some, notNewer⟩ := stays stored listed
    exact ⟨rfl, continuation_of_exhausted closed some notNewer⟩
  -- The search for a first attempt lists what is stored, and keeps to one of these.
  have searched {first : List Happening} {found : Except Failure (Option Nat × OrdinalMap RepairState)}
      (attempts : FirstAttempt settings.policy unit spans (last + 1) previous progress.repairs true
        first found) (part : first ⊆ happenings) :
      asked first = [] ∧ ∀ attempt after, found = .ok (some attempt, after) →
        after = progress.repairs.insert (last + 1) refreshed := by
    cases attempts with
    | unlisted => exact ⟨rfl, by simp⟩
    | kept hother =>
        obtain ⟨rfl, -⟩ := keeps (part List.mem_cons_self) hother
        refine ⟨rfl, ?_⟩
        rintro _ _ ⟨⟩
        rfl
    | resumed hother resumes =>
        obtain ⟨rfl, attempt, kept⟩ := keeps (part List.mem_cons_self) hother
        exact absurd (resumes.symm.trans kept) (by simp)
    | lost hother missing =>
        obtain ⟨rfl, attempt, kept⟩ := keeps (part List.mem_cons_self) hother
        exact absurd (missing.symm.trans kept) (by simp)
    | chosen notRestored => simp [restored] at notRestored
    | fresh notRestored => simp [restored] at notRestored
  cases window with
  | noFirst attempts => exact (searched (cached ▸ attempts) (List.Subset.refl _)).1
  | noAttempt attempts => exact (searched (cached ▸ attempts) (List.Subset.refl _)).1
  | @settled attempt first settling repairs _ attempts settles =>
      obtain ⟨hfirst, hafter⟩ := searched (cached ▸ attempts) (List.subset_append_left _ _)
      have hrepairs := hafter attempt repairs rfl
      obtain ⟨hcalls, -, -, -⟩ := cost_of_windowSettles settles reached.selected
        (numbered_of_firstAttempt attempts hprevious reached.numbered)
      have goesOn : repairFor settings.policy (last + 1) attempt repairs = refreshed := by
        simp [repairFor, hrepairs, closed]
      have none : (asked settling).length = 0 := by
        simp only [goesOn, RepairState.callsLeft_of_exhausted closed, ite_self] at hcalls
        exact Nat.le_zero.1 hcalls
      rw [asked_append, hfirst, List.length_eq_zero_iff.1 none, List.append_nil]

/-- A run that goes on from a checkpoint sends no request for a function whose repair is exhausted
there, as long as candidates of the function are stored, none of them newer than the one that was
tried last, and the repair was refused or has used up the budget of this run. This holds whatever the
service, the validator and the store answer, in this run and in those that led to the checkpoint. -/
theorem no_request_for_exhausted (settings : WorkSettings) (unit : SourceUnit) (mergeBack : Nat)
    {happenings : List Happening} {result : Except Failure UnitOutcome} {checkpoint : Checkpoint}
    {ordinal : Nat} {state : RepairState}
    (course : Course (onUnit settings unit mergeBack) happenings result)
    (earlier : ∀ checkpoint, ⟨.loadCheckpoint unit.id, .ok (some checkpoint)⟩ ∈ happenings →
      LeftBehind unit.id checkpoint)
    (loaded : ⟨.loadCheckpoint unit.id, .ok (some checkpoint)⟩ ∈ happenings)
    (restored : checkpoint.repairs.get? ordinal = some state)
    (exhausted : state.status = .exhausted)
    (spent : state.rejection = none → settings.policy.maxFixAttempts ≤ state.consumed)
    (stays : ∀ stored, ⟨.attempts unit.id ordinal, .ok stored⟩ ∈ happenings →
      stored ≠ [] ∧ ∀ attempt ∈ stored, attempt ≤ state.lastTried) :
    ∀ request ∈ asked happenings, request.ordinal ≠ ordinal := by
  intro request member same
  cases runs_of_course course with
  | notLocated => simp at member
  | notLoaded located loads =>
      rw [asked_cons_told, (cost_of_loads loads).1] at member
      simp at member
  | @loaded _ loading opening growing closing _ _ _ _ located loads opens grows closes =>
      have hprevious := numbered_of_loads loads fun other hother =>
        (earlier other (List.mem_cons_of_mem _ (by simp [hother]))).numbered
      obtain ⟨hanswer, cached⟩ := previous_of_mem loads opens grows closes hprevious loaded
      obtain rfl := Except.ok.inj hanswer
      have growth : request ∈ asked growing := by
        simpa [(cost_of_loads loads).1, (cost_of_opens opens).1, (cost_of_closes closes).1]
          using member
      obtain ⟨before, start, first, found, own, reached, window, part, hmember⟩ :=
        window_of_mem_asked grows hprevious (reached_zero _) growth
      obtain rfl : ordinal = before + 1 := same.symm.trans own
      have hwithin : first ⊆ told (.unitStarted unit.id unit.count (min mergeBack unit.count)) ::
          (loading ++ opening ++ growing ++ closing) := by
        intro happening hfirst
        exact List.mem_cons_of_mem _ (by simp [part hfirst])
      have nothing : asked first = [] := asked_of_exhausted window hprevious reached cached restored
        exhausted spent fun stored listed => stays stored (hwithin listed)
      simp [nothing] at hmember

/-- A repair runs out of calls in vain. The next run has the same budget and judges the same candidate
once more, but asks for nothing. -/
theorem no_request_for_exhausted_in_rerun :
    let unit : SourceUnit := ⟨"f.c", "int f(void) { return 1; }", ["f"], 1⟩
    ∃ happenings result checkpoint state,
      Course (onUnit ⟨⟨1, true, 30⟩, true, true⟩ unit 1) happenings result ∧
      ⟨.loadCheckpoint unit.id, .ok (some checkpoint)⟩ ∈ happenings ∧
      LeftBehind unit.id checkpoint ∧ checkpoint.repairs.get? 1 = some state ∧
      state.status = .exhausted ∧ state.rejection = none ∧ state.consumed = 1 ∧
      ⟨.attempts unit.id 1, .ok [1]⟩ ∈ happenings ∧ state.lastTried = 1 ∧
      ∀ request ∈ asked happenings, request.ordinal ≠ 1 := by
  intro _
  let settings : WorkSettings := ⟨⟨1, true, 30⟩, true, true⟩
  let state : RepairState := Sample.unanswered
  have bad : (Verdict.malformed []).isAccepted = false := rfl
  have mends : Mends settings.policy Sample.unit Sample.spans
      ⟨Sample.selection 1, state.refreshBudget 1, Sample.variant 1 "x", .malformed []⟩ _ (.ok _) :=
    .wanted rfl (.spent _)
  have settles : WindowSettles settings Sample.unit Sample.spans 1 1
      ⟨∅, (∅ : OrdinalMap RepairState).insert 1 (state.refreshBudget 1), [], none⟩ _
      (Except.map _ _) := .rejected (Sample.merges 1 "x") bad mends
  have keeps : continuation (state.refreshBudget 1) [1] = .kept 1 := rfl
  have grows : Grows settings Sample.unit Sample.spans (some (Sample.checkpoint state)) [1]
      ⟨∅, ∅, [], none⟩ _ (.ok _) :=
    .halted (.settled (.kept rfl keeps) settles) (Option.some_ne_none 1)
  have course : Course (onUnit settings Sample.unit 1) _ _ := Runs.course (.loaded Sample.located
    (.loaded rfl _) (.none Nat.one_ne_zero) grows (.finished (.saved rfl (.ok ())) rfl))
  refine ⟨_, _, Sample.checkpoint state, state, course, ?loaded, Sample.leftBehind_unanswered, rfl,
    rfl, rfl, rfl, ?listed, rfl,
    no_request_for_exhausted settings Sample.unit 1 course ?earlier ?loaded rfl rfl ?spent ?stays⟩
  case loaded => exact List.mem_cons_of_mem _ (List.mem_append_left _ List.mem_cons_self)
  case listed => exact List.mem_cons_of_mem _ (List.mem_cons_of_mem _ List.mem_cons_self)
  case earlier =>
    intro other member
    obtain rfl : other = Sample.checkpoint state := by
      simpa [told, toldVerdict, toldTransition] using member
    exact Sample.leftBehind_unanswered
  case spent =>
    intro _
    exact Nat.le_refl 1
  case stays =>
    intro stored listed
    obtain rfl : stored = [1] := by
      simpa [told, toldVerdict, toldTransition] using listed
    simp [state, Sample.unanswered]

/-- The search for a first candidate runs out of calls, or is refused. The next run has the same budget
and no candidate was put since, but it asks for a first candidate once more. -/
theorem asked_again_without_candidate :
    let unit : SourceUnit := ⟨"f.c", "int f(void) { return 1; }", ["f"], 1⟩
    ∀ refusal ∈ [none, some "no"], ∃ happenings result checkpoint state,
      Course (onUnit ⟨⟨1, true, 30⟩, true, true⟩ unit 1) happenings result ∧
      ⟨.loadCheckpoint unit.id, .ok (some checkpoint)⟩ ∈ happenings ∧
      LeftBehind unit.id checkpoint ∧ checkpoint.repairs.get? 1 = some state ∧
      state.status = .exhausted ∧ state.rejection = refusal ∧ state.consumed = 1 ∧
      (∀ stored, ⟨.attempts unit.id 1, .ok stored⟩ ∈ happenings →
        ∀ attempt ∈ stored, attempt ≤ state.lastTried) ∧
      ∃ request ∈ asked happenings, request.ordinal = 1 := by
  intro _
  let settings : WorkSettings := ⟨⟨1, true, 30⟩, true, true⟩
  let silence : GenerationError := .service s!"timed out after {settings.policy.timeoutSeconds}s"
  have notThere : chosenAttempt? none 1 [] = none := rfl
  have silent : settings.policy.taken .silence = .error silence := rfl
  have refuses : settings.policy.taken (.answer (.error (.rejected "no"))) =
      .error (.rejected "no") := rfl
  intro refusal member
  -- The search of the first run, which has a single call.
  obtain ⟨state, searching, calls, unloaded, hrefusal, consumed⟩ : ∃ state searching,
      FirstCalls settings.policy (requestFor Sample.unit Sample.spans 1 none none) 1 (.start 1 1 0)
        searching (.ok (.refused state)) ∧
      (∀ checkpoint, ⟨.loadCheckpoint Sample.unit.id, .ok (some checkpoint)⟩ ∉ searching) ∧
      state.rejection = refusal ∧ state.consumed = 1 := by
    rcases List.mem_pair.1 member with rfl | rfl
    · exact ⟨_, _, .again silent rfl (.spent _), by simp [told, toldTransition], rfl, rfl⟩
    · exact ⟨_, _, .rejected refuses rfl, by simp [told, toldTransition], rfl, rfl⟩
  have exhausted : state.status = .exhausted := (refused_of_firstCalls calls).2.1
  let checkpoint : Checkpoint :=
    ⟨Sample.unit.id, ∅, (∅ : OrdinalMap RepairState).insert 1 state, default⟩
  have left : LeftBehind Sample.unit.id checkpoint := by
    have grows : Grows settings Sample.unit Sample.spans none [1] ⟨∅, ∅, [], none⟩ _ (.ok _) :=
      .halted (.noAttempt (.fresh rfl notThere ⟨_, calls, rfl⟩)) (Option.some_ne_none 1)
    have course : Course (onUnit settings Sample.unit 1) _ _ := Runs.course (.loaded Sample.located
      (.loaded rfl (.ok none)) (.none Nat.one_ne_zero) grows (.finished (.saved rfl (.ok ())) rfl))
    refine .saved default course (fun other loads => ?_)
      (List.mem_cons_of_mem _ (List.mem_append_right _ List.mem_cons_self))
    simp [told, unloaded] at loads
  have lost : continuation (state.refreshBudget 1) [] = .missing := by
    simp [continuation]
  have grows : Grows settings Sample.unit Sample.spans (some checkpoint) [1] ⟨∅, ∅, [], none⟩ _
      (.ok _) :=
    .halted (.noAttempt (.lost rfl lost ⟨.ok (.refused _), .again silent rfl (.spent _), rfl⟩))
      (Option.some_ne_none 1)
  have course : Course (onUnit settings Sample.unit 1) _ _ := Runs.course (.loaded Sample.located
    (.loaded rfl (.ok (some checkpoint))) (.none Nat.one_ne_zero) grows
    (.finished (.saved rfl (.ok ())) rfl))
  refine ⟨_, _, checkpoint, state, course, ?_, left, rfl, exhausted, hrefusal, consumed, ?_,
    requestFor Sample.unit Sample.spans 1 none none, List.mem_singleton_self _, rfl⟩
  · exact List.mem_cons_of_mem _ (List.mem_append_left _ List.mem_cons_self)
  · intro stored listed attempt hattempt
    obtain ⟨-, rfl⟩ : _ ∧ stored = [] := by
      simpa [told, toldTransition] using listed
    simp at hattempt

end Work

end Graft
