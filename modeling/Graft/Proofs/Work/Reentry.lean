import Graft.Proofs.Work.Replay

/-!
How a run goes on at a function that was given up. A candidate that was put since is the first that is
tried (`Reenters`): `resumed_of_firstAttempt` says that it is chosen however the function was given up,
`reenters_of_window` what becomes of its window and `reenters_of_grows` that the windows behind it
leave this. `rerun_resumes_halted_function` is what follows for two whole runs.
-/

namespace Graft

open Code Generation Work

/-- That the work goes on at a function with an attempt. Without an exchange before, a variant with this
attempt is the first of its window that is validated. If it is accepted the repair has succeeded without
a call; and what is asked for behind it are repairs, no more than a policy allows. -/
structure Reenters (policy : Policy) (ordinal attempt : Nat) (before : List Happening)
    (variant : Variant) (verdict : Verdict) (rest : List Happening)
    (repairs : OrdinalMap RepairState) : Prop where
  quiet : ∀ happening ∈ before, happening.1.exchanges = false
  first : ∀ earlier fileName found, ⟨.validate earlier fileName, found⟩ ∈ before →
    earlier.window < ordinal
  window : variant.window = ordinal
  uses : variant.provenance.get? ordinal = some attempt
  succeeds : verdict.isAccepted = true → ∃ state, repairs.get? ordinal = some state ∧
    state.status = .repaired ∧ state.lastTried = attempt ∧ state.consumed = 0
  asks : ∀ request ∈ asked rest, request.ordinal = ordinal → request.isRepair = true
  budget : (asked rest).countP (·.isRepairFor ordinal) ≤ policy.maxFixAttempts

namespace Reenters

variable {policy : Policy} {ordinal attempt : Nat} {before rest : List Happening}
  {variant : Variant} {verdict : Verdict} {repairs after : OrdinalMap RepairState}

theorem prepend {earlier : List Happening}
    (reenters : Reenters policy ordinal attempt before variant verdict rest repairs)
    (quiet : ∀ happening ∈ earlier, happening.1.exchanges = false)
    (first : ∀ variant fileName verdict, ⟨.validate variant fileName, verdict⟩ ∈ earlier →
      variant.window < ordinal) :
    Reenters policy ordinal attempt (earlier ++ before) variant verdict rest repairs :=
  { reenters with
    quiet := List.forall_mem_append.2 ⟨quiet, reenters.quiet⟩
    first := fun variant fileName verdict member => by
      rcases List.mem_append.1 member with outside | inside
      · exact first variant fileName verdict outside
      · exact reenters.first variant fileName verdict inside }

theorem append {later : List Happening}
    (reenters : Reenters policy ordinal attempt before variant verdict rest repairs)
    (others : ∀ request ∈ asked later, request.ordinal ≠ ordinal)
    (same : after.get? ordinal = repairs.get? ordinal) :
    Reenters policy ordinal attempt before variant verdict (rest ++ later) after :=
  { reenters with
    succeeds := fun accepted => by
      rw [same]
      exact reenters.succeeds accepted
    asks := by
      rw [asked_append]
      exact List.forall_mem_append.2
        ⟨reenters.asks, fun request member own => absurd own (others request member)⟩
    budget := by
      have none : (asked later).countP (·.isRepairFor ordinal) = 0 :=
        List.countP_eq_zero.2 fun request member => by
          simp [Request.isRepairFor, others request member]
      rw [asked_append, List.countP_append, none]
      exact reenters.budget }

end Reenters

namespace Work

variable {policy : Policy} {settings : WorkSettings} {unit : SourceUnit} {spans : List Span}
  {judge : Variant → String → Verdict} {happenings : List Happening}
  {previous : Option Checkpoint} {archive : Archive}

theorem continuation_eq_resumed {state : RepairState} {stored : List Nat} {latest : Nat}
    (unrepaired : state.status ≠ .repaired) (hlatest : stored.getLast? = some latest)
    (newer : state.lastTried < latest) : continuation state stored = .resumed latest := by
  simp [continuation, unrepaired, hlatest, newer]

/-- However a function was given up, it begins anew with a candidate that was put since, and asks for
none before. -/
theorem resumed_of_firstAttempt {ordinal latest : Nat} {repairs after : OrdinalMap RepairState}
    {attempt? : Option Nat} {state : RepairState}
    (attempts : FirstAttempt policy unit spans ordinal previous repairs true happenings
      (.ok (attempt?, after)))
    (restored : previous.bind (·.repairs.get? ordinal) = some state)
    (exhausted : state.status = .exhausted) (newer : state.lastTried < latest)
    (listed : ∀ stored rest, happenings = ⟨.attempts unit.id ordinal, .ok stored⟩ :: rest →
      stored.getLast? = some latest) :
    attempt? = some latest ∧
      after = repairs.insert ordinal ((state.refreshBudget policy.maxFixAttempts).resume latest) ∧
      ∃ stored anew, happenings =
        [⟨.attempts unit.id ordinal, .ok stored⟩, toldTransition unit.id ordinal anew none] := by
  have resumes {stored : List Nat} {other : RepairState} {rest : List Happening}
      (hother : previous.bind (·.repairs.get? ordinal) = some other)
      (lists : happenings = ⟨.attempts unit.id ordinal, .ok stored⟩ :: rest) :
      other = state ∧
        continuation (other.refreshBudget policy.maxFixAttempts) stored = .resumed latest := by
    obtain rfl := Option.some.inj (restored.symm.trans hother)
    have unrepaired : (state.refreshBudget policy.maxFixAttempts).status ≠ .repaired := by
      simp [exhausted]
    exact ⟨rfl, continuation_eq_resumed unrepaired (listed stored rest lists) newer⟩
  -- Every other way to begin has a continuation that is not the one of `resumes`, or no repair.
  cases attempts with
  | kept hother goesOn => cases (resumes hother rfl).2.symm.trans goesOn
  | @resumed stored other anew attempt hother goesOn hanew =>
      obtain ⟨rfl, chooses⟩ := resumes hother rfl
      obtain rfl := Continuation.resumed.inj (chooses.symm.trans goesOn)
      exact ⟨rfl, by rw [hanew], stored, anew, rfl⟩
  | lost hother goesOn => cases (resumes hother rfl).2.symm.trans goesOn
  | chosen notRestored => cases notRestored.symm.trans restored
  | fresh notRestored => cases notRestored.symm.trans restored

/-- What becomes of a window whose last function begins anew with an attempt. -/
theorem reenters_of_windowSettles {last attempt : Nat} {progress after : Progress}
    {state : RepairState}
    (settles : WindowSettles settings unit spans (last + 1) attempt progress happenings (.ok after))
    (selected : OrdinalMap.keys progress.selection = List.range' 1 last)
    (numbered : NumberedUpTo (last + 1) progress.repairs)
    (found : progress.repairs.get? (last + 1) = some (state.resume attempt))
    (budget : state.budget = settings.policy.maxFixAttempts) :
    ∃ before variant verdict rest,
      happenings = before ++ ⟨.validate variant (variant.fileName unit), verdict⟩ :: rest ∧
      Reenters settings.policy (last + 1) attempt before variant verdict rest after.repairs := by
  have hselected := keys_insert_succ selected attempt
  have anew : repairFor settings.policy (last + 1) attempt progress.repairs =
      state.resume attempt := by
    simp [repairFor, found, RepairState.resume]
  have merged {merging : List Happening} {variant : Variant}
      (merges : Merges unit spans (progress.selection.insert (last + 1) attempt) merging
        (.ok variant)) :
      variant.window = last + 1 ∧ variant.provenance.get? (last + 1) = some attempt := by
    obtain ⟨window, provenance⟩ := (concerns_of_merges merges hselected).2 variant rfl
    refine ⟨window, ?_⟩
    rw [provenance]
    exact OrdinalMap.get?_insert_self _ _ _
  have unjudged {merging : List Happening} {found : Except Failure Variant}
      (merges : Merges unit spans (progress.selection.insert (last + 1) attempt) merging found) :
      ∀ earlier fileName verdict, ⟨.validate earlier fileName, verdict⟩ ∈ merging →
        earlier.window < last + 1 := by
    intro earlier fileName verdict member
    obtain ⟨_, _, _, same⟩ := gets_of_merges merges _ member
    cases same
  cases settled_of_windowSettles settles with
  | accepted merges isAccepted repair =>
      obtain ⟨window, uses⟩ := merged merges
      cases repair with
      | untouched done => cases done _ found
      | repaired hstate notYet =>
          obtain rfl := Option.some.inj (found.symm.trans hstate)
          refine ⟨_, _, _, _, rfl, quiet_of_merges merges, unjudged merges, window, uses, ?_, ?_, ?_⟩
          · exact fun _ => ⟨_, OrdinalMap.get?_insert_self _ _ _, rfl, rfl, rfl⟩
          · simp [toldVerdict, toldTransition]
          · simp [toldVerdict, toldTransition]
  | @rejected merging mending variant verdict mended merges notAccepted mends =>
      obtain ⟨window, uses⟩ := merged merges
      obtain ⟨hcalls, allRepair, -⟩ := cost_of_mends mends
        ⟨Nat.succ_pos last, ordinal_repairFor numbered, hselected⟩
      have few : (asked mending).length ≤ settings.policy.maxFixAttempts := by
        have left := (state.resume attempt).callsLeft_le
        have full : (state.resume attempt).budget = settings.policy.maxFixAttempts := budget
        simp only [anew] at hcalls
        split at hcalls <;> omega
      refine ⟨_, _, _, _, rfl, quiet_of_merges merges, unjudged merges, window, uses, ?_, ?_, ?_⟩
      · exact fun accepted => absurd (notAccepted.symm.trans accepted) Bool.false_ne_true
      · exact fun request member _ => allRepair request (by simpa [toldVerdict] using member)
      · have count := List.countP_le_length (l := asked mending) (p := (·.isRepairFor (last + 1)))
        simp only [toldVerdict, asked_cons_told]
        omega

/-- The window of a function that was given up goes on with a candidate that was put since. -/
theorem reenters_of_window {last latest : Nat} {progress after : Progress} {state : RepairState}
    (window : Window settings unit spans previous (last + 1) progress happenings (.ok after))
    (cached : settings.useCache = true) (hprevious : Numbered previous)
    (reached : Reached last progress)
    (restored : previous.bind (·.repairs.get? (last + 1)) = some state)
    (exhausted : state.status = .exhausted) (newer : state.lastTried < latest)
    (listed : ∀ stored rest, happenings = ⟨.attempts unit.id (last + 1), .ok stored⟩ :: rest →
      stored.getLast? = some latest) :
    ∃ before variant verdict rest,
      happenings = before ++ ⟨.validate variant (variant.fileName unit), verdict⟩ :: rest ∧
      Reenters settings.policy (last + 1) latest before variant verdict rest after.repairs := by
  cases window with
  | noAttempt attempts =>
      rw [cached] at attempts
      cases (resumed_of_firstAttempt attempts restored exhausted newer listed).1
  | @settled attempt first settling repairs _ attempts settles =>
      have numbered := numbered_of_firstAttempt attempts hprevious reached.numbered
      rw [cached] at attempts
      obtain ⟨found, rfl, stored, anew, rfl⟩ := resumed_of_firstAttempt attempts restored exhausted
        newer fun stored rest lists => listed stored (rest ++ settling) (by rw [lists]; rfl)
      obtain rfl := Option.some.inj found
      obtain ⟨before, variant, verdict, rest, rfl, reenters⟩ := reenters_of_windowSettles settles
        reached.selected numbered (OrdinalMap.get?_insert_self _ _ _) rfl
      refine ⟨_, variant, verdict, rest, (List.append_assoc ..).symm, reenters.prepend ?_ ?_⟩
      · simp [toldTransition, told, Action.exchanges]
      · simp [toldTransition, told]

theorem kept_of_grows {last count : Nat} {progress after : Progress}
    (grows : Grows settings unit spans previous (List.range' (last + 1) count) progress happenings
      (.ok after))
    (hprevious : Numbered previous) (lasting : Lasting unit.id previous happenings)
    (reached : Reached last progress) :
    progress.windows <+: after.windows ∧
      ∀ ordinal ≤ last, after.repairs.get? ordinal = progress.repairs.get? ordinal := by
  obtain ⟨_, -, windows, repairs⟩ := invariant_of_grows
    (fun now later _ => last ≤ now ∧ progress.windows <+: later.windows ∧
      ∀ ordinal ≤ last, later.repairs.get? ordinal = progress.repairs.get? ordinal) []
    grows hprevious reached (fun window part reached holds => by
      obtain ⟨hle, windows, repairs⟩ := holds
      rcases accepts_or_halts_of_window window hprevious (lasting.of_subset part) reached with
        accepts | halts
      · refine ⟨by omega, windows.trans accepts.windows_prefix, fun ordinal within => ?_⟩
        exact (accepts.others ordinal (by omega)).trans (repairs ordinal within)
      · refine ⟨by omega, windows.trans halts.windows_prefix, fun ordinal within => ?_⟩
        exact (halts.others ordinal (by omega)).trans (repairs ordinal within))
    ⟨Nat.le_refl last, List.prefix_refl _, fun _ _ => rfl⟩
  exact ⟨windows, repairs⟩

theorem reenters_of_grows {last count latest : Nat} {progress after : Progress} {state : RepairState}
    (grows : Grows settings unit spans previous (List.range' (last + 1) (count + 1)) progress
      happenings (.ok after))
    (cached : settings.useCache = true) (hprevious : Numbered previous)
    (lasting : Lasting unit.id previous happenings) (reached : Reached last progress)
    (restored : previous.bind (·.repairs.get? (last + 1)) = some state)
    (exhausted : state.status = .exhausted) (newer : state.lastTried < latest)
    (listed : ∀ stored rest, happenings = ⟨.attempts unit.id (last + 1), .ok stored⟩ :: rest →
      stored.getLast? = some latest) :
    ∃ before variant verdict rest,
      happenings = before ++ ⟨.validate variant (variant.fileName unit), verdict⟩ :: rest ∧
      Reenters settings.policy (last + 1) latest before variant verdict rest after.repairs := by
  rw [List.range'_succ] at grows
  cases grows with
  | halted window halts =>
      exact reenters_of_window window cached hprevious reached restored exhausted newer listed
  | @further _ _ _ next now later _ window goesOn growing =>
      obtain ⟨before, variant, verdict, rest, rfl, reenters⟩ := reenters_of_window window cached
        hprevious reached restored exhausted newer
        fun stored rest lists => listed stored (rest ++ later) (by rw [lists]; rfl)
      have further := reached_of_window window hprevious reached goesOn
      have behind := lt_ordinal_of_grows growing hprevious further goesOn
      have kept := kept_of_grows growing hprevious
        (lasting.of_subset (List.subset_append_right _ _)) further
      refine ⟨before, variant, verdict, rest ++ later, by simp, reenters.append ?_ ?_⟩
      · intro request member
        have := behind request member
        omega
      · exact kept.2 (last + 1) (Nat.le_refl _)

theorem windowRequested_ne_zero_of_halted {mergeBack ordinal : Nat} {outcome : UnitOutcome}
    (course : Course (onUnit settings unit mergeBack) happenings (.ok outcome))
    (judged : JudgedBy judge happenings) (halted : outcome.haltedAt = some ordinal) :
    outcome.windowRequested ≠ 0 := by
  intro nothing
  rw [windowRequested_of_course course] at nothing
  obtain ⟨-, rfl⟩ := unreplaced_of_course course judged nothing
  cases halted

/-- What a repair tried last is older than a candidate that was put behind the run. -/
theorem lastTried_lt_of_put {ordinal count : Nat} {id : UnitId} {state : RepairState}
    (retains : archive.Retains id)
    (restored : (archive.checkpoints id).bind (·.repairs.get? ordinal) = some state)
    (put : (archive.log.texts id ordinal).length < count) : state.lastTried < count := by
  rcases retains ordinal state restored with untried | has
  · omega
  · have within := has.2
    omega

/-- What is listed behind quiet windows is what was there before them. -/
theorem listed_of_quiet {before rest : List Happening} {stored : List Nat} {ordinal : Nat}
    {id : UnitId} {after : Archive} (steps : Archive.Steps Archive.Answers archive
      (before ++ ⟨.attempts id ordinal, .ok stored⟩ :: rest) after)
    (quiet : ∀ happening ∈ before, happening.1.exchanges = false) :
    stored = List.range' 1 (archive.log.texts id ordinal).length := by
  obtain ⟨begun, first, later⟩ := Archive.steps_append_iff.1 steps
  obtain ⟨_, lists, -⟩ := Archive.steps_cons_iff.1 later
  have stores := Archive.step_attempts (.inl lists) rfl
  rwa [log_of_quiet first quiet] at stores

/-- Behind a run that halted at a function and left its checkpoint, whatever happens then except that
another checkpoint of the unit is saved, once candidates of the function were put: a run on the same unit
that may use checkpoints, comes as far and has its variants judged alike, comes to an outcome. It
replays the windows before the function and then validates a variant with the latest candidate,
and asks for nothing before it does so. If this variant is accepted the function is repaired with this
candidate and without a call; otherwise the function is asked for repairs within the budget of a run. How
the function was given up makes no difference. -/
theorem rerun_resumes_halted_function {again : WorkSettings} {mergeBack more ordinal : Nat}
    {after later final : Archive} {others rerun : List Happening} {outcome : UnitOutcome}
    {result : Except Failure UnitOutcome} (chronicle : Chronicle archive)
    (course : Course (onUnit settings unit mergeBack) happenings (.ok outcome))
    (steps : Archive.Steps Archive.Step archive happenings after)
    (kept : settings.keepsCheckpoints = true) (halted : outcome.haltedAt = some ordinal)
    (between : Archive.Steps Archive.Step after others later)
    (unsaved : ∀ happening ∈ others, ∀ selection repairs,
      happening.1 ≠ .saveCheckpoint unit.id selection repairs)
    (put : (after.log.texts unit.id ordinal).length < (later.log.texts unit.id ordinal).length)
    (cached : again.useCache = true) (keeps : again.keepsCheckpoints = true)
    (reaches : ordinal ≤ more) (recourse : Course (onUnit again unit more) rerun result)
    (resteps : Archive.Steps Archive.Answers later rerun final)
    (judged : JudgedBy judge (happenings ++ rerun)) :
    ∃ replayed before variant verdict rest, result = .ok replayed ∧
      rerun = before ++ ⟨.validate variant (variant.fileName unit), verdict⟩ :: rest ∧
      asked before = [] ∧
      (∀ earlier fileName found, ⟨.validate earlier fileName, found⟩ ∈ before →
        earlier.window < ordinal) ∧
      variant.window = ordinal ∧
      variant.provenance.get? ordinal = some (later.log.texts unit.id ordinal).length ∧
      replayed.windows.take (ordinal - 1) = outcome.windows.take (ordinal - 1) ∧
      (replayed.windows.take (ordinal - 1)).map (·.window) = List.range' 1 (ordinal - 1) ∧
      (verdict.isAccepted = true → ∃ state, replayed.repairs.get? ordinal = some state ∧
        state.status = .repaired ∧ state.lastTried = (later.log.texts unit.id ordinal).length ∧
        state.consumed = 0) ∧
      (verdict.isAccepted = false →
        (∀ request ∈ asked rest, request.ordinal = ordinal → request.isRepair = true) ∧
        (asked rest).countP (·.isRepairFor ordinal) ≤ again.policy.maxFixAttempts) := by
  have started := chronicle.sound unit.id
  obtain ⟨within, same, sound, retains⟩ := left_of_run chronicle course steps between unsaved
  have first : JudgedBy judge happenings := judged.of_subset (List.subset_append_left _ _)
  have second : JudgedBy judge rerun := judged.of_subset (List.subset_append_right _ _)
  have replaces := windowRequested_ne_zero_of_halted course first halted
  obtain ⟨spans, checkpoint, last, located, left, restored, length, records, -, stops⟩ :=
    records_of_course started kept course steps first replaces
  obtain ⟨rfl, hle, state, hstate, exhausted⟩ := stops ordinal halted
  -- What the repair tried was stored when the first run ended, so what was put since is newer.
  have newer : state.lastTried < (later.log.texts unit.id (last + 1)).length := by
    have tried := (chronicle.retains unit.id).of_run started course steps
    exact lastTried_lt_of_put tried (by simp [left, restored, hstate]) put
  have asks : last ≤ min more unit.count := by omega
  obtain ⟨progress, reached, before, growing, closing, rfl, rfl, hbefore, windowed, hclosing, replays,
    grows⟩ := replays_of_course sound retains (same.trans left) located
      (records.of_within within) cached keeps recourse resteps second (by omega)
      (Nat.le_of_eq length.symm) asks
  have lasting : Lasting unit.id (some checkpoint) growing := by
    rw [← same.trans left]
    exact (sound.lasting (resteps.mono .inl)).of_subset fun _ member => by simp [member]
  have hprevious : Numbered (some checkpoint) := same.trans left ▸ sound.numbered
  have listed : ∀ stored rest, growing = ⟨.attempts unit.id (last + 1), .ok stored⟩ :: rest →
      stored.getLast? = some (later.log.texts unit.id (last + 1)).length := by
    rintro stored rest rfl
    have some : (later.log.texts unit.id (last + 1)).length ≠ 0 := by omega
    obtain ⟨_, now, -⟩ := Archive.steps_append_iff.1 resteps
    rw [listed_of_quiet now hbefore, List.getLast?_range', if_neg some]
    congr 1
    omega
  have count : min more unit.count - last = min more unit.count - (last + 1) + 1 := by omega
  rw [count] at grows
  have stays := (kept_of_grows grows hprevious lasting replays.toReached).1
  obtain ⟨trying, variant, verdict, rest, rfl, reenters⟩ := reenters_of_grows grows cached hprevious
    lasting replays.toReached (by simpa [restored] using hstate) exhausted newer listed
  have closes : asked closing = [] := asked_of_quiet hclosing
  have whole : Reenters again.policy (last + 1) (later.log.texts unit.id (last + 1)).length
      (before ++ trying) variant verdict (rest ++ closing) progress.repairs := by
    apply Reenters.append
    · apply reenters.prepend hbefore
      intro variant fileName verdict member
      exact Nat.lt_succ_of_le (windowed variant fileName verdict member)
    · simp [closes]
    · rfl
  have taken : reached.windows = outcome.windows.take last := by
    rw [replays.windows, List.take_take, Nat.min_self]
  have replayed : progress.windows.take last = outcome.windows.take last := by
    rw [← taken]
    have size : reached.windows.length = last := by rw [taken, length]
    rw [← size]
    exact (List.prefix_iff_eq_take.1 stays).symm
  refine ⟨_, before ++ trying, variant, verdict, rest ++ closing, rfl, ?_, asked_of_quiet whole.quiet,
    whole.first, whole.window, whole.uses, ?_, ?_, whole.succeeds, fun _ => ⟨whole.asks, whole.budget⟩⟩
  · simp
  · exact replayed
  · show (progress.windows.take last).map _ = List.range' 1 last
    rw [replayed, records.numbered, length]

/-- The second of two functions is given up at its first candidate, which may not be repaired, and then
a better one is put; the next run begins with it. -/
theorem rerun_resumes_function_without_repairs :
    let unit : SourceUnit := ⟨"f.c", "int f(void) { return 1; }\nint g(void) { return 2; }",
      ["f", "g"], 1⟩
    let judge : Variant → String → Verdict := fun variant _ =>
      if variant.provenance.get? 2 = some 1 then .malformed [] else .compiled [] [] .zero .succeeded ""
    ∃ archive happenings outcome after later rerun replayed final before variant verdict rest,
      Chronicle archive ∧
      Course (onUnit ⟨⟨1, false, 30⟩, true, true⟩ unit 2) happenings (.ok outcome) ∧
      Archive.Steps Archive.Step archive happenings after ∧ outcome.haltedAt = some 2 ∧
      Archive.Steps Archive.Step after [⟨.put unit.id 2 "y", .ok 2⟩] later ∧
      Course (onUnit ⟨⟨1, true, 30⟩, true, true⟩ unit 2) rerun (.ok replayed) ∧
      Archive.Steps Archive.Answers later rerun final ∧ JudgedBy judge (happenings ++ rerun) ∧
      rerun = before ++ ⟨.validate variant (variant.fileName unit), verdict⟩ :: rest ∧
      asked before = [] ∧ variant.window = 2 ∧ variant.provenance.get? 2 = some 2 ∧
      replayed.windows.take 1 = outcome.windows.take 1 ∧
      ∃ state, replayed.repairs.get? 2 = some state ∧ state.status = .repaired ∧
        state.lastTried = 2 ∧ state.consumed = 0 := by
  intro unit judge
  let handler := Archive.answering (fun _ => .answer (.ok "x")) judge
  let start : Archive := ⟨.empty, fun _ => none⟩
  let first : Work UnitOutcome := onUnit ⟨⟨1, false, 30⟩, true, true⟩ unit 2
  let second : Work UnitOutcome := onUnit ⟨⟨1, true, 30⟩, true, true⟩ unit 2
  have chronicle : Chronicle start := .start start fun _ => rfl
  have steps := Archive.steps_answering (fun _ => .answer (.ok "x")) judge first start
  have came : (first.run handler start).1.toOption.any (·.haltedAt == some 2) = true ∧
      (first.run handler start).2.log.texts unit.id 2 = ["x"] := by decide +kernel
  obtain ⟨outcome, -, course, halts⟩ := course_of_run came.1
  have halted : outcome.haltedAt = some 2 := by simpa using halts
  have texts := came.2
  obtain ⟨later, put, grown, -⟩ :=
    (first.run handler start).2.exists_puts unit.id "y" (Nat.succ_ne_zero 1)
  rw [texts] at put grown
  have more : ((first.run handler start).2.log.texts unit.id 2).length <
      (later.log.texts unit.id 2).length := by
    rw [texts, grown]
    decide
  have between := Archive.Steps.cons put (.nil later)
  have judged : JudgedBy judge (first.trace handler start ++ second.trace handler later) :=
    (judgedBy_answering _ judge first start).append (judgedBy_answering _ judge second later)
  have resteps := Archive.steps_answering (fun _ => .answer (.ok "x")) judge second later
  obtain ⟨replayed, before, variant, verdict, rest, hreplayed, whole, unasked, -, window, uses, same, -,
    succeeds, -⟩ := rerun_resumes_halted_function chronicle course (steps.mono .inl) rfl halted between
      (by simp) more rfl rfl (Nat.le_refl 2) (course_trace handler second later) resteps judged
  have recourse := course_trace handler second later
  rw [hreplayed] at recourse
  rw [grown] at uses succeeds
  have accepted : verdict.isAccepted = true := by
    have own : verdict = judge variant (variant.fileName unit) := by
      apply judged
      rw [whole]
      exact List.mem_append_right _ (List.mem_append_right _ List.mem_cons_self)
    have newer : variant.provenance.get? 2 ≠ some 1 := by simp [uses]
    rw [own]
    simp only [judge, if_neg newer]
    decide
  exact ⟨start, _, outcome, _, later, _, replayed, _, before, variant, verdict, rest, chronicle, course,
    steps.mono .inl, halted, between, recourse, resteps, judged, whole, unasked, window, uses, same,
    succeeds accepted⟩

end Work

end Graft
