import Graft.Proofs.Work.Reads

/-!
What a run makes of earlier results. One that may use them asks for a first candidate only where none is
listed, and any other does not look at them at all: `looksBack_of_runs` says so of every run, whatever
checkpoint and store it meets. `earlier_results_used_only_when_cached` is what follows: without earlier
results the windows are made of what the run itself has put, and two runs that get the same replies,
verdicts and numbers are the same whatever was there before.
-/

namespace Graft

open Code Generation Work

/-- That no candidate for a request was listed, and that only this request was sent since. -/
def ListedNone (unit : UnitId) (request : Request) (earlier : List Happening) : Prop :=
  ∃ before since, earlier = before ++ ⟨.attempts unit request.ordinal, .ok []⟩ :: since ∧
    ∀ happening ∈ since, happening.1 = .ask request ∨ ∃ event, happening.1 = .tell event

/-- How an action may look at earlier results. A run that may use them asks for a first candidate only
where none was listed; one that may not neither lists candidates nor loads a checkpoint. -/
def Action.LooksBack (useCache : Bool) (unit : UnitId) (earlier : List Happening) : Action → Prop
  | .ask request => useCache = true → request.isRepair = false → ListedNone unit request earlier
  | .attempts .. => useCache = true
  | .loadCheckpoint _ => useCache = true
  | _ => True

/-- That what is replied and judged, and the numbers of the candidates that are put, follow from what
happened before. -/
def AnsweredBy (reply : List Happening → Request → Reply)
    (judge : List Happening → Variant → String → Verdict) (number : List Happening → UnitId → Nat → Nat) :
    List Happening → List Happening → Prop :=
  Throughout fun earlier happening =>
    match happening with
    | ⟨.ask request, answer⟩ => answer = reply earlier request
    | ⟨.validate variant fileName, answer⟩ => answer = judge earlier variant fileName
    | ⟨.put unit ordinal _, answer⟩ => answer = .ok (number earlier unit ordinal)
    | _ => True

namespace ListedNone

variable {unit : UnitId} {request : Request} {earlier : List Happening}

theorem snoc {happening : Happening} (listed : ListedNone unit request earlier)
    (same : happening.1 = .ask request ∨ ∃ event, happening.1 = .tell event) :
    ListedNone unit request (earlier ++ [happening]) := by
  obtain ⟨before, since, rfl, quiet⟩ := listed
  refine ⟨before, since ++ [happening], by simp, ?_⟩
  exact List.forall_mem_append.2 ⟨quiet, List.forall_mem_singleton.2 same⟩

/-- Where none was listed none is stored. -/
theorem texts {archive now : Archive} (listed : ListedNone unit request earlier)
    (steps : Archive.Steps Archive.Step archive earlier now) :
    now.log.texts unit request.ordinal = [] := by
  obtain ⟨before, since, rfl, quiet⟩ := listed
  obtain ⟨begun, -, later⟩ := Archive.steps_append_iff.1 steps
  obtain ⟨next, lists, rest⟩ := Archive.steps_cons_iff.1 later
  have stores := Archive.step_attempts lists rfl
  have none : begun.log.texts unit request.ordinal = [] := by
    rw [← List.length_eq_zero_iff]
    simpa using congrArg List.length stores.symm
  have listing : next.log = begun.log := Archive.log_of_step lists (by simp)
  have asking : now.log = next.log := by
    apply Archive.log_of_steps rest
    rintro happening member id ordinal text put
    rcases quiet happening member with ask | ⟨_, tell⟩
    · cases put.symm.trans ask
    · cases put.symm.trans tell
  rw [asking, listing, none]

end ListedNone

namespace Work

abbrev LooksBack (useCache : Bool) (unit : UnitId) : List Happening → List Happening → Prop :=
  Throughout fun earlier happening => happening.1.LooksBack useCache unit earlier

variable {policy : Policy} {settings : WorkSettings} {unit : SourceUnit} {spans : List Span}
  {happenings earlier : List Happening} {previous : Option Checkpoint} {useCache : Bool}

/-- A repair finds nothing to go on with only where nothing is stored. -/
theorem eq_nil_of_missing {state : RepairState} {stored : List Nat}
    (missing : continuation state stored = .missing) : stored = [] := by
  cases latest : stored.getLast? with
  | none => exact List.getLast?_eq_none_iff.1 latest
  | some attempt =>
      unfold continuation at missing
      simp only [latest] at missing
      split at missing
      · cases missing
      · split at missing
        · cases missing
        · split at missing <;> cases missing

theorem eq_nil_of_chosenAttempt? {ordinal : Nat} {stored : List Nat}
    (choice : chosenAttempt? previous ordinal stored = none) : stored = [] := by
  unfold chosenAttempt? at choice
  rw [← List.getLast?_eq_none_iff]
  cases kept : (previous.bind (·.selection.get? ordinal)).filter stored.contains with
  | none => simpa [kept] using choice
  | some attempt => simp [kept] at choice

theorem looksBack_of_firstCalls {id : UnitId} {request : Request} {remaining : Nat}
    {state : RepairState} {result : Except Failure FirstCandidate}
    (calls : FirstCalls policy request remaining state happenings result)
    (listed : useCache = true → ListedNone id request earlier) :
    LooksBack useCache id earlier happenings := by
  -- On the calls; one that came to nothing adds the request and what is told of it to the listing.
  induction calls generalizing earlier with
  | spent => exact .cons trivial .nil
  | notStored => exact .cons (fun cached _ => listed cached) (.cons trivial .nil)
  | stored => exact .cons (fun cached _ => listed cached) (.cons trivial (.cons trivial .nil))
  | rejected => exact .cons (fun cached _ => listed cached) (.cons trivial .nil)
  | again taken herror later ih =>
      refine .cons (fun cached _ => listed cached) (.cons trivial (ih ?_))
      intro cached
      exact ((listed cached).snoc (.inl rfl)).snoc (.inr ⟨_, rfl⟩)

/-- The search for a first attempt asks for a candidate only where none is listed. -/
theorem looksBack_of_firstAttempt {ordinal : Nat} {repairs : OrdinalMap RepairState}
    {result : Except Failure (Option Nat × OrdinalMap RepairState)}
    (attempts : FirstAttempt policy unit spans ordinal previous repairs useCache happenings result) :
    LooksBack useCache unit.id earlier happenings := by
  have fresh {calling : List Happening} {last : Except Failure (Option Nat × OrdinalMap RepairState)}
      (generates : Generates policy unit spans ordinal repairs calling last) :
      LooksBack true unit.id (earlier ++ [⟨.attempts unit.id ordinal, .ok []⟩]) calling := by
    obtain ⟨_, calls, -⟩ := generates
    apply looksBack_of_firstCalls calls
    exact fun _ => ⟨earlier, [], rfl, by simp⟩
  cases attempts with
  | uncached generates =>
      obtain ⟨_, calls, -⟩ := generates
      exact looksBack_of_firstCalls calls (by simp)
  | unlisted => exact .cons rfl .nil
  | kept => exact .cons rfl .nil
  | resumed => exact .cons rfl (.cons trivial .nil)
  | lost restored goesOn generates =>
      obtain rfl := eq_nil_of_missing goesOn
      exact .cons rfl (fresh generates)
  | chosen => exact .cons rfl .nil
  | fresh notRestored choice generates =>
      obtain rfl := eq_nil_of_chosenAttempt? choice
      exact .cons rfl (fresh generates)

theorem looksBack_of_merges {id : UnitId} {selection : Selection} {result : Except Failure Variant}
    (merges : Merges unit spans selection happenings result) :
    ∀ happening ∈ happenings, ∀ before, happening.1.LooksBack useCache id before := by
  intro happening member before
  obtain ⟨_, _, _, rfl⟩ := gets_of_merges merges happening member
  trivial

/-- A repair asks for no first candidate, and looks at no earlier result. -/
theorem looksBack_of_mendCalls {id : UnitId} {remaining : Nat} {mending : Mending}
    {result : Except Failure Mending}
    (calls : MendCalls policy unit spans remaining mending happenings result) :
    ∀ happening ∈ happenings, ∀ before, happening.1.LooksBack useCache id before := by
  have asks (mending : Mending) (prior : String) (reply : Reply) :
      ∀ happening ∈ called unit spans mending prior reply, ∀ before,
        happening.1.LooksBack useCache id before := by
    simp [called, told, Action.LooksBack]
  have puts (ordinal : Nat) (text : String) (attempt : Nat) :
      ∀ happening ∈ putAndTold unit ordinal text attempt, ∀ before,
        happening.1.LooksBack useCache id before := by
    simp [putAndTold, told, Action.LooksBack]
  induction calls with
  | spent => simp [toldTransition, told, Action.LooksBack]
  | priorMissing => simp [told, Action.LooksBack]
  | rejected mending prior taken =>
      refine List.forall_mem_append.2 ⟨asks mending prior _, ?_⟩
      simp [toldTransition, told, Action.LooksBack]
  | unanswered mending prior taken herror later ih =>
      refine List.forall_mem_append.2 ⟨asks mending prior _, ?_⟩
      simpa [told, Action.LooksBack] using ih
  | notStored mending prior error taken =>
      refine List.forall_mem_append.2 ⟨asks mending prior _, ?_⟩
      simp [Action.LooksBack]
  | notMerged mending prior attempt taken merges =>
      exact List.forall_mem_append.2 ⟨List.forall_mem_append.2
        ⟨asks mending prior _, puts _ _ attempt⟩, looksBack_of_merges merges⟩
  | accepted mending prior attempt taken merges isAccepted =>
      refine List.forall_mem_append.2 ⟨List.forall_mem_append.2 ⟨List.forall_mem_append.2
        ⟨asks mending prior _, puts _ _ attempt⟩, looksBack_of_merges merges⟩, ?_⟩
      simp [toldVerdict, toldTransition, told, Action.LooksBack]
  | stillFailing mending prior attempt taken merges notAccepted later ih =>
      refine List.forall_mem_append.2 ⟨List.forall_mem_append.2 ⟨List.forall_mem_append.2
        ⟨asks mending prior _, puts _ _ attempt⟩, looksBack_of_merges merges⟩, ?_⟩
      simpa [toldVerdict, told, Action.LooksBack] using ih

theorem looksBack_of_windowSettles {id : UnitId} {ordinal attempt : Nat} {progress : Progress}
    {result : Except Failure Progress}
    (settles : WindowSettles settings unit spans ordinal attempt progress happenings result) :
    ∀ happening ∈ happenings, ∀ before, happening.1.LooksBack useCache id before := by
  cases settles with
  | notMerged merges => exact looksBack_of_merges merges
  | accepted merges isAccepted settles =>
      refine List.forall_mem_append.2 ⟨looksBack_of_merges merges, ?_⟩
      cases settles <;> simp [toldVerdict, toldTransition, told, Action.LooksBack]
  | rejected merges notAccepted mends =>
      refine List.forall_mem_append.2 ⟨looksBack_of_merges merges, ?_⟩
      cases mends with
      | unwanted => simp [toldVerdict, toldTransition, told, Action.LooksBack]
      | wanted fix calls =>
          have mending := @looksBack_of_mendCalls _ _ _ _ useCache id _ _ _ calls
          simpa [toldVerdict, told, Action.LooksBack] using mending

theorem looksBack_of_window {ordinal : Nat} {progress : Progress} {result : Except Failure Progress}
    (window : Window settings unit spans previous ordinal progress happenings result) :
    LooksBack settings.useCache unit.id earlier happenings := by
  cases window with
  | noFirst attempts => exact looksBack_of_firstAttempt attempts
  | noAttempt attempts => exact looksBack_of_firstAttempt attempts
  | settled attempts settles =>
      refine throughout_append_iff.2 ⟨looksBack_of_firstAttempt attempts, ?_⟩
      exact throughout_of_forall (looksBack_of_windowSettles settles)

theorem looksBack_of_grows {ordinals : List Nat} {progress : Progress}
    {result : Except Failure Progress}
    (grows : Grows settings unit spans previous ordinals progress happenings result) :
    LooksBack settings.useCache unit.id earlier happenings := by
  induction grows generalizing earlier with
  | done => exact .nil
  | failed window => exact looksBack_of_window window
  | halted window => exact looksBack_of_window window
  | further window goesOn later ih =>
      exact throughout_append_iff.2 ⟨looksBack_of_window window, ih⟩

/-- A run that may use earlier results asks for a first candidate only where none is listed; any other
looks at no earlier result. -/
theorem looksBack_of_runs {mergeBack : Nat} {result : Except Failure UnitOutcome}
    (runs : Runs settings unit mergeBack happenings result) :
    LooksBack settings.useCache unit.id earlier happenings := by
  apply throughout_of_runs runs
  · exact fun _ _ => trivial
  · exact fun _ _ cached => cached
  · exact fun _ _ _ => trivial
  · exact fun _ _ _ _ => trivial
  · intro _ _ _ _ _ _ _ _ _ _ _ _ grows
    exact looksBack_of_grows grows

/-- A run that may not use earlier results knows of no attempts but those that it has put. -/
theorem put_of_known {id : UnitId} {ordinal attempt : Nat}
    (looks : LooksBack false unit.id earlier happenings) (known : Known id happenings ordinal attempt) :
    ∃ text, ⟨.put id ordinal text, .ok attempt⟩ ∈ happenings := by
  cases known with
  | put member => exact ⟨_, member⟩
  | listed member =>
      obtain ⟨before, later, rfl⟩ := List.append_of_mem member
      have cached : false = true := looks.of_split
      cases cached

section Uncached

variable {mergeBack : Nat} {result otherwise : Except Failure UnitOutcome}

/-- Without earlier results the windows are made of what was put in the run. -/
theorem put_of_uncached {outcome : UnitOutcome} {window : WindowOutcome} {ordinal attempt : Nat}
    (runs : Runs settings unit mergeBack happenings (.ok outcome))
    (uncached : settings.useCache = false) (member : window ∈ outcome.windows)
    (named : window.variant.provenance.get? ordinal = some attempt) :
    ∃ text, ⟨.put unit.id ordinal text, .ok attempt⟩ ∈ happenings := by
  have uses := usesKnown_of_runs runs (restoring_of_uncached uncached)
  have looks : LooksBack settings.useCache unit.id [] happenings := looksBack_of_runs runs
  obtain ⟨before, later, rfl⟩ := List.append_of_mem (judged_of_runs runs window member)
  have known : Known unit.id before ordinal attempt := uses.of_split.2 ordinal attempt named
  rw [uncached] at looks
  exact put_of_known looks (known.of_subset (List.subset_append_left _ _))

/-- What a run reads back is what it has put. -/
theorem read_of_put {archive after : Archive} {before later : List Happening} {id : UnitId}
    {ordinal attempt : Nat} {text : String} {answer : Except StoreError String}
    (steps : Archive.Steps Archive.Answers archive
      (before ++ ⟨.get id ordinal attempt, answer⟩ :: later) after)
    (put : ⟨.put id ordinal text, .ok attempt⟩ ∈ before) : answer = .ok text := by
  obtain ⟨now, first, rest⟩ := Archive.steps_append_iff.1 steps
  obtain ⟨_, get, -⟩ := Archive.steps_cons_iff.1 rest
  cases get
  exact Archive.get_of_put (first.mono .inl) put

/-- Two runs without earlier results do not part where replies, verdicts and numbers are the same. -/
theorem answer_of_uncached {reply : List Happening → Request → Reply}
    {judge : List Happening → Variant → String → Verdict} {number : List Happening → UnitId → Nat → Nat}
    {archive after other final : Archive} {before later rest : List Happening} {action : Action}
    {answer different : action.Answer} (uncached : settings.useCache = false)
    (runs : Runs settings unit mergeBack (before ++ ⟨action, answer⟩ :: later) result)
    (steps : Archive.Steps Archive.Answers archive (before ++ ⟨action, answer⟩ :: later) after)
    (resteps : Archive.Steps Archive.Answers other (before ++ ⟨action, different⟩ :: rest) final)
    (answered : AnsweredBy reply judge number [] (before ++ ⟨action, answer⟩ :: later))
    (reanswered : AnsweredBy reply judge number [] (before ++ ⟨action, different⟩ :: rest)) :
    answer = different := by
  have uses := usesKnown_of_runs runs (restoring_of_uncached uncached)
  have looks : LooksBack settings.useCache unit.id [] (before ++ ⟨action, answer⟩ :: later) :=
    looksBack_of_runs runs
  rw [uncached] at looks
  have now := answered.of_split
  have again := reanswered.of_split
  cases action with
  | put => exact now.trans again.symm
  | ask => exact now.trans again.symm
  | validate => exact now.trans again.symm
  | get id ordinal attempt =>
      -- What is read was put before the runs part, with one text in both.
      obtain ⟨rfl, known⟩ := uses.of_split
      obtain ⟨text, put⟩ := put_of_known (throughout_append_iff.1 looks).1 known
      exact (read_of_put steps put).trans (read_of_put resteps put).symm
  | attempts =>
      have cached : false = true := looks.of_split
      cases cached
  | loadCheckpoint =>
      have cached : false = true := looks.of_split
      cases cached
  | saveCheckpoint =>
      obtain ⟨_, -, first⟩ := Archive.steps_append_iff.1 steps
      obtain ⟨_, save, -⟩ := Archive.steps_cons_iff.1 first
      obtain ⟨_, -, second⟩ := Archive.steps_append_iff.1 resteps
      obtain ⟨_, saved, -⟩ := Archive.steps_cons_iff.1 second
      cases save
      cases saved
      rfl
  | tell => rfl

/-- What a run makes of earlier results, whatever checkpoint and store it meets. If it may use them, it
asks for a first candidate of a function only if none was listed when the window of the function began,
and none is stored when it asks. If it may not, each attempt in the windows that it reports was put in
this run; and two such runs over any two archives are the same, in all that happens and in what they come
to, if they get the same replies, verdicts and numbers of candidates. -/
theorem earlier_results_used_only_when_cached
    (course : Course (onUnit settings unit mergeBack) happenings result) :
    (settings.useCache = true → ∀ before request reply later,
      happenings = before ++ ⟨.ask request, reply⟩ :: later → request.isRepair = false →
      ListedNone unit.id request before ∧
        ∀ archive now, Archive.Steps Archive.Step archive before now →
          now.log.texts unit.id request.ordinal = []) ∧
    (settings.useCache = false →
      (∀ outcome, result = .ok outcome → ∀ window ∈ outcome.windows, ∀ ordinal attempt,
        window.variant.provenance.get? ordinal = some attempt →
        ∃ text, ⟨.put unit.id ordinal text, .ok attempt⟩ ∈ happenings) ∧
      ∀ others otherwise archive after other final reply judge number,
        Course (onUnit settings unit mergeBack) others otherwise →
        Archive.Steps Archive.Answers archive happenings after →
        Archive.Steps Archive.Answers other others final →
        AnsweredBy reply judge number [] happenings → AnsweredBy reply judge number [] others →
        happenings = others ∧ result = otherwise) := by
  have runs := runs_of_course course
  refine ⟨?_, fun uncached => ⟨?_, ?_⟩⟩
  · rintro cached before request reply later rfl first
    have looks : LooksBack settings.useCache unit.id []
        (before ++ ⟨.ask request, reply⟩ :: later) := looksBack_of_runs runs
    have listed : ListedNone unit.id request before := looks.of_split cached first
    exact ⟨listed, fun archive now steps => listed.texts steps⟩
  · rintro outcome rfl window member ordinal attempt named
    exact put_of_uncached runs uncached member named
  · intro others otherwise archive after other final reply judge number recourse steps resteps answered
      reanswered
    rcases eq_or_parts_of_courses course recourse with
      same | ⟨before, action, answer, different, later, rest, rfl, rfl, parts⟩
    · exact same
    · exact absurd (answer_of_uncached uncached runs steps resteps answered reanswered) parts

/-- A function whose candidate differs from one archive to the other: a run that may not use it puts the
same second candidate in both, and takes the same course. One that may, asks where none is stored. -/
theorem earlier_results_used_only_when_cached_for_function :
    let unit : SourceUnit := ⟨"f.c", "int f(void) { return 1; }", ["f"], 1⟩
    let empty : Archive := ⟨.empty, fun _ => none⟩
    let archive : Archive := empty.put unit.id 1 "a"
    let other : Archive := (empty.put unit.id 1 "b").keep ⟨unit.id, ∅, ∅, default⟩
    let cached : Work UnitOutcome := onUnit ⟨⟨1, true, 30⟩, true, true⟩ unit 1
    let uncached : Work UnitOutcome := onUnit ⟨⟨1, true, 30⟩, false, true⟩ unit 1
    (∃ happenings result before request reply later, Course cached happenings result ∧
      happenings = before ++ ⟨.ask request, reply⟩ :: later ∧ request.isRepair = false ∧
      ListedNone unit.id request before) ∧
    ∃ happenings outcome others otherwise after final, Course uncached happenings (.ok outcome) ∧
      Course uncached others otherwise ∧ Archive.Steps Archive.Answers archive happenings after ∧
      Archive.Steps Archive.Answers other others final ∧ outcome.windows.length = 1 ∧
      (∀ window ∈ outcome.windows, ∀ ordinal attempt,
        window.variant.provenance.get? ordinal = some attempt →
        ∃ text, ⟨.put unit.id ordinal text, .ok attempt⟩ ∈ happenings) ∧
      happenings = others ∧ .ok outcome = otherwise := by
  intro unit empty archive other cached uncached
  let verdict : Verdict := .compiled [] [] .zero .succeeded ""
  let handler := Archive.answering (fun _ => .answer (.ok "x")) fun _ _ => verdict
  have answered (world : Archive)
      (second : (uncached.trace handler world).all (fun happening =>
        match happening with
        | ⟨.put .., .ok attempt⟩ => attempt == 2
        | ⟨.put .., .error _⟩ => false
        | _ => true) = true) :
      AnsweredBy (fun _ _ => .answer (.ok "x")) (fun _ _ _ => verdict) (fun _ _ _ => 2) []
        (uncached.trace handler world) := by
    apply throughout_of_forall
    rintro ⟨action, answer⟩ member earlier
    obtain ⟨_, same⟩ := answer_of_mem_trace member
    have number := List.all_eq_true.1 second _ member
    cases action with
    | ask => exact same
    | validate => exact same
    | put =>
        cases answer with
        | ok attempt => simpa using number
        | error => cases number
    | _ => trivial
  have here := answered archive (by decide +kernel)
  have there := answered other (by decide +kernel)
  have came : (uncached.run handler archive).1.toOption.any (·.windows.length == 1) = true := by
    decide +kernel
  obtain ⟨outcome, -, course, windows⟩ := course_of_run came
  have steps := Archive.steps_answering (fun _ => .answer (.ok "x")) (fun _ _ => verdict) uncached
  have recourse := course_trace handler uncached other
  obtain ⟨-, alone⟩ := earlier_results_used_only_when_cached course
  obtain ⟨puts, alike⟩ := alone rfl
  obtain ⟨same, result⟩ := alike _ _ _ _ _ _ _ _ _ recourse (steps archive) (steps other) here there
  have asks : (asked (cached.trace handler empty)).map (·.isRepair) = [false] := by decide +kernel
  obtain ⟨request, member, first⟩ : ∃ request ∈ asked (cached.trace handler empty),
      request.isRepair = false := by
    apply List.mem_map.1
    rw [asks]
    exact List.mem_singleton_self false
  obtain ⟨⟨action, reply⟩, happened, sent⟩ := List.mem_filterMap.1 member
  cases action with
  | ask =>
      cases sent
      obtain ⟨before, later, split⟩ := List.append_of_mem happened
      have looks := (earlier_results_used_only_when_cached (course_trace handler cached empty)).1
      obtain ⟨listed, -⟩ := looks rfl before request reply later split first
      exact ⟨⟨_, _, before, request, reply, later, course_trace handler cached empty, split, first,
        listed⟩, _, outcome, _, _, _, _, course, recourse, steps archive, steps other,
        by simpa using windows, puts outcome rfl, same, result⟩
  | _ => cases sent

end Uncached

end Work

end Graft
