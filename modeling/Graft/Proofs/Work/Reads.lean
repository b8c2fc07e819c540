import Graft.Proofs.Work.Grounds

/-!
Which attempts a run uses. `UsesKnown` is the statement that a candidate is read only if what
happened before tells of it, and that a variant which is validated is made of such candidates, one for
each function of its window. `usesKnown_of_runs` says so of every run that goes on with a checkpoint
which is borne out (`Restores`), and `judged_of_runs` that each window a run reports was validated.
-/

namespace Graft

open Code Generation Work

def SelectionKnown (unit : UnitId) (selection : Selection) (happenings : List Happening) : Prop :=
  ∀ ordinal attempt, selection.get? ordinal = some attempt → Known unit happenings ordinal attempt

namespace SelectionKnown

variable {unit : UnitId} {selection : Selection} {happenings rest : List Happening}

theorem of_subset (known : SelectionKnown unit selection rest) (part : rest ⊆ happenings) :
    SelectionKnown unit selection happenings := by
  intro ordinal attempt hget
  exact (known ordinal attempt hget).of_subset part

theorem insert (known : SelectionKnown unit selection happenings) {ordinal attempt : Nat}
    (new : Known unit happenings ordinal attempt) :
    SelectionKnown unit (OrdinalMap.insert selection ordinal attempt) happenings := by
  intro other found hget
  rw [OrdinalMap.get?_insert] at hget
  split at hget
  · next same =>
      obtain rfl := Option.some.inj hget
      exact same ▸ new
  · exact known other found hget

end SelectionKnown

/-- What an action may use: candidates of the unit that what happened before tells of, and a variant
that is made of such, one for each function of its window. -/
def Action.UsesKnown (unit : UnitId) (earlier : List Happening) : Action → Prop
  | .get id ordinal attempt => id = unit ∧ Known unit earlier ordinal attempt
  | .validate variant _ =>
      OrdinalMap.keys variant.provenance = List.range' 1 variant.window ∧
        SelectionKnown unit variant.provenance earlier
  | _ => True

structure Restores (unit : UnitId) (previous : Option Checkpoint) (happenings : List Happening) :
    Prop where
  numbered : Numbered previous
  lasting : Lasting unit previous happenings
  traced : Traced unit previous happenings

namespace Restores

variable {unit : UnitId} {previous : Option Checkpoint} {happenings rest : List Happening}

theorem none : Restores unit none happenings :=
  ⟨by simp [Numbered], by simp [Lasting], by simp [Traced]⟩

theorem of_subset (restores : Restores unit previous happenings) (part : rest ⊆ happenings) :
    Restores unit previous rest :=
  ⟨restores.numbered, restores.lasting.of_subset part, restores.traced.of_subset part⟩

end Restores

def Restoring (settings : WorkSettings) (unit : SourceUnit) (happenings : List Happening) : Prop :=
  ∀ previous event loading rest, happenings = told event :: (loading ++ rest) →
    Loads settings unit loading (.ok previous) → Restores unit.id previous happenings

section Restoring

variable {settings : WorkSettings} {unit : SourceUnit} {happenings : List Happening}

/-- A run that may not use earlier runs loads no checkpoint. -/
theorem restoring_of_uncached (uncached : settings.useCache = false) :
    Restoring settings unit happenings := by
  intro previous event loading rest _ loads
  cases loads with
  | unused =>
      exact .none
  | loaded kept => simp [uncached] at kept

/-- A run over an archive to which runs can come loads what earlier runs left. -/
theorem restoring_of_archive {archive after : Archive} (sound : archive.Sound unit.id)
    (retains : archive.Retains unit.id)
    (steps : Archive.Steps Archive.Step archive happenings after) :
    Restoring settings unit happenings := by
  rintro previous event loading rest rfl loads
  have stages : told event :: (loading ++ rest) = told event :: (loading ++ rest ++ [] ++ []) := by
    simp
  rcases previous_of_loads loads (stages ▸ steps) with rfl | rfl
  · exact .none
  · exact ⟨sound.numbered, sound.lasting steps, retains.listed steps⟩

end Restoring

def WindowOutcome.Judged (unit : SourceUnit) (happenings : List Happening) (outcome : WindowOutcome) :
    Prop :=
  ⟨.validate outcome.variant (outcome.variant.fileName unit), outcome.verdict⟩ ∈ happenings

namespace Work

abbrev UsesKnown (unit : UnitId) : List Happening → List Happening → Prop :=
  Throughout fun earlier happening => happening.1.UsesKnown unit earlier

variable {policy : Policy} {settings : WorkSettings} {unit : SourceUnit} {spans : List Span}
  {happenings earlier : List Happening} {previous : Option Checkpoint}

theorem usesKnown_of_fetches {id : UnitId} {entries : List (Nat × Nat)}
    {result : Except Failure (List (Nat × String))} (fetches : Fetches id entries happenings result)
    (known : ∀ entry ∈ entries, Known id earlier entry.1 entry.2) :
    UsesKnown id earlier happenings := by
  induction fetches generalizing earlier with
  | nil => exact .nil
  | missing error => exact .cons ⟨rfl, known _ List.mem_cons_self⟩ .nil
  | cons text later ih =>
      obtain ⟨hfirst, hrest⟩ := List.forall_mem_cons.1 known
      refine .cons ⟨rfl, hfirst⟩ (ih ?_)
      intro entry member
      exact (hrest entry member).of_subset (List.subset_append_left _ _)

theorem usesKnown_of_merges {selection : Selection} {result : Except Failure Variant}
    (merges : Merges unit spans selection happenings result)
    (known : SelectionKnown unit.id selection earlier) : UsesKnown unit.id earlier happenings := by
  cases merges with
  | unfit => exact .nil
  | fetched check fetches =>
      apply usesKnown_of_fetches fetches
      rintro ⟨ordinal, attempt⟩ member
      exact known ordinal attempt (OrdinalMap.mem_entries_iff.1 member)

/-- A call of a repair reads the attempt that is selected for its function. -/
theorem usesKnown_of_called {mending : Mending} (spans : List Span) (prior : String) (reply : Reply)
    (tried : mending.Tried) (known : SelectionKnown unit.id mending.selection earlier) :
    UsesKnown unit.id earlier (called unit spans mending prior reply) := by
  have last : Known unit.id earlier mending.state.ordinal mending.state.lastTried :=
    known _ _ tried
  refine .cons trivial (.cons ⟨rfl, ?_⟩ (.cons trivial .nil))
  exact last.of_subset (List.subset_append_left _ _)

/-- A variant that is merged from known attempts may be validated, and then the work goes on. -/
theorem usesKnown_of_judged {last : Nat} {selection : Selection} {trying merging rest : List Happening}
    {variant : Variant} {fileName : String} {verdict : Verdict}
    (merges : Merges unit spans selection merging (.ok variant))
    (selected : OrdinalMap.keys selection = List.range' 1 last)
    (known : SelectionKnown unit.id selection (earlier ++ trying))
    (now : UsesKnown unit.id earlier trying)
    (later : ∀ before, earlier ++ trying ⊆ before → UsesKnown unit.id before rest) :
    UsesKnown unit.id earlier (trying ++ merging ++
      ⟨.validate variant fileName, verdict⟩ :: toldVerdict unit variant verdict :: rest) := by
  obtain ⟨hwindow, provenance⟩ := (concerns_of_merges merges selected).2 variant rfl
  rw [List.append_assoc]
  refine throughout_append_iff.2 ⟨now, throughout_append_iff.2 ⟨?_, .cons ⟨?_, ?_⟩ (.cons trivial ?_)⟩⟩
  · exact usesKnown_of_merges merges known
  · rw [provenance, hwindow, selected]
  · rw [provenance]
    exact known.of_subset (List.subset_append_left _ _)
  · apply later
    intro happening member
    simp only [List.mem_append] at member ⊢
    exact .inl (.inl (.inl member))

/-- A call that brings a candidate puts it, and may select it from then on. -/
theorem usesKnown_of_put {mending : Mending} (spans : List Span) (prior text : String) (reply : Reply)
    (attempt : Nat) (tried : mending.Tried)
    (known : SelectionKnown unit.id mending.selection earlier) :
    UsesKnown unit.id earlier (called unit spans mending prior reply ++
        putAndTold unit mending.state.ordinal text attempt) ∧
      SelectionKnown unit.id (mending.select attempt) (earlier ++
        (called unit spans mending prior reply ++
          putAndTold unit mending.state.ordinal text attempt)) := by
  constructor
  · have asks := usesKnown_of_called spans prior reply tried known
    exact throughout_append_iff.2 ⟨asks, .cons trivial (.cons trivial .nil)⟩
  · have new : Known unit.id (putAndTold unit mending.state.ordinal text attempt)
        mending.state.ordinal attempt := known_of_putAndTold
    apply (known.of_subset (List.subset_append_left _ _)).insert
    apply new.of_subset
    intro happening member
    simp [member]

/-- A repair uses what is known when it begins, and what its own calls put. -/
theorem usesKnown_of_mendCalls {last remaining : Nat} {mending : Mending}
    {result : Except Failure Mending}
    (calls : MendCalls policy unit spans remaining mending happenings result)
    (h : mending.At last) (tried : mending.Tried)
    (known : SelectionKnown unit.id mending.selection earlier) :
    UsesKnown unit.id earlier happenings := by
  -- On the calls; a candidate that is put is known to the calls behind it.
  induction calls generalizing earlier with
  | spent => exact .cons trivial .nil
  | priorMissing mending error =>
      have last : Known unit.id earlier mending.state.ordinal mending.state.lastTried :=
        known _ _ tried
      exact .cons trivial (.cons ⟨rfl, last.of_subset (List.subset_append_left _ _)⟩ .nil)
  | @rejected _ mending prior reply _ taken =>
      have asks := usesKnown_of_called spans prior reply tried known
      exact throughout_append_iff.2 ⟨asks, .cons trivial .nil⟩
  | @unanswered _ mending prior reply _ _ _ _ taken herror later ih =>
      have asks := usesKnown_of_called spans prior reply tried known
      refine throughout_append_iff.2 ⟨asks, .cons trivial ?_⟩
      apply ih (h.unanswered _) tried
      exact (known.of_subset (List.subset_append_left _ _)).of_subset (List.subset_append_left _ _)
  | @notStored _ mending prior reply _ error taken =>
      have asks := usesKnown_of_called spans prior reply tried known
      exact throughout_append_iff.2 ⟨asks, .cons trivial .nil⟩
  | notMerged mending prior attempt taken merges =>
      obtain ⟨trying, selects⟩ := usesKnown_of_put spans prior _ _ attempt tried known
      exact throughout_append_iff.2 ⟨trying, usesKnown_of_merges merges selects⟩
  | accepted mending prior attempt taken merges isAccepted =>
      obtain ⟨trying, selects⟩ := usesKnown_of_put spans prior _ _ attempt tried known
      apply usesKnown_of_judged merges (h.keys_select attempt) selects trying
      intro before _
      exact .cons trivial .nil
  | @stillFailing _ mending prior _ _ attempt _ _ variant verdict _ taken merges notAccepted later
      ih =>
      obtain ⟨trying, selects⟩ := usesKnown_of_put spans prior _ _ attempt tried known
      apply usesKnown_of_judged merges (h.keys_select attempt) selects trying
      intro before part
      have again : (mending.stillFailing attempt variant verdict).Tried :=
        OrdinalMap.get?_insert_self _ _ _
      exact ih (h.stillFailing attempt _ _) again (selects.of_subset part)

/-- A window uses what is known when it begins, and what is put in it. -/
theorem usesKnown_of_windowSettles {last attempt : Nat} {progress : Progress}
    {result : Except Failure Progress}
    (settles : WindowSettles settings unit spans (last + 1) attempt progress happenings result)
    (selected : OrdinalMap.keys progress.selection = List.range' 1 last)
    (numbered : NumberedUpTo (last + 1) progress.repairs)
    (tried : ∀ state, progress.repairs.get? (last + 1) = some state → state.lastTried = attempt)
    (known : SelectionKnown unit.id (progress.selection.insert (last + 1) attempt) earlier) :
    UsesKnown unit.id earlier happenings := by
  have hselected := keys_insert_succ selected attempt
  have nothing : UsesKnown unit.id earlier [] := .nil
  cases settles with
  | notMerged merges => exact usesKnown_of_merges merges known
  | accepted merges isAccepted settles =>
      apply usesKnown_of_judged merges hselected (by simpa using known) nothing
      intro before _
      cases settles with
      | untouched => exact .nil
      | repaired => exact .cons trivial .nil
  | rejected merges notAccepted mends =>
      apply usesKnown_of_judged merges hselected (by simpa using known) nothing
      intro before part
      rw [List.append_nil] at part
      cases mends with
      | unwanted => exact .cons trivial .nil
      | wanted fix calls =>
          exact usesKnown_of_mendCalls calls
            ⟨Nat.succ_pos last, ordinal_repairFor numbered, hselected⟩
            (tried_repairFor numbered tried) (known.of_subset part)

theorem usesKnown_of_firstCalls {id : UnitId} {request : Request} {remaining : Nat}
    {state : RepairState} {result : Except Failure FirstCandidate}
    (calls : FirstCalls policy request remaining state happenings result) :
    UsesKnown id earlier happenings := by
  induction calls generalizing earlier with
  | spent => exact .cons trivial .nil
  | notStored => exact .cons trivial (.cons trivial .nil)
  | stored => exact .cons trivial (.cons trivial (.cons trivial .nil))
  | rejected => exact .cons trivial (.cons trivial .nil)
  | again taken herror later ih => exact .cons trivial (.cons trivial ih)

/-- The search for a first attempt reads no candidate. -/
theorem usesKnown_of_firstAttempt {id : UnitId} {ordinal : Nat} {repairs : OrdinalMap RepairState}
    {useCache : Bool} {result : Except Failure (Option Nat × OrdinalMap RepairState)}
    (attempts : FirstAttempt policy unit spans ordinal previous repairs useCache happenings result) :
    UsesKnown id earlier happenings := by
  cases attempts with
  | uncached generates =>
      obtain ⟨_, calls, -⟩ := generates
      exact usesKnown_of_firstCalls calls
  | unlisted => exact .cons trivial .nil
  | kept => exact .cons trivial .nil
  | resumed => exact .cons trivial (.cons trivial .nil)
  | lost restored goesOn generates =>
      obtain ⟨_, calls, -⟩ := generates
      exact .cons trivial (usesKnown_of_firstCalls calls)
  | chosen => exact .cons trivial .nil
  | fresh notRestored choice generates =>
      obtain ⟨_, calls, -⟩ := generates
      exact .cons trivial (usesKnown_of_firstCalls calls)

theorem usesKnown_of_window {last : Nat} {progress : Progress} {result : Except Failure Progress}
    (window : Window settings unit spans previous (last + 1) progress happenings result)
    (restores : Restores unit.id previous happenings) (reached : Reached last progress)
    (known : SelectionKnown unit.id progress.selection earlier) :
    UsesKnown unit.id earlier happenings := by
  cases window with
  | noFirst attempts => exact usesKnown_of_firstAttempt attempts
  | noAttempt attempts => exact usesKnown_of_firstAttempt attempts
  | @settled attempt first settling _ _ attempts settles =>
      have part := restores.of_subset (List.subset_append_left first settling)
      have begins := begins_of_firstAttempt attempts
      have fresh := reached.numbered.get?_succ
      have numbered := numbered_of_firstAttempt attempts restores.numbered reached.numbered
      have tried := lastTried_of_begins begins part.traced fresh
      have begun := (known_of_begins begins part.lasting fresh).1
      refine throughout_append_iff.2 ⟨usesKnown_of_firstAttempt attempts, ?_⟩
      apply usesKnown_of_windowSettles settles reached.selected numbered tried
      apply (known.of_subset (List.subset_append_left _ _)).insert
      exact begun.of_subset (List.subset_append_right _ _)

/-- Growing uses what is known when it begins, and what is listed and put on the way. -/
theorem usesKnown_of_grows {last count : Nat} {progress : Progress} {result : Except Failure Progress}
    (grows : Grows settings unit spans previous (List.range' (last + 1) count) progress happenings
      result)
    (restores : Restores unit.id previous happenings) (grown : Grown unit.id last progress earlier) :
    UsesKnown unit.id earlier happenings := by
  induction count generalizing last progress earlier happenings with
  | zero =>
      cases grows
      exact .nil
  | succ count ih =>
      rw [List.range'_succ] at grows
      cases grows with
      | failed window => exact usesKnown_of_window window restores grown.toReached grown.known
      | halted window => exact usesKnown_of_window window restores grown.toReached grown.known
      | further window goesOn later =>
          have first := restores.of_subset (List.subset_append_left _ _)
          have rest := restores.of_subset (List.subset_append_right _ _)
          have reached := reached_of_window window restores.numbered grown.toReached goesOn
          have now := usesKnown_of_window window first grown.toReached grown.known
          rcases accepts_or_halts_of_window window first.numbered first.lasting grown.toReached with
            accepts | halts
          · exact throughout_append_iff.2 ⟨now, ih later rest (grown.accepts accepts reached)⟩
          · exact absurd goesOn (by simp [halts.haltedAt])

/-- A run that goes on with a checkpoint which is borne out uses what it was told of. -/
theorem usesKnown_of_runs {mergeBack : Nat} {result : Except Failure UnitOutcome}
    (runs : Runs settings unit mergeBack happenings result)
    (restoring : Restoring settings unit happenings) : UsesKnown unit.id [] happenings := by
  apply throughout_of_runs runs
  · exact fun _ _ => trivial
  · exact fun _ _ _ => trivial
  · exact fun _ _ _ => ⟨rfl, fun _ _ hget => nomatch hget⟩
  · exact fun _ _ _ _ => trivial
  · intro spans loading opening growing closing previous windows grown before whole loads opens grows
    have restores := restoring previous _ loading (opening ++ growing ++ closing)
      (by simpa only [List.append_assoc] using whole) loads
    have borneOut : Restores unit.id previous growing :=
      restores.of_subset fun _ member => by simp [whole, member]
    cases opens with
    | unchanged none =>
        rw [none] at grows
        cases grows
        exact .nil
    | none some =>
        have start : Grown unit.id 0 ⟨∅, ∅, [], none⟩ before :=
          Grown.zero.of_subset (List.nil_subset _)
        exact usesKnown_of_grows grows borneOut start

section Judged

theorem judged_of_mendCalls {remaining : Nat} {mending : Mending} {result : Except Failure Mending}
    (calls : MendCalls policy unit spans remaining mending happenings result) :
    ∀ mended, result = .ok mended →
      (mended.variant = mending.variant ∧ mended.verdict = mending.verdict) ∨
        ⟨.validate mended.variant (mended.variant.fileName unit), mended.verdict⟩ ∈ happenings := by
  induction calls with
  | spent =>
      rintro _ ⟨⟩
      exact .inl ⟨rfl, rfl⟩
  | priorMissing => simp
  | rejected =>
      rintro _ ⟨⟩
      exact .inl ⟨rfl, rfl⟩
  | unanswered mending prior taken herror later ih =>
      intro mended h
      refine (ih mended h).imp_right fun member => ?_
      exact List.mem_append_right _ (List.mem_cons_of_mem _ member)
  | notStored => simp
  | notMerged => simp
  | accepted mending prior attempt taken merges isAccepted =>
      rintro _ ⟨⟩
      exact .inr (List.mem_append_right _ List.mem_cons_self)
  | stillFailing mending prior attempt taken merges notAccepted later ih =>
      intro mended h
      right
      apply List.mem_append_right
      rcases ih mended h with ⟨sameVariant, sameVerdict⟩ | member
      · rw [sameVariant, sameVerdict]
        exact List.mem_cons_self
      · exact List.mem_cons_of_mem _ (List.mem_cons_of_mem _ member)

/-- A window adds itself to the windows, as it was validated last. -/
theorem judged_of_windowSettles {ordinal attempt : Nat} {progress : Progress}
    {result : Except Failure Progress}
    (settles : WindowSettles settings unit spans ordinal attempt progress happenings result) :
    ∀ after, result = .ok after → ∃ outcome : WindowOutcome,
      after.windows = progress.windows ++ [outcome] ∧ outcome.Judged unit happenings := by
  cases settles with
  | notMerged => simp
  | accepted merges isAccepted settles =>
      rintro _ ⟨⟩
      exact ⟨_, rfl, List.mem_append_right _ List.mem_cons_self⟩
  | @rejected merging mending variant verdict mended merges notAccepted mends =>
      cases mended with
      | error => simp [Except.map]
      | ok mended =>
          rintro _ ⟨⟩
          refine ⟨_, rfl, List.mem_append_right _ ?_⟩
          cases mends with
          | unwanted =>
              exact List.mem_cons_self
          | wanted fix calls =>
              rcases judged_of_mendCalls calls mended rfl with ⟨same, sameVerdict⟩ | member
              · rw [same, sameVerdict]
                exact List.mem_cons_self
              · exact List.mem_cons_of_mem _ (List.mem_cons_of_mem _ member)

theorem judged_of_grows {ordinals : List Nat} {progress : Progress} {result : Except Failure Progress}
    (grows : Grows settings unit spans previous ordinals progress happenings result) :
    ∀ after, result = .ok after → ∀ outcome ∈ after.windows,
      outcome ∈ progress.windows ∨ outcome.Judged unit happenings := by
  have windows {ordinal : Nat} {progress after : Progress} {first : List Happening}
      (window : Window settings unit spans previous ordinal progress first (.ok after)) :
      ∀ outcome ∈ after.windows, outcome ∈ progress.windows ∨ outcome.Judged unit first := by
    intro outcome member
    cases window with
    | noAttempt =>
        exact .inl member
    | settled attempts settles =>
        obtain ⟨added, same, judged⟩ := judged_of_windowSettles settles after rfl
        rw [same] at member
        rcases List.mem_append.1 member with earlier | now
        · exact .inl earlier
        · obtain rfl := List.mem_singleton.1 now
          exact .inr (List.mem_append_right _ judged)
  induction grows with
  | done =>
      rintro _ ⟨⟩ outcome member
      exact .inl member
  | failed => simp
  | halted window =>
      rintro _ ⟨⟩
      exact windows window
  | further window goesOn later ih =>
      intro after h outcome member
      rcases ih after h outcome member with before | judged
      · exact (windows window outcome before).imp_right (List.mem_append_left _)
      · exact .inr (List.mem_append_right _ judged)

/-- Each window that a run reports was validated. -/
theorem judged_of_runs {mergeBack : Nat} {outcome : UnitOutcome}
    (runs : Runs settings unit mergeBack happenings (.ok outcome)) :
    ∀ window ∈ outcome.windows, window.Judged unit happenings := by
  obtain ⟨_, _, _, _, _, _, progress, _, -, -, opens, grows, -, rfl, rfl⟩ :=
    stages_of_course runs.course
  intro window member
  apply List.mem_cons_of_mem
  rcases judged_of_grows grows progress rfl window member with before | judged
  · cases opens with
    | none => cases before
    | unchanged =>
        obtain rfl := List.mem_singleton.1 before
        exact List.mem_append_left _ (List.mem_append_left _
          (List.mem_append_right _ List.mem_cons_self))
  · exact List.mem_append_left _ (List.mem_append_right _ judged)

end Judged

end Work

end Graft
