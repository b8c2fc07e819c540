import Graft.Proofs.OrdinalMap
import Graft.Proofs.Work.Windows

/-!
How far the work on a unit has come between two windows. Everything that happens in a window concerns
the function that the window ends with, and neither the checkpoint nor any later function
(`concerns_of_firstAttempt`, `concerns_of_windowSettles`). `Reached` is the invariant of growing: the
selection names an attempt for the ordinals from one up to the last window, and each repair stands
under its own ordinal; `reached_of_window` says that a window preserves it.
-/

namespace Graft

open Code Generation

/-- What an action of a window may touch: the candidates of the unit up to the function that the
window ends with, new ones for this function only, and variants of the window. -/
def Action.Concerns (unit : UnitId) (ordinal : Nat) : Action → Prop
  | .put id place _ => id = unit ∧ place = ordinal
  | .get id place _ => id = unit ∧ place ≤ ordinal
  | .attempts id place => id = unit ∧ place = ordinal
  | .ask request => request.unitId = unit ∧ request.ordinal = ordinal
  | .validate variant _ => variant.window = ordinal
  | .loadCheckpoint _ => False
  | .saveCheckpoint .. => False
  | .tell _ => True

def NumberedUpTo (last : Nat) (repairs : OrdinalMap RepairState) : Prop :=
  ∀ ordinal state, repairs.get? ordinal = some state → state.ordinal = ordinal ∧ ordinal ≤ last

namespace NumberedUpTo

variable {last ordinal : Nat} {repairs : OrdinalMap RepairState}

theorem empty : NumberedUpTo last ∅ := by
  simp [NumberedUpTo]

theorem insert (h : NumberedUpTo last repairs) {state : RepairState} (own : state.ordinal = ordinal)
    (hlast : ordinal ≤ last) : NumberedUpTo last (repairs.insert ordinal state) := by
  intro other found hget
  rw [OrdinalMap.get?_insert] at hget
  split at hget
  · next same =>
      obtain rfl := Option.some.inj hget
      exact ⟨own.trans same.symm, same ▸ hlast⟩
  · exact h other found hget

/-- There is no repair behind the last one. -/
theorem get?_succ (h : NumberedUpTo last repairs) : repairs.get? (last + 1) = none := by
  cases hget : repairs.get? (last + 1) with
  | none => rfl
  | some state =>
      have := (h _ _ hget).2
      omega

theorem succ (h : NumberedUpTo last repairs) : NumberedUpTo (last + 1) repairs := by
  intro ordinal state hget
  obtain ⟨own, hlast⟩ := h ordinal state hget
  exact ⟨own, Nat.le_succ_of_le hlast⟩

end NumberedUpTo

/-- A checkpoint, if there is one, whose repairs stand under their own ordinals. -/
def Numbered (previous : Option Checkpoint) : Prop :=
  ∀ ordinal state, previous.bind (·.repairs.get? ordinal) = some state → state.ordinal = ordinal

structure Mending.At (last : Nat) (mending : Mending) : Prop where
  positive : 1 ≤ last
  ordinal : mending.state.ordinal = last
  selected : OrdinalMap.keys mending.selection = List.range' 1 last

namespace Mending.At

variable {last : Nat} {mending : Mending}

theorem keys_select (h : mending.At last) (attempt : Nat) :
    OrdinalMap.keys (mending.select attempt) = List.range' 1 last := by
  have member : mending.state.ordinal ∈ OrdinalMap.keys mending.selection := by
    rw [h.ordinal, h.selected, List.mem_range'_1]
    have := h.positive
    omega
  rw [select, OrdinalMap.keys_insert_of_mem attempt member, h.selected]

theorem unanswered (h : mending.At last) (error : GenerationError) :
    (mending.unanswered error).At last := ⟨h.positive, h.ordinal, h.selected⟩

theorem rejected (h : mending.At last) (message : String) : (mending.rejected message).At last :=
  ⟨h.positive, h.ordinal, h.selected⟩

theorem exhausted (h : mending.At last) : mending.exhausted.At last :=
  ⟨h.positive, h.ordinal, h.selected⟩

theorem accepted (h : mending.At last) (attempt : Nat) (variant : Variant) (verdict : Verdict) :
    (mending.accepted attempt variant verdict).At last :=
  ⟨h.positive, h.ordinal, h.keys_select attempt⟩

theorem stillFailing (h : mending.At last) (attempt : Nat) (variant : Variant) (verdict : Verdict) :
    (mending.stillFailing attempt variant verdict).At last :=
  ⟨h.positive, h.ordinal, h.keys_select attempt⟩

end Mending.At

namespace Work

variable {policy : Policy} {settings : WorkSettings} {unit : SourceUnit} {spans : List Span}
  {happenings : List Happening}

theorem concerns_of_firstCalls {request : Request} {remaining : Nat} {state : RepairState}
    {result : Except Failure FirstCandidate}
    (calls : FirstCalls policy request remaining state happenings result) :
    ∀ happening ∈ happenings, happening.1.Concerns request.unitId request.ordinal := by
  induction calls with
  | spent => simp [toldTransition, told, Action.Concerns]
  | notStored => simp [Action.Concerns]
  | stored => simp [told, Action.Concerns]
  | rejected => simp [toldTransition, told, Action.Concerns]
  | again taken herror later ih => simpa [told, Action.Concerns] using ih

theorem concerns_of_generates {ordinal : Nat} {repairs : OrdinalMap RepairState}
    {result : Except Failure (Option Nat × OrdinalMap RepairState)}
    (generates : Generates policy unit spans ordinal repairs happenings result) :
    ∀ happening ∈ happenings, happening.1.Concerns unit.id ordinal := by
  obtain ⟨last, calls, -⟩ := generates
  have concerns := concerns_of_firstCalls calls
  rwa [requestFor_unitId, requestFor_ordinal] at concerns

/-- The search for a first attempt touches its function only. -/
theorem concerns_of_firstAttempt {ordinal : Nat} {previous : Option Checkpoint}
    {repairs : OrdinalMap RepairState} {useCache : Bool}
    {result : Except Failure (Option Nat × OrdinalMap RepairState)}
    (attempts : FirstAttempt policy unit spans ordinal previous repairs useCache happenings result) :
    ∀ happening ∈ happenings, happening.1.Concerns unit.id ordinal := by
  cases attempts with
  | uncached generates => exact concerns_of_generates generates
  | unlisted => simp [Action.Concerns]
  | kept => simp [Action.Concerns]
  | resumed => simp [toldTransition, told, Action.Concerns]
  | lost restored goesOn generates =>
      simpa [Action.Concerns] using concerns_of_generates generates
  | chosen => simp [Action.Concerns]
  | fresh notRestored choice generates =>
      simpa [Action.Concerns] using concerns_of_generates generates

theorem concerns_of_fetches {ordinal : Nat} {entries : List (Nat × Nat)}
    {result : Except Failure (List (Nat × String))}
    (fetches : Fetches unit.id entries happenings result)
    (within : ∀ entry ∈ entries, entry.1 ≤ ordinal) :
    ∀ happening ∈ happenings, happening.1.Concerns unit.id ordinal := by
  induction fetches with
  | nil => simp
  | missing => simpa [Action.Concerns] using (List.forall_mem_cons.1 within).1
  | cons text later ih =>
      obtain ⟨hfirst, hrest⟩ := List.forall_mem_cons.1 within
      simpa [Action.Concerns, hfirst] using ih hrest

/-- Merging a selection of the ordinals from one up to the last fetches candidates of these, and what
it gives is a variant of that window. -/
theorem concerns_of_merges {last : Nat} {selection : Selection} {result : Except Failure Variant}
    (merges : Merges unit spans selection happenings result)
    (selected : OrdinalMap.keys selection = List.range' 1 last) :
    (∀ happening ∈ happenings, happening.1.Concerns unit.id last) ∧
      ∀ variant, result = .ok variant →
        variant.window = last ∧ variant.provenance = selection := by
  cases merges with
  | unfit => simp
  | @fetched _ found check fetches =>
      refine ⟨concerns_of_fetches fetches fun entry member => ?_, fun variant h => ?_⟩
      · have hkey : entry.1 ∈ List.range' 1 last := selected ▸ List.mem_map_of_mem member
        obtain ⟨-, hlt⟩ := List.mem_range'_1.1 hkey
        omega
      · cases found with
        | error failure => simp [Except.map] at h
        | ok candidates =>
            obtain rfl := Except.ok.inj h
            exact ⟨Selection.window_eq selected, rfl⟩

theorem concerns_of_called {last : Nat} {mending : Mending} (h : mending.At last) (prior : String)
    (reply : Reply) :
    ∀ happening ∈ called unit spans mending prior reply, happening.1.Concerns unit.id last := by
  have own : mending.state.beginCall.ordinal = last := h.ordinal
  simp [called, told, Action.Concerns, own, h.ordinal]

theorem concerns_of_putAndTold {last : Nat} {mending : Mending} (h : mending.At last) (text : String)
    (attempt : Nat) :
    ∀ happening ∈ putAndTold unit mending.state.ordinal text attempt,
      happening.1.Concerns unit.id last := by
  simp [putAndTold, told, Action.Concerns, h.ordinal]

/-- A repair touches its function only, and stays at it. -/
theorem concerns_of_mendCalls {last remaining : Nat} {mending : Mending}
    {result : Except Failure Mending}
    (calls : MendCalls policy unit spans remaining mending happenings result)
    (h : mending.At last) :
    (∀ happening ∈ happenings, happening.1.Concerns unit.id last) ∧
      ∀ mended, result = .ok mended → mended.At last := by
  induction calls with
  | spent mending =>
      refine ⟨by simp [toldTransition, told, Action.Concerns], ?_⟩
      rintro _ ⟨⟩
      exact h.exhausted
  | priorMissing mending error =>
      simp [told, Action.Concerns, h.ordinal]
  | rejected mending prior taken =>
      refine ⟨List.forall_mem_append.2 ⟨concerns_of_called h prior _, ?_⟩, ?_⟩
      · simp [toldTransition, told, Action.Concerns]
      · rintro _ ⟨⟩
        exact h.rejected _
  | unanswered mending prior taken herror later ih =>
      obtain ⟨concerns, stays⟩ := ih (h.unanswered _)
      refine ⟨List.forall_mem_append.2 ⟨concerns_of_called h prior _, ?_⟩, stays⟩
      simpa [told, Action.Concerns] using concerns
  | notStored mending prior error taken =>
      refine ⟨List.forall_mem_append.2 ⟨concerns_of_called h prior _, ?_⟩, by simp⟩
      simp [Action.Concerns, h.ordinal]
  | notMerged mending prior attempt taken merges =>
      have merging := (concerns_of_merges merges (h.keys_select attempt)).1
      exact ⟨List.forall_mem_append.2 ⟨List.forall_mem_append.2
        ⟨concerns_of_called h prior _, concerns_of_putAndTold h _ attempt⟩, merging⟩, by simp⟩
  | accepted mending prior attempt taken merges isAccepted =>
      obtain ⟨merging, merged⟩ := concerns_of_merges merges (h.keys_select attempt)
      refine ⟨List.forall_mem_append.2 ⟨List.forall_mem_append.2 ⟨List.forall_mem_append.2
        ⟨concerns_of_called h prior _, concerns_of_putAndTold h _ attempt⟩, merging⟩, ?_⟩, ?_⟩
      · simp [toldVerdict, toldTransition, told, Action.Concerns, (merged _ rfl).1]
      · rintro _ ⟨⟩
        exact h.accepted attempt _ _
  | stillFailing mending prior attempt taken merges notAccepted later ih =>
      obtain ⟨merging, merged⟩ := concerns_of_merges merges (h.keys_select attempt)
      obtain ⟨concerns, stays⟩ := ih (h.stillFailing attempt _ _)
      refine ⟨List.forall_mem_append.2 ⟨List.forall_mem_append.2 ⟨List.forall_mem_append.2
        ⟨concerns_of_called h prior _, concerns_of_putAndTold h _ attempt⟩, merging⟩, ?_⟩, stays⟩
      simpa [toldVerdict, told, Action.Concerns, (merged _ rfl).1] using concerns

theorem concerns_of_mends {last : Nat} {mending : Mending} {result : Except Failure Mending}
    (mends : Mends policy unit spans mending happenings result) (h : mending.At last) :
    (∀ happening ∈ happenings, happening.1.Concerns unit.id last) ∧
      ∀ mended, result = .ok mended → mended.At last := by
  cases mends with
  | unwanted =>
      refine ⟨by simp [toldTransition, told, Action.Concerns], ?_⟩
      rintro _ ⟨⟩
      exact h.exhausted
  | wanted fix calls => exact concerns_of_mendCalls calls h

/-- The invariant of growing: the selection names an attempt for the ordinals from one up to the last
window, and the repairs stand under their own ordinals, none of them behind the last window. -/
structure Reached (last : Nat) (progress : Progress) : Prop where
  selected : OrdinalMap.keys progress.selection = List.range' 1 last
  numbered : NumberedUpTo last progress.repairs

theorem numbered_of_firstAttempt {last : Nat} {previous : Option Checkpoint}
    {repairs after : OrdinalMap RepairState} {useCache : Bool} {attempt? : Option Nat}
    (attempts : FirstAttempt policy unit spans (last + 1) previous repairs useCache happenings
      (.ok (attempt?, after)))
    (hprevious : Numbered previous) (numbered : NumberedUpTo last repairs) :
    NumberedUpTo (last + 1) after := by
  cases attempt? with
  | none =>
      obtain ⟨refused, own, -, -, rfl⟩ := refused_of_firstAttempt attempts
      exact numbered.succ.insert own (Nat.le_refl _)
  | some attempt =>
      cases begins_of_firstAttempt attempts with
      | anew => exact numbered.succ
      | chosen => exact numbered.succ
      | kept listed restored =>
          have own := hprevious _ _ restored
          exact numbered.succ.insert own (Nat.le_refl _)
      | resumed listed restored =>
          have own := hprevious _ _ restored
          exact numbered.succ.insert own (Nat.le_refl _)

theorem ordinal_repairFor {last ordinal attempt : Nat} {repairs : OrdinalMap RepairState}
    (numbered : NumberedUpTo last repairs) :
    (repairFor policy ordinal attempt repairs).ordinal = ordinal := by
  unfold repairFor
  split
  · next state found =>
      split
      · rfl
      · exact (numbered _ _ found).1
  · rfl

/-- A selection grows by the next ordinal. -/
theorem keys_insert_succ {last : Nat} {selection : Selection}
    (selected : OrdinalMap.keys selection = List.range' 1 last) (attempt : Nat) :
    OrdinalMap.keys (selection.insert (last + 1) attempt) = List.range' 1 (last + 1) := by
  have behind : ∀ other ∈ OrdinalMap.keys selection, other < last + 1 := by
    intro other member
    rw [selected, List.mem_range'_1] at member
    omega
  rw [OrdinalMap.keys_insert_of_lt attempt behind, selected, List.range'_1_concat, Nat.add_comm]

/-- What becomes of a window touches its last function only, and the window is reached with it. -/
theorem concerns_of_windowSettles {last attempt : Nat} {progress : Progress}
    {result : Except Failure Progress}
    (settles : WindowSettles settings unit spans (last + 1) attempt progress happenings result)
    (selected : OrdinalMap.keys progress.selection = List.range' 1 last)
    (numbered : NumberedUpTo (last + 1) progress.repairs) :
    (∀ happening ∈ happenings, happening.1.Concerns unit.id (last + 1)) ∧
      ∀ after, result = .ok after →
        Reached (last + 1) after ∧
          (after.haltedAt = none ∨ after.haltedAt = some (last + 1)) := by
  have hselected := keys_insert_succ selected attempt
  cases settles with
  | notMerged merges => exact ⟨(concerns_of_merges merges hselected).1, by simp⟩
  | accepted merges isAccepted settles =>
      obtain ⟨merging, merged⟩ := concerns_of_merges merges hselected
      cases settles with
      | untouched =>
          refine ⟨List.forall_mem_append.2 ⟨merging, ?_⟩, ?_⟩
          · simp [toldVerdict, told, Action.Concerns, (merged _ rfl).1]
          · rintro _ ⟨⟩
            exact ⟨⟨hselected, numbered⟩, .inl rfl⟩
      | repaired found notYet =>
          refine ⟨List.forall_mem_append.2 ⟨merging, ?_⟩, ?_⟩
          · simp [toldVerdict, toldTransition, told, Action.Concerns, (merged _ rfl).1]
          · rintro _ ⟨⟩
            exact ⟨⟨hselected, numbered.insert (numbered _ _ found).1 (Nat.le_refl _)⟩, .inl rfl⟩
  | @rejected _ _ _ _ mended merges notAccepted mends =>
      obtain ⟨merging, merged⟩ := concerns_of_merges merges hselected
      obtain ⟨mending, stays⟩ := concerns_of_mends mends
        ⟨Nat.succ_pos last, ordinal_repairFor numbered, hselected⟩
      refine ⟨List.forall_mem_append.2 ⟨merging, ?_⟩, ?_⟩
      · simpa [toldVerdict, told, Action.Concerns, (merged _ rfl).1] using mending
      · cases mended with
        | error failure => simp [Except.map]
        | ok mended =>
            have at' := stays mended rfl
            rintro _ ⟨⟩
            refine ⟨⟨at'.selected, numbered.insert at'.ordinal (Nat.le_refl _)⟩, ?_⟩
            unfold Progress.mended
            split <;> simp

/-- A window touches its last function only. It is reached with it, or the work halts at it. -/
theorem concerns_of_window {last : Nat} {previous : Option Checkpoint} {progress : Progress}
    {result : Except Failure Progress}
    (window : Window settings unit spans previous (last + 1) progress happenings result)
    (hprevious : Numbered previous) (reached : Reached last progress) :
    (∀ happening ∈ happenings, happening.1.Concerns unit.id (last + 1)) ∧
      ∀ after, result = .ok after → NumberedUpTo (last + 1) after.repairs ∧
        (after.haltedAt = none ∧ Reached (last + 1) after ∨ after.haltedAt = some (last + 1)) := by
  cases window with
  | noFirst attempts => exact ⟨concerns_of_firstAttempt attempts, by simp⟩
  | noAttempt attempts =>
      refine ⟨concerns_of_firstAttempt attempts, ?_⟩
      rintro _ ⟨⟩
      exact ⟨numbered_of_firstAttempt attempts hprevious reached.numbered, .inr rfl⟩
  | settled attempts settles =>
      obtain ⟨settling, after⟩ := concerns_of_windowSettles settles reached.selected
        (numbered_of_firstAttempt attempts hprevious reached.numbered)
      refine ⟨List.forall_mem_append.2 ⟨concerns_of_firstAttempt attempts, settling⟩,
        fun final h => ?_⟩
      obtain ⟨further, hnone | hsome⟩ := after final h
      · exact ⟨further.numbered, .inl ⟨hnone, further⟩⟩
      · exact ⟨further.numbered, .inr hsome⟩

/-- A window at which the work does not halt preserves the invariant. -/
theorem reached_of_window {last : Nat} {previous : Option Checkpoint} {progress after : Progress}
    (window : Window settings unit spans previous (last + 1) progress happenings (.ok after))
    (hprevious : Numbered previous) (reached : Reached last progress)
    (goesOn : after.haltedAt = none) : Reached (last + 1) after := by
  obtain ⟨-, ⟨-, further⟩ | halted⟩ := (concerns_of_window window hprevious reached).2 after rfl
  · exact further
  · simp [goesOn] at halted

/-- Growing from a window on touches the functions behind it only, and if it halts at a function none
behind that one. -/
theorem concerns_of_grows {last count : Nat} {previous : Option Checkpoint} {progress : Progress}
    {result : Except Failure Progress}
    (grows : Grows settings unit spans previous (List.range' (last + 1) count) progress happenings
      result)
    (hprevious : Numbered previous) (reached : Reached last progress)
    (goesOn : progress.haltedAt = none) :
    (∀ happening ∈ happenings, ∃ ordinal > last, happening.1.Concerns unit.id ordinal) ∧
      ∀ after, result = .ok after → (∃ final, NumberedUpTo final after.repairs) ∧
        ∀ halted, after.haltedAt = some halted → last < halted ∧
          ∀ happening ∈ happenings, ∃ ordinal ≤ halted, happening.1.Concerns unit.id ordinal := by
  induction count generalizing last progress happenings with
  | zero =>
      cases grows
      refine ⟨by simp, ?_⟩
      rintro _ ⟨⟩
      exact ⟨⟨last, reached.numbered⟩, by simp [goesOn]⟩
  | succ count ih =>
      rw [List.range'_succ] at grows
      cases grows with
      | failed window =>
          have first := (concerns_of_window window hprevious reached).1
          exact ⟨fun happening member => ⟨last + 1, Nat.lt_succ_self last, first happening member⟩,
            by simp⟩
      | halted window halts =>
          obtain ⟨first, after⟩ := concerns_of_window window hprevious reached
          refine ⟨fun happening member => ⟨last + 1, Nat.lt_succ_self last, first happening member⟩,
            ?_⟩
          rintro _ ⟨⟩
          obtain ⟨numbered, ⟨hnone, -⟩ | hsome⟩ := after _ rfl
          · exact absurd hnone halts
          · refine ⟨⟨last + 1, numbered⟩, fun halted h => ?_⟩
            obtain rfl := Option.some.inj (hsome.symm.trans h)
            exact ⟨Nat.lt_succ_self last, fun happening member =>
              ⟨last + 1, Nat.le_refl _, first happening member⟩⟩
      | further window hnone later =>
          have first := (concerns_of_window window hprevious reached).1
          have further := reached_of_window window hprevious reached hnone
          obtain ⟨rest, final⟩ := ih later further hnone
          refine ⟨List.forall_mem_append.2 ⟨fun happening member =>
            ⟨last + 1, Nat.lt_succ_self last, first happening member⟩,
            fun happening member => ?_⟩, fun after h => ⟨(final after h).1, fun halted hhalted => ?_⟩⟩
          · obtain ⟨ordinal, hlt, concerns⟩ := rest happening member
            exact ⟨ordinal, by omega, concerns⟩
          · obtain ⟨hlt, within⟩ := (final after h).2 halted hhalted
            exact ⟨by omega, List.forall_mem_append.2 ⟨fun happening member =>
              ⟨last + 1, Nat.le_of_lt hlt, first happening member⟩, within⟩⟩

/-- What each window preserves holds behind growing. -/
theorem invariant_of_grows (invariant : Nat → Progress → List Happening → Prop)
    (earlier : List Happening) {last count : Nat} {previous : Option Checkpoint}
    {progress after : Progress}
    (grows : Grows settings unit spans previous (List.range' (last + 1) count) progress happenings
      (.ok after))
    (hprevious : Numbered previous) (reached : Reached last progress)
    (step : ∀ {last progress after earlier first},
      Window settings unit spans previous (last + 1) progress first (.ok after) →
      first ⊆ happenings → Reached last progress → invariant last progress earlier →
      invariant (last + 1) after (earlier ++ first))
    (holds : invariant last progress earlier) :
    ∃ final, invariant final after (earlier ++ happenings) := by
  induction count generalizing last progress earlier happenings with
  | zero =>
      cases grows
      exact ⟨last, by simpa using holds⟩
  | succ count ih =>
      rw [List.range'_succ] at grows
      cases grows with
      | halted window halts =>
          exact ⟨last + 1, step window (List.Subset.refl _) reached holds⟩
      | further window goesOn later =>
          have further := reached_of_window window hprevious reached goesOn
          have now := step window (List.subset_append_left _ _) reached holds
          obtain ⟨final, rest⟩ := ih _ later further
            (fun window part => step window (List.subset_append_of_subset_right _ part)) now
          rw [List.append_assoc] at rest
          exact ⟨final, rest⟩

/-- The state of the work before the first window. -/
theorem reached_zero (windows : List WindowOutcome) : Reached 0 ⟨∅, ∅, windows, none⟩ :=
  ⟨rfl, .empty⟩

section Stages

variable {mergeBack : Nat} {loading opening growing closing : List Happening}
  {previous : Option Checkpoint} {windows : List WindowOutcome} {grown : Except Failure Progress}
  {result : Except Failure UnitOutcome}

/-- A checkpoint that was loaded is the one that the windows go on with. -/
theorem previous_of_mem (loads : Loads settings unit loading (.ok previous))
    (opens : Opens unit (min mergeBack unit.count) opening windows)
    (grows : Grows settings unit spans previous (List.range' 1 (min mergeBack unit.count))
      ⟨∅, ∅, windows, none⟩ growing grown)
    (closes : Closes settings unit (min mergeBack unit.count) grown closing result)
    (hprevious : Numbered previous) {answer : Except Failure (Option Checkpoint)}
    (member : ⟨.loadCheckpoint unit.id, answer⟩ ∈
      told (.unitStarted unit.id unit.count (min mergeBack unit.count)) ::
        (loading ++ opening ++ growing ++ closing)) :
    answer = .ok previous ∧ settings.useCache = true := by
  simp only [List.mem_cons, List.mem_append] at member
  rcases member with h | ((h | h) | h) | h
  · simp [told] at h
  · cases loads with
    | unused => simp at h
    | loaded kept => simp_all
  · cases opens <;> simp [told, toldVerdict] at h
  · obtain ⟨ordinal, -, concerns⟩ :=
      (concerns_of_grows grows hprevious (reached_zero windows) rfl).1 _ h
    exact concerns.elim
  · cases closes with
    | notGrown => simp at h
    | notSaved saves => cases saves; simp at h
    | finished saves => cases saves <;> simp [told] at h

/-- What was saved is what the windows came to, and it was saved for the unit. -/
theorem progress_of_mem (loads : Loads settings unit loading (.ok previous))
    (opens : Opens unit (min mergeBack unit.count) opening windows)
    (grows : Grows settings unit spans previous (List.range' 1 (min mergeBack unit.count))
      ⟨∅, ∅, windows, none⟩ growing grown)
    (closes : Closes settings unit (min mergeBack unit.count) grown closing result)
    (hprevious : Numbered previous) {id : UnitId} {selection : Selection}
    {repairs : OrdinalMap RepairState} {answer : Except Failure Unit}
    (member : ⟨.saveCheckpoint id selection repairs, answer⟩ ∈
      told (.unitStarted unit.id unit.count (min mergeBack unit.count)) ::
        (loading ++ opening ++ growing ++ closing)) :
    id = unit.id ∧ ∃ progress, grown = .ok progress ∧ selection = progress.selection ∧
      repairs = progress.repairs := by
  simp only [List.mem_cons, List.mem_append] at member
  rcases member with h | ((h | h) | h) | h
  · simp [told] at h
  · cases loads <;> simp at h
  · cases opens <;> simp [told, toldVerdict] at h
  · obtain ⟨ordinal, -, concerns⟩ :=
      (concerns_of_grows grows hprevious (reached_zero windows) rfl).1 _ h
    exact concerns.elim
  · cases closes with
    | notGrown => simp at h
    | @notSaved progress _ _ saves =>
        cases saves
        simp only [List.mem_singleton, Sigma.mk.injEq, Action.saveCheckpoint.injEq] at h
        exact ⟨h.1.1, progress, rfl, h.1.2.1, h.1.2.2⟩
    | @finished progress _ _ saves =>
        cases saves with
        | unkept => simp [told] at h
        | saved =>
            simp only [told, List.cons_append, List.nil_append, List.mem_cons, Sigma.mk.injEq,
              Action.saveCheckpoint.injEq, reduceCtorEq, false_and, List.not_mem_nil, or_false] at h
            exact ⟨h.1.1, progress, rfl, h.1.2.1, h.1.2.2⟩

end Stages

/-- Checkpoints that earlier runs left: each was saved, or was about to be, by a run that loaded none
or one that a run before it left. What else these runs met is open. -/
inductive LeftBehind : UnitId → Checkpoint → Prop
  | saved {settings : WorkSettings} {unit : SourceUnit} {mergeBack : Nat}
      {happenings : List Happening} {result : Except Failure UnitOutcome} {selection : Selection}
      {repairs : OrdinalMap RepairState} {answer : Except Failure Unit} (updatedAt : Instant)
      (course : Course (onUnit settings unit mergeBack) happenings result)
      (earlier : ∀ checkpoint, ⟨.loadCheckpoint unit.id, .ok (some checkpoint)⟩ ∈ happenings →
        LeftBehind unit.id checkpoint)
      (saving : ⟨.saveCheckpoint unit.id selection repairs, answer⟩ ∈ happenings) :
      LeftBehind unit.id ⟨unit.id, selection, repairs, updatedAt⟩

theorem numbered_of_loads {previous : Option Checkpoint}
    (loads : Loads settings unit happenings (.ok previous))
    (earlier : ∀ checkpoint, ⟨.loadCheckpoint unit.id, .ok (some checkpoint)⟩ ∈ happenings →
      Numbered (some checkpoint)) : Numbered previous := by
  cases loads with
  | unused => simp [Numbered]
  | loaded =>
      cases previous with
      | none => simp [Numbered]
      | some checkpoint => exact earlier checkpoint List.mem_cons_self

/-- In a checkpoint that an earlier run left the repairs stand under their own ordinals. -/
theorem LeftBehind.numbered {id : UnitId} {checkpoint : Checkpoint}
    (left : LeftBehind id checkpoint) : Numbered (some checkpoint) := by
  induction left with
  | saved updatedAt course earlier saving ih =>
      cases runs_of_course course with
      | notLocated => simp at saving
      | notLoaded located loads => cases loads; simp [told] at saving
      | loaded located loads opens grows closes =>
          have hprevious := numbered_of_loads loads fun checkpoint member =>
            ih checkpoint (List.mem_cons_of_mem _ (by simp [member]))
          obtain ⟨-, progress, rfl, rfl, rfl⟩ :=
            progress_of_mem loads opens grows closes hprevious saving
          obtain ⟨final, numbered⟩ :=
            ((concerns_of_grows grows hprevious (reached_zero _) rfl).2 progress rfl).1
          exact fun ordinal state hget => (numbered ordinal state (by simpa using hget)).1

end Work

/-! Units of one and of two functions, and what merging candidates for them is like -/

namespace Work.Sample

def unit : SourceUnit := ⟨"f.c", "int f(void) { return 1; }", ["f"], 1⟩

def spans : List Span := [⟨1, 0, 25⟩]

def selection (attempt : Nat) : Selection := (∅ : Selection).insert 1 attempt

def variant (attempt : Nat) (text : String) : Variant :=
  .assemble unit spans (selection attempt) [(1, text)]

theorem located : locate unit.text unit.functions = .ok spans := by decide +kernel

theorem merges (attempt : Nat) (text : String) :
    Merges unit spans (selection attempt) [⟨.get unit.id 1 attempt, .ok text⟩]
      (.ok (variant attempt text)) := by
  have fits : Variant.checkSpans unit spans = .ok () := by decide +kernel
  have chosen : Variant.checkSelection unit (selection attempt) = .ok () := rfl
  have check : Variant.check unit spans (selection attempt) = .ok () := by
    rw [Variant.check, fits]
    exact chosen
  exact .fetched check (.cons text .nil)

def pair (path : String) : SourceUnit :=
  ⟨path, "int f(void) { return 1; }\nint g(void) { return 2; }\n", ["f", "g"], 1⟩

def pairSpans : List Span := [⟨1, 0, 25⟩, ⟨2, 26, 51⟩]

def both (first second : Nat) : Selection := (selection first).insert 2 second

theorem located_pair (path : String) :
    locate (pair path).text (pair path).functions = .ok pairSpans := by
  have located : locate (pair "").text (pair "").functions = .ok pairSpans := by decide +kernel
  exact located

theorem check_pair (path : String) {chosen : Selection}
    (within : Variant.checkSelection (pair path) chosen = .ok ()) :
    Variant.check (pair path) pairSpans chosen = .ok () := by
  have fits : Variant.checkSpans (pair "") pairSpans = .ok () := by decide +kernel
  have here : Variant.checkSpans (pair path) pairSpans = .ok () := fits
  rw [Variant.check, here]
  exact within

theorem merges_first (path : String) (attempt : Nat) (text : String) :
    Merges (pair path) pairSpans (selection attempt) [⟨.get (pair path).id 1 attempt, .ok text⟩]
      (.ok (.assemble (pair path) pairSpans (selection attempt) [(1, text)])) := by
  have check : Variant.check (pair path) pairSpans (selection attempt) = .ok () :=
    check_pair path rfl
  exact .fetched check (.cons text .nil)

theorem merges_both (path : String) (first second : Nat) (text other : String) :
    Merges (pair path) pairSpans (both first second)
      [⟨.get (pair path).id 1 first, .ok text⟩, ⟨.get (pair path).id 2 second, .ok other⟩]
      (.ok (.assemble (pair path) pairSpans (both first second) [(1, text), (2, other)])) := by
  have check : Variant.check (pair path) pairSpans (both first second) = .ok () :=
    check_pair path rfl
  exact .fetched check (.cons text (.cons other .nil))

def unanswered : RepairState :=
  let silence : GenerationError := .service s!"timed out after {30}s"
  ⟨1, .exhausted, 1, 1, 1, none, [⟨1, .serviceError silence.message⟩]⟩

def checkpoint (state : RepairState) : Checkpoint :=
  ⟨unit.id, selection 1, (∅ : OrdinalMap RepairState).insert 1 state, default⟩

/-- A run that stores a candidate, and then waits in vain for a repair of it, leaves this. -/
theorem leftBehind_unanswered : LeftBehind unit.id (checkpoint unanswered) := by
  let settings : WorkSettings := ⟨⟨1, true, 30⟩, false, true⟩
  let silence : GenerationError := .service s!"timed out after {settings.policy.timeoutSeconds}s"
  have answered : settings.policy.taken (.answer (.ok "x")) = .ok "x" := rfl
  have silent : settings.policy.taken .silence = .error silence := rfl
  have bad : (Verdict.malformed []).isAccepted = false := rfl
  have mends : Mends settings.policy unit spans
      ⟨selection 1, .start 1 1 1, variant 1 "x", .malformed []⟩ _ (.ok _) :=
    .wanted rfl (.unanswered _ "x" silent rfl (.spent _))
  have settles : WindowSettles settings unit spans 1 1 ⟨∅, ∅, [], none⟩ _ (Except.map _ _) :=
    .rejected (merges 1 "x") bad mends
  have grows : Grows settings unit spans none [1] ⟨∅, ∅, [], none⟩ _ (.ok _) :=
    .halted (.settled (.uncached ⟨.ok (.stored 1), .stored 1 answered, rfl⟩) settles)
      (Option.some_ne_none 1)
  have course : Course (onUnit settings unit 1) _ _ := Runs.course (.loaded located (.unused rfl)
    (.none Nat.one_ne_zero) grows (.finished (.saved rfl (.ok ())) rfl))
  exact .saved default course (by simp [told, toldVerdict, called, toldTransition])
    (List.mem_cons_of_mem _ (List.mem_append_right _ List.mem_cons_self))

end Work.Sample

end Graft
