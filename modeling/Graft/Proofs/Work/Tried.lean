import Graft.Proofs.Work.Restored

/-!
Which attempt a repair tried last. It is the one that is selected when the repair is under way
(`Mending.Tried`), and it is stored unless nothing was tried at all. `Chronicle.retains` says so of every
checkpoint that a run can find, and `lastTried_of_begins` that a repair which goes on from a checkpoint
therefore goes on with the attempt that it tried last.
-/

namespace Graft

open Code Generation Work

/-- That a repair has tried the attempt that is selected for its function. -/
def Mending.Tried (mending : Mending) : Prop :=
  mending.selection.get? mending.state.ordinal = some mending.state.lastTried

/-- That wherever attempts are listed, the attempt that a repair tried last is among them, or older than
all of them. -/
def Traced (unit : UnitId) (previous : Option Checkpoint) (happenings : List Happening) : Prop :=
  ∀ ordinal state, previous.bind (·.repairs.get? ordinal) = some state →
    ∀ stored, ⟨.attempts unit ordinal, .ok stored⟩ ∈ happenings →
      state.lastTried ∈ stored ∨ ∀ attempt ∈ stored, state.lastTried < attempt

theorem Traced.of_subset {unit : UnitId} {previous : Option Checkpoint}
    {happenings rest : List Happening} (traced : Traced unit previous happenings)
    (part : rest ⊆ happenings) : Traced unit previous rest := by
  intro ordinal state restored stored member
  exact traced ordinal state restored stored (part member)

def TriedKnown (unit : UnitId) (repairs : OrdinalMap RepairState) (happenings : List Happening) :
    Prop :=
  ∀ ordinal state, repairs.get? ordinal = some state →
    state.lastTried = 0 ∨ Known unit happenings ordinal state.lastTried

namespace Work

variable {policy : Policy} {settings : WorkSettings} {unit : SourceUnit} {spans : List Span}
  {happenings earlier : List Happening} {previous : Option Checkpoint}

/-- A repair that keeps an attempt keeps the one that it tried last. The latest one takes its place only
where the last one is lost, and then it is newer. -/
theorem lastTried_of_kept {state : RepairState} {stored : List Nat} {attempt : Nat}
    (traced : state.lastTried ∈ stored ∨ ∀ other ∈ stored, state.lastTried < other)
    (kept : continuation state stored = .kept attempt) : state.lastTried = attempt := by
  unfold continuation at kept
  dsimp only at kept
  split at kept
  · exact Continuation.kept.inj kept
  · next notThere =>
      split at kept
      · next latest hlatest =>
          have member := List.mem_of_getLast? hlatest
          split at kept
          · cases kept
          · next notNewer =>
              have stays : state.lastTried ∈ stored :=
                traced.resolve_right fun older => notNewer (older latest member)
              split at kept
              · exact Continuation.kept.inj kept
              · next lost =>
                  have unrepaired : ¬state.status = .repaired := fun repaired =>
                    notThere ⟨repaired, by simpa using stays⟩
                  exact absurd ⟨unrepaired, by simpa using stays⟩ lost
      · cases kept

/-- A function begins with the attempt that its repair, if it has one, tried last. -/
theorem lastTried_of_begins {ordinal attempt : Nat} {repairs after : OrdinalMap RepairState}
    (begins : Begins policy unit ordinal previous repairs happenings attempt after)
    (traced : Traced unit.id previous happenings) (fresh : repairs.get? ordinal = none) :
    ∀ state, after.get? ordinal = some state → state.lastTried = attempt := by
  intro found hget
  cases begins with
  | anew => simp [fresh] at hget
  | chosen => simp [fresh] at hget
  | @kept stored state listed restored goesOn =>
      obtain rfl : state.refreshBudget policy.maxFixAttempts = found := by simpa using hget
      have older : (state.refreshBudget policy.maxFixAttempts).lastTried ∈ stored ∨
          ∀ other ∈ stored, (state.refreshBudget policy.maxFixAttempts).lastTried < other :=
        traced ordinal state restored stored listed
      exact lastTried_of_kept older goesOn
  | resumed =>
      obtain rfl : _ = found := by simpa using hget
      rfl

theorem lastTried_repairFor {ordinal attempt : Nat} {repairs : OrdinalMap RepairState}
    (tried : ∀ state, repairs.get? ordinal = some state → state.lastTried = attempt) :
    (repairFor policy ordinal attempt repairs).lastTried = attempt := by
  unfold repairFor
  split
  · next state found =>
      split
      · rfl
      · exact tried state found
  · rfl

theorem tried_of_mendCalls {remaining : Nat} {mending : Mending} {result : Except Failure Mending}
    (calls : MendCalls policy unit spans remaining mending happenings result)
    (tried : mending.Tried) : ∀ mended, result = .ok mended → mended.Tried := by
  induction calls with
  | spent =>
      rintro _ ⟨⟩
      exact tried
  | priorMissing => simp
  | rejected =>
      rintro _ ⟨⟩
      exact tried
  | unanswered mending prior taken herror later ih => exact ih tried
  | notStored => simp
  | notMerged => simp
  | accepted =>
      rintro _ ⟨⟩
      exact OrdinalMap.get?_insert_self _ _ _
  | stillFailing mending prior attempt taken merges notAccepted later ih =>
      exact ih (OrdinalMap.get?_insert_self _ _ _)

theorem tried_of_mends {mending mended : Mending}
    (mends : Mends policy unit spans mending happenings (.ok mended)) (tried : mending.Tried) :
    mended.Tried := by
  cases mends with
  | unwanted =>
      exact tried
  | wanted fix calls => exact tried_of_mendCalls calls tried mended rfl

/-- The repair that a rejected variant starts has tried the attempt that the window began with. -/
theorem tried_repairFor {last attempt : Nat} {selection : Selection}
    {repairs : OrdinalMap RepairState} {variant : Variant} {verdict : Verdict}
    (numbered : NumberedUpTo last repairs)
    (tried : ∀ state, repairs.get? last = some state → state.lastTried = attempt) :
    Mending.Tried ⟨selection.insert last attempt, repairFor policy last attempt repairs, variant,
      verdict⟩ := by
  have own : (repairFor policy last attempt repairs).ordinal = last := ordinal_repairFor numbered
  have begun : (repairFor policy last attempt repairs).lastTried = attempt :=
    lastTried_repairFor tried
  unfold Mending.Tried
  rw [own, begun]
  exact OrdinalMap.get?_insert_self _ _ _

/-- Behind a window, the repair of its last function has tried the attempt that is selected. -/
theorem tried_of_windowSettles {last attempt : Nat} {progress after : Progress}
    (settles : WindowSettles settings unit spans (last + 1) attempt progress happenings (.ok after))
    (selected : OrdinalMap.keys progress.selection = List.range' 1 last)
    (numbered : NumberedUpTo (last + 1) progress.repairs)
    (tried : ∀ state, progress.repairs.get? (last + 1) = some state → state.lastTried = attempt) :
    ∀ state, after.repairs.get? (last + 1) = some state →
      after.selection.get? (last + 1) = some state.lastTried := by
  intro found hget
  cases settled_of_windowSettles settles with
  | accepted merges isAccepted repair =>
      have same : found.lastTried = attempt :=
        ((repaired_of_settles repair fun state h _ => tried state h).2 found hget).2
      rw [same]
      exact OrdinalMap.get?_insert_self _ _ _
  | @rejected _ _ _ _ mended merges notAccepted mends =>
      obtain rfl : mended.state = found := by simpa [Progress.mended] using hget
      have hselected := keys_insert_succ selected attempt
      have stays := (concerns_of_mends mends
        ⟨Nat.succ_pos last, ordinal_repairFor numbered, hselected⟩).2 mended rfl
      have htried := tried_of_mends mends (tried_repairFor numbered tried)
      unfold Mending.Tried at htried
      rw [stays.ordinal] at htried
      exact htried

/-- A window leaves repairs that tried attempts which what happens tells of, if any. -/
theorem triedKnown_of_window {last : Nat} {progress after : Progress}
    (window : Window settings unit spans previous (last + 1) progress happenings (.ok after))
    (hprevious : Numbered previous) (lasting : Lasting unit.id previous happenings)
    (traced : Traced unit.id previous happenings) (reached : Reached last progress)
    (known : TriedKnown unit.id progress.repairs earlier) :
    TriedKnown unit.id after.repairs (earlier ++ happenings) := by
  intro ordinal state hget
  have others : OrdinalMap.SameBut (last + 1) progress.repairs after.repairs := by
    rcases accepts_or_halts_of_window window hprevious lasting reached with accepts | halts
    · exact accepts.others
    · exact halts.others
  by_cases same : ordinal = last + 1
  · subst same
    cases window with
    | noAttempt attempts =>
        obtain ⟨refused, -, -, untried, rfl⟩ := refused_of_firstAttempt attempts
        obtain rfl : refused = state := by simpa using hget
        exact .inl untried
    | settled attempts settles =>
        have fresh := reached.numbered.get?_succ
        have begins := begins_of_firstAttempt attempts
        have numbered := numbered_of_firstAttempt attempts hprevious reached.numbered
        obtain ⟨hknown, -, -⟩ := known_of_begins begins
          (lasting.of_subset (List.subset_append_left _ _)) fresh
        have tried := lastTried_of_begins begins
          (traced.of_subset (List.subset_append_left _ _)) fresh
        have selected := tried_of_windowSettles settles reached.selected numbered tried state hget
        have told := (known_of_windowSettles settles reached.selected numbered hknown).2 _ selected
        exact .inr (told.of_subset (List.subset_append_right _ _))
  · rw [others ordinal same] at hget
    exact (known ordinal state hget).imp_right (·.of_subset (List.subset_append_left _ _))

/-- So does growing. -/
theorem triedKnown_of_grows {last count : Nat} {progress after : Progress}
    (grows : Grows settings unit spans previous (List.range' (last + 1) count) progress happenings
      (.ok after))
    (hprevious : Numbered previous) (lasting : Lasting unit.id previous happenings)
    (traced : Traced unit.id previous happenings) (reached : Reached last progress)
    (known : TriedKnown unit.id progress.repairs earlier) :
    TriedKnown unit.id after.repairs (earlier ++ happenings) := by
  obtain ⟨_, now⟩ :=
    invariant_of_grows (fun _ progress told => TriedKnown unit.id progress.repairs told) earlier
      grows hprevious reached (fun window part => triedKnown_of_window window hprevious
        (lasting.of_subset part) (traced.of_subset part)) known
  exact now

end Work

namespace Archive

variable {settings : WorkSettings} {unit : SourceUnit} {mergeBack : Nat}
  {happenings : List Happening} {archive after : Archive}

/-- That the attempts which the repairs of a unit's checkpoint tried are stored, if any. -/
def Retains (unit : UnitId) (archive : Archive) : Prop :=
  ∀ ordinal state, (archive.checkpoints unit).bind (·.repairs.get? ordinal) = some state →
    state.lastTried = 0 ∨ archive.log.Has unit ordinal state.lastTried

theorem retains_of_none {id : UnitId} (h : archive.checkpoints id = none) : archive.Retains id := by
  intro ordinal state restored
  simp [h] at restored

theorem Retains.of_within {id : UnitId} (retains : archive.Retains id)
    (within : archive.Within after) (same : after.checkpoints id = archive.checkpoints id) :
    after.Retains id := by
  intro ordinal state restored
  rw [same] at restored
  exact (retains ordinal state restored).imp_right within.has

/-- What the repairs of a checkpoint tried is listed whenever attempts are, as nothing that was stored
is lost. -/
theorem Retains.listed {id : UnitId} (retains : archive.Retains id)
    (steps : Steps Step archive happenings after) :
    Traced id (archive.checkpoints id) happenings := by
  intro ordinal state restored stored member
  rcases retains ordinal state restored with untried | has
  · right
    intro attempt stores
    have hhas : after.log.Has id ordinal attempt := has_of_known steps (.listed member stores)
    have positive := hhas.1
    omega
  · exact .inl (mem_of_has steps has member)

/-- A run leaves an archive such that this is so. -/
theorem Retains.of_run {result : Except Failure UnitOutcome} (retains : archive.Retains unit.id)
    (sound : archive.Sound unit.id) (course : Course (onUnit settings unit mergeBack) happenings result)
    (steps : Steps Step archive happenings after) : after.Retains unit.id := by
  rcases checkpoint_of_run sound.numbered course steps with
    same | ⟨_, previous, _, windows, growing, progress, _, restored, _, grows, part, same⟩
  · exact retains.of_within (within_of_steps steps) same
  · obtain ⟨hprevious, lasting, hlisted⟩ : Numbered previous ∧ Lasting unit.id previous growing ∧
        Traced unit.id previous growing := by
      rcases restored with rfl | rfl
      · exact ⟨by simp [Numbered], by simp [Lasting], by simp [Traced]⟩
      · exact ⟨sound.numbered, (sound.lasting steps).of_subset part,
          (retains.listed steps).of_subset part⟩
    have known : TriedKnown unit.id progress.repairs ([] ++ growing) :=
      triedKnown_of_grows grows hprevious lasting hlisted (reached_zero windows)
        (by simp [TriedKnown])
    intro ordinal state hget
    simp only [same, Option.bind_some] at hget
    exact (known ordinal state hget).imp_right fun told => has_of_known steps (told.of_subset part)

end Archive

/-- Wherever runs can come, what the repairs of a unit's checkpoint tried is stored. -/
theorem Chronicle.retains {archive : Archive} (chronicle : Chronicle archive) (id : UnitId) :
    archive.Retains id := by
  induction chronicle generalizing id with
  | start archive none => exact Archive.retains_of_none (none id)
  | put chronicle other ordinal text ih =>
      exact (ih id).of_within (Archive.within_put _ other ordinal text) rfl
  | @run _ _ _ unit _ _ _ chronicle course steps ih =>
      have sound := chronicle.sound unit.id
      by_cases same : id = unit.id
      · subst same
        exact (ih unit.id).of_run sound course steps
      · have unchanged := Archive.checkpoints_of_other sound.numbered course steps same
        exact (ih id).of_within (Archive.within_of_steps steps) unchanged

end Graft
