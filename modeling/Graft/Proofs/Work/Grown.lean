import Graft.Proofs.Work.Archive
import Graft.Proofs.Work.Reached

/-!
What the windows of a run come to. A repair ends with an accepted candidate or exhausted
(`Mending.Ends`); so a window is accepted (`Accepts`), or the work halts at it (`Halts`). `Grown` is
the invariant as long as windows are accepted, and `cameTo_of_grows` says that growing keeps it up to
the last window, or up to the one before that at which it halts.
-/

namespace Graft

open Code Generation Work

/-- How a repair of the last function of a window ends that began with a selection. -/
structure Mending.Ends (unit : UnitId) (last : Nat) (selection : Selection) (mended : Mending)
    (happenings : List Happening) : Prop where
  provenance : mended.variant.provenance = mended.selection
  accepted : mended.verdict.isAccepted = true → mended.state.status = .repaired ∧
    mended.selection.get? last = some mended.state.lastTried
  exhausted : mended.verdict.isAccepted = false → mended.state.status = .exhausted
  selected : OrdinalMap.SameBut last selection mended.selection
  known : ∀ attempt, mended.selection.get? last = some attempt →
    selection.get? last = some attempt ∨ Known unit happenings last attempt

namespace Mending

structure Failing (mending : Mending) : Prop where
  provenance : mending.variant.provenance = mending.selection
  rejected : mending.verdict.isAccepted = false

variable {id : UnitId} {last : Nat} {selection : Selection} {mending mended : Mending}
  {happenings rest : List Happening}

/-- A repair that is given up ends where it is. -/
theorem Failing.ends (h : mending.Failing) {state : RepairState}
    (exhausted : state.status = .exhausted) :
    Ends id last mending.selection { mending with state } happenings where
  provenance := h.provenance
  accepted isAccepted := absurd (h.rejected.symm.trans isAccepted) Bool.false_ne_true
  exhausted _ := exhausted
  selected := .refl _ _
  known _ := .inl

theorem Ends.of_subset (ends : Ends id last selection mended rest) (part : rest ⊆ happenings) :
    Ends id last selection mended happenings :=
  { ends with
    known := fun attempt hget => (ends.known attempt hget).imp_right (·.of_subset part) }

/-- A repair that went on with a candidate that was put ends as it does from there on. -/
theorem Ends.of_insert {attempt : Nat}
    (ends : Ends id last (selection.insert last attempt) mended happenings)
    (known : Known id happenings last attempt) : Ends id last selection mended happenings :=
  { ends with
    selected := ((OrdinalMap.SameBut.refl last selection).insert attempt).trans ends.selected
    known := fun other hget => by
      rcases ends.known other hget with hput | hknown
      · obtain rfl : attempt = other := by simpa using hput
        exact .inr known
      · exact .inr hknown }

end Mending

namespace Work

variable {policy : Policy} {settings : WorkSettings} {unit : SourceUnit} {spans : List Span}
  {happenings : List Happening}

theorem known_of_putAndTold {ordinal attempt : Nat} {text : String} :
    Known unit.id (putAndTold unit ordinal text attempt) ordinal attempt :=
  .put List.mem_cons_self

/-- A repair ends with an accepted candidate, which was put, or exhausted. -/
theorem ends_of_mendCalls {last remaining : Nat} {mending : Mending} {result : Except Failure Mending}
    (calls : MendCalls policy unit spans remaining mending happenings result)
    (h : mending.At last) (failing : mending.Failing) :
    ∀ mended, result = .ok mended → mended.Ends unit.id last mending.selection happenings := by
  -- On the calls; each candidate that is put takes the place of the one before it.
  induction calls with
  | spent mending =>
      rintro _ ⟨⟩
      exact failing.ends rfl
  | priorMissing => simp
  | rejected mending prior taken =>
      rintro _ ⟨⟩
      exact failing.ends rfl
  | unanswered mending prior taken herror later ih =>
      intro mended hmended
      exact (ih (h.unanswered _) ⟨failing.provenance, failing.rejected⟩ mended hmended).of_subset
        (List.subset_append_of_subset_right _ (List.subset_cons_self _ _))
  | notStored => simp
  | notMerged => simp
  | @accepted _ mending prior _ text attempt _ variant verdict taken merges isAccepted =>
      rintro _ ⟨⟩
      obtain rfl := h.ordinal
      have provenance := ((concerns_of_merges merges (h.keys_select attempt)).2 _ rfl).2
      have ends : (mending.accepted attempt variant verdict).Ends unit.id mending.state.ordinal
          (mending.select attempt) (putAndTold unit mending.state.ordinal text attempt) :=
        { provenance
          accepted := fun _ => ⟨rfl, OrdinalMap.get?_insert_self _ _ _⟩
          exhausted := fun rejected => absurd (rejected.symm.trans isAccepted) Bool.false_ne_true
          selected := .refl _ _
          known := fun _ => .inl }
      exact (ends.of_insert known_of_putAndTold).of_subset fun _ member => by simp [member]
  | @stillFailing _ mending prior _ text attempt _ _ _ _ _ taken merges notAccepted later ih =>
      intro mended hmended
      have provenance := ((concerns_of_merges merges (h.keys_select attempt)).2 _ rfl).2
      have ends := ih (h.stillFailing attempt _ _) ⟨provenance, notAccepted⟩ mended hmended
      obtain rfl := h.ordinal
      have put : Known unit.id (putAndTold unit mending.state.ordinal text attempt)
          mending.state.ordinal attempt := known_of_putAndTold
      exact (ends.of_subset fun _ member => by simp [member]).of_insert
        (put.of_subset fun _ member => by simp [member])

theorem ends_of_mends {last : Nat} {mending mended : Mending}
    (mends : Mends policy unit spans mending happenings (.ok mended)) (h : mending.At last)
    (failing : mending.Failing) : mended.Ends unit.id last mending.selection happenings := by
  cases mends with
  | unwanted =>
      exact failing.ends rfl
  | wanted fix calls => exact ends_of_mendCalls calls h failing mended rfl

end Work

/-- That a window is accepted: its variant is the one that the selection makes, the attempt at its last
function was put or listed, and a repair of this function has succeeded with this attempt. -/
structure Accepts (unit : UnitId) (last : Nat) (before after : Progress)
    (happenings : List Happening) : Prop where
  goesOn : after.haltedAt = none
  windows : ∃ variant verdict, variant.provenance = after.selection ∧ verdict.isAccepted = true ∧
    after.windows = before.windows ++ [⟨last + 1, variant, verdict⟩]
  selected : OrdinalMap.SameBut (last + 1) before.selection after.selection
  known : ∀ attempt, after.selection.get? (last + 1) = some attempt →
    Known unit happenings (last + 1) attempt
  others : OrdinalMap.SameBut (last + 1) before.repairs after.repairs
  repaired : ∀ state, after.repairs.get? (last + 1) = some state →
    state.status = .repaired ∧ after.selection.get? (last + 1) = some state.lastTried

/-- That the work halts at a function: no window was added, or a rejected one, and the repair of the
function is exhausted. -/
structure Halts (last : Nat) (before after : Progress) : Prop where
  haltedAt : after.haltedAt = some (last + 1)
  windows : after.windows = before.windows ∨ ∃ variant verdict, verdict.isAccepted = false ∧
    after.windows = before.windows ++ [⟨last + 1, variant, verdict⟩]
  others : OrdinalMap.SameBut (last + 1) before.repairs after.repairs
  exhausted : ∃ state, after.repairs.get? (last + 1) = some state ∧ state.status = .exhausted

theorem Accepts.windows_prefix {unit : UnitId} {last : Nat} {before after : Progress}
    {happenings : List Happening} (accepts : Accepts unit last before after happenings) :
    before.windows <+: after.windows := by
  obtain ⟨_, _, -, -, same⟩ := accepts.windows
  exact same ▸ List.prefix_append before.windows _

theorem Halts.windows_prefix {last : Nat} {before after : Progress} (halts : Halts last before after) :
    before.windows <+: after.windows := by
  rcases halts.windows with same | ⟨_, _, -, same⟩
  · exact same ▸ List.prefix_refl before.windows
  · exact same ▸ List.prefix_append before.windows _

/-- That the last attempt of a repair that has succeeded is listed whenever attempts are. -/
def Lasting (unit : UnitId) (previous : Option Checkpoint) (happenings : List Happening) : Prop :=
  ∀ ordinal state, previous.bind (·.repairs.get? ordinal) = some state → state.status = .repaired →
    ∀ stored, ⟨.attempts unit ordinal, .ok stored⟩ ∈ happenings → state.lastTried ∈ stored

theorem Lasting.of_subset {unit : UnitId} {previous : Option Checkpoint}
    {happenings rest : List Happening} (lasting : Lasting unit previous happenings)
    (part : rest ⊆ happenings) : Lasting unit previous rest :=
  fun ordinal state restored repaired stored member =>
    lasting ordinal state restored repaired stored (part member)

namespace Work

variable {policy : Policy} {settings : WorkSettings} {unit : SourceUnit} {spans : List Span}
  {happenings first settling : List Happening} {previous : Option Checkpoint}

theorem mem_of_chosenAttempt? {ordinal attempt : Nat} {stored : List Nat}
    (choice : chosenAttempt? previous ordinal stored = some attempt) : attempt ∈ stored := by
  unfold chosenAttempt? at choice
  cases kept : (previous.bind (·.selection.get? ordinal)).filter stored.contains with
  | some chosen =>
      obtain rfl : chosen = attempt := by simpa [kept] using choice
      simpa using (Option.filter_eq_some_iff.1 kept).2
  | none => exact List.mem_of_getLast? (by simpa [kept] using choice)

/-- A function begins with an attempt that was put or listed; a repair that has succeeded goes on with
the attempt that made it a success. -/
theorem known_of_begins {ordinal attempt : Nat} {repairs after : OrdinalMap RepairState}
    (begins : Begins policy unit ordinal previous repairs happenings attempt after)
    (lasting : Lasting unit.id previous happenings) (fresh : repairs.get? ordinal = none) :
    Known unit.id happenings ordinal attempt ∧ OrdinalMap.SameBut ordinal repairs after ∧
      ∀ state, after.get? ordinal = some state → state.status = .repaired →
        state.lastTried = attempt := by
  have same := OrdinalMap.SameBut.refl ordinal repairs
  cases begins with
  | anew put => exact ⟨.put put, same, by simp [fresh]⟩
  | chosen listed notRestored choice =>
      exact ⟨.listed listed (mem_of_chosenAttempt? choice), same, by simp [fresh]⟩
  | @kept stored state listed restored goesOn =>
      have stores := mem_of_continuation (congrArg Continuation.attempt? goesOn)
      refine ⟨.listed listed stores, same.insert _, ?_⟩
      intro refreshed hget repaired
      obtain rfl : _ = refreshed := by simpa using hget
      -- A success whose attempt were not listed would go on with the latest one instead.
      have hlast : (state.refreshBudget policy.maxFixAttempts).lastTried ∈ stored :=
        lasting ordinal state restored (by simpa using repaired) stored listed
      exact Continuation.kept.inj ((continuation_eq_kept hlast (.inl repaired)).symm.trans goesOn)
  | resumed listed restored goesOn =>
      have stores := mem_of_continuation (congrArg Continuation.attempt? goesOn)
      refine ⟨.listed listed stores, same.insert _, ?_⟩
      intro state hget repaired
      obtain rfl : _ = state := by simpa using hget
      cases repaired

/-- A repair that has succeeded with the accepted attempt, or does so now. -/
theorem repaired_of_settles {ordinal attempt : Nat} {repairs settled : OrdinalMap RepairState}
    (settles : Settles unit ordinal attempt repairs happenings settled)
    (tried : ∀ state, repairs.get? ordinal = some state → state.status = .repaired →
      state.lastTried = attempt) :
    OrdinalMap.SameBut ordinal repairs settled ∧ ∀ state, settled.get? ordinal = some state →
      state.status = .repaired ∧ state.lastTried = attempt := by
  cases settles with
  | untouched done =>
      exact ⟨.refl _ _, fun state hget => ⟨done state hget, tried state hget (done state hget)⟩⟩
  | repaired found notYet =>
      refine ⟨.insert (.refl _ _) _, fun state hget => ?_⟩
      obtain rfl : _ = state := by simpa using hget
      exact ⟨rfl, rfl⟩

/-- A window selects the attempt that it began with, or one that its repair put. -/
theorem known_of_windowSettles {last attempt : Nat} {progress after : Progress}
    (settles : WindowSettles settings unit spans (last + 1) attempt progress happenings (.ok after))
    (selected : OrdinalMap.keys progress.selection = List.range' 1 last)
    (numbered : NumberedUpTo (last + 1) progress.repairs)
    (known : Known unit.id first (last + 1) attempt) :
    OrdinalMap.SameBut (last + 1) progress.selection after.selection ∧
      ∀ other, after.selection.get? (last + 1) = some other →
        Known unit.id (first ++ happenings) (last + 1) other := by
  have hselected := keys_insert_succ selected attempt
  have same := (OrdinalMap.SameBut.refl (last + 1) progress.selection).insert attempt
  have begun : ∀ other, (progress.selection.insert (last + 1) attempt).get? (last + 1) = some other →
      Known unit.id (first ++ happenings) (last + 1) other := by
    intro other hget
    obtain rfl : attempt = other := by simpa using hget
    exact known.of_subset (List.subset_append_left _ _)
  cases settled_of_windowSettles settles with
  | accepted merges isAccepted repair =>
      exact ⟨same, begun⟩
  | @rejected _ _ _ _ mended merges notAccepted mends =>
      have provenance := ((concerns_of_merges merges hselected).2 _ rfl).2
      have ends := ends_of_mends mends
        ⟨Nat.succ_pos last, ordinal_repairFor numbered, hselected⟩ ⟨provenance, notAccepted⟩
      refine ⟨same.trans ends.selected, fun other hget => ?_⟩
      rcases ends.known other hget with hfirst | hput
      · exact begun other hfirst
      · exact hput.of_subset fun _ member => by simp [member]

/-- A window with an attempt at its last function is accepted, or the work halts at it. -/
theorem accepts_or_halts_of_windowSettles {last attempt : Nat} {progress after : Progress}
    (settles : WindowSettles settings unit spans (last + 1) attempt progress happenings (.ok after))
    (selected : OrdinalMap.keys progress.selection = List.range' 1 last)
    (numbered : NumberedUpTo (last + 1) progress.repairs)
    (tried : ∀ state, progress.repairs.get? (last + 1) = some state → state.status = .repaired →
      state.lastTried = attempt)
    (known : Known unit.id first (last + 1) attempt) :
    Accepts unit.id last progress after (first ++ happenings) ∨ Halts last progress after := by
  have hselected := keys_insert_succ selected attempt
  obtain ⟨same, hknown⟩ := known_of_windowSettles settles selected numbered known
  cases settled_of_windowSettles settles with
  | @accepted _ _ variant verdict _ merges isAccepted repair =>
      obtain ⟨others, repaired⟩ := repaired_of_settles repair tried
      refine .inl ⟨rfl, ⟨variant, verdict, ?_, isAccepted, rfl⟩, same, hknown, others, ?_⟩
      · exact ((concerns_of_merges merges hselected).2 _ rfl).2
      · intro state hget
        obtain ⟨status, rfl⟩ := repaired state hget
        exact ⟨status, OrdinalMap.get?_insert_self _ _ _⟩
  | @rejected _ _ variant verdict mended merges notAccepted mends =>
      have provenance := ((concerns_of_merges merges hselected).2 _ rfl).2
      have ends := ends_of_mends mends
        ⟨Nat.succ_pos last, ordinal_repairFor numbered, hselected⟩ ⟨provenance, notAccepted⟩
      have others := (OrdinalMap.SameBut.refl (last + 1) progress.repairs).insert mended.state
      cases accepted : mended.verdict.isAccepted with
      | true =>
          obtain ⟨status, htried⟩ := ends.accepted accepted
          refine .inl ⟨by simp [Progress.mended, accepted],
            ⟨_, _, ends.provenance, accepted, rfl⟩, same, hknown, others, ?_⟩
          intro state hget
          obtain rfl : mended.state = state := by simpa [Progress.mended] using hget
          exact ⟨status, htried⟩
      | false =>
          exact .inr ⟨by simp [Progress.mended, accepted], .inr ⟨_, _, accepted, rfl⟩, others,
            ⟨mended.state, OrdinalMap.get?_insert_self _ _ _, ends.exhausted accepted⟩⟩

/-- A window is accepted, or the work halts at it. -/
theorem accepts_or_halts_of_window {last : Nat} {progress after : Progress}
    (window : Window settings unit spans previous (last + 1) progress happenings (.ok after))
    (hprevious : Numbered previous) (lasting : Lasting unit.id previous happenings)
    (reached : Reached last progress) :
    Accepts unit.id last progress after happenings ∨ Halts last progress after := by
  cases window with
  | noAttempt attempts =>
      obtain ⟨refused, -, exhausted, -, rfl⟩ := refused_of_firstAttempt attempts
      exact .inr ⟨rfl, .inl rfl, .insert (.refl _ _) _,
        ⟨refused, OrdinalMap.get?_insert_self _ _ _, exhausted⟩⟩
  | settled attempts settles =>
      have fresh := reached.numbered.get?_succ
      obtain ⟨known, others, tried⟩ := known_of_begins (begins_of_firstAttempt attempts)
        (lasting.of_subset (List.subset_append_left _ _)) fresh
      rcases accepts_or_halts_of_windowSettles settles reached.selected
        (numbered_of_firstAttempt attempts hprevious reached.numbered) tried known with accepts | halts
      · exact .inl { accepts with others := others.trans accepts.others }
      · exact .inr { halts with others := others.trans halts.others }

end Work

/-- The invariant of growing as long as windows are accepted. The windows are numbered from one up; each
was made by the attempts that are selected up to its function, and these were put or listed; repairs
have succeeded with the selected attempts. -/
structure Grown (unit : UnitId) (last : Nat) (progress : Progress)
    (happenings : List Happening) : Prop extends Reached last progress where
  goesOn : progress.haltedAt = none
  windows : progress.windows.map (·.window) = List.range' 1 last
  accepted : ∀ window ∈ progress.windows, window.verdict.isAccepted = true
  provenance : ∀ window ∈ progress.windows, ∀ ordinal ≤ window.window,
    window.variant.provenance.get? ordinal = progress.selection.get? ordinal
  known : ∀ ordinal attempt, progress.selection.get? ordinal = some attempt →
    Known unit happenings ordinal attempt
  repaired : ∀ ordinal state, progress.repairs.get? ordinal = some state →
    state.status = .repaired ∧ progress.selection.get? ordinal = some state.lastTried

namespace Grown

variable {unit : UnitId} {last : Nat} {progress after : Progress} {earlier happenings : List Happening}

theorem zero : Grown unit 0 ⟨∅, ∅, [], none⟩ [] :=
  { reached_zero [] with
    goesOn := rfl
    windows := rfl
    accepted := by simp
    provenance := by simp
    known := by simp
    repaired := by simp }

theorem of_subset (grown : Grown unit last progress earlier) (part : earlier ⊆ happenings) :
    Grown unit last progress happenings :=
  { grown with known := fun ordinal attempt hget => (grown.known ordinal attempt hget).of_subset part }

theorem window_le (grown : Grown unit last progress happenings) {window : WindowOutcome}
    (member : window ∈ progress.windows) : window.window ≤ last := by
  have hmap := List.mem_map_of_mem (f := (·.window)) member
  rw [grown.windows, List.mem_range'_1] at hmap
  omega

/-- An accepted window preserves the invariant. -/
theorem accepts (grown : Grown unit last progress earlier)
    (accepts : Accepts unit last progress after happenings) (reached : Reached (last + 1) after) :
    Grown unit (last + 1) after (earlier ++ happenings) := by
  obtain ⟨variant, verdict, provenance, isAccepted, hwindows⟩ := accepts.windows
  refine { reached with goesOn := accepts.goesOn, windows := ?_, accepted := ?_, provenance := ?_,
                        known := ?_, repaired := ?_ }
  · rw [hwindows, List.map_append, grown.windows, List.range'_1_concat, Nat.add_comm]
    rfl
  · rw [hwindows]
    exact List.forall_mem_append.2 ⟨grown.accepted, by simpa using isAccepted⟩
  · rw [hwindows]
    refine List.forall_mem_append.2 ⟨fun window member ordinal hle => ?_, by simp [provenance]⟩
    have hlast := grown.window_le member
    rw [grown.provenance window member ordinal hle, accepts.selected ordinal (by omega)]
  · intro ordinal attempt hget
    by_cases same : ordinal = last + 1
    · subst same
      exact (accepts.known attempt hget).of_subset (List.subset_append_right _ _)
    · rw [accepts.selected ordinal same] at hget
      exact (grown.known ordinal attempt hget).of_subset (List.subset_append_left _ _)
  · intro ordinal state hget
    by_cases same : ordinal = last + 1
    · subst same
      exact accepts.repaired state hget
    · rw [accepts.others ordinal same] at hget
      rw [accepts.selected ordinal same]
      exact grown.repaired ordinal state hget

end Grown

/-- What growing comes to: all windows are accepted, or all up to the one at which the work halts. -/
inductive CameTo (unit : UnitId) (requested : Nat) (progress : Progress)
    (happenings : List Happening) : Prop
  | all (grown : Grown unit requested progress happenings)
  | halted {last : Nat} {before : Progress} (within : last < requested)
      (grown : Grown unit last before happenings) (halts : Halts last before progress)

namespace Work

variable {settings : WorkSettings} {unit : SourceUnit} {spans : List Span}
  {earlier happenings : List Happening} {previous : Option Checkpoint}

/-- Growing comes to the last window, or halts before. -/
theorem cameTo_of_grows {last count : Nat} {progress after : Progress}
    (grows : Grows settings unit spans previous (List.range' (last + 1) count) progress happenings
      (.ok after))
    (hprevious : Numbered previous) (lasting : Lasting unit.id previous happenings)
    (grown : Grown unit.id last progress earlier) :
    CameTo unit.id (last + count) after (earlier ++ happenings) := by
  induction count generalizing last progress earlier happenings with
  | zero =>
      cases grows
      exact .all (by simpa using grown)
  | succ count ih =>
      rw [List.range'_succ] at grows
      cases grows with
      | halted window halts =>
          rcases accepts_or_halts_of_window window hprevious lasting grown.toReached with
            accepts | stops
          · exact absurd accepts.goesOn halts
          · exact .halted (by omega) (grown.of_subset (List.subset_append_left _ _)) stops
      | further window goesOn later =>
          have reached := reached_of_window window hprevious grown.toReached goesOn
          have hfirst := lasting.of_subset (List.subset_append_left _ _)
          rcases accepts_or_halts_of_window window hprevious hfirst grown.toReached with
            accepts | stops
          · have cameTo := ih later (lasting.of_subset (List.subset_append_right _ _))
              (grown.accepts accepts reached)
            rwa [List.append_assoc, Nat.add_assoc, Nat.add_comm 1] at cameTo
          · exact absurd goesOn (by simp [stops.haltedAt])

end Work

end Graft
