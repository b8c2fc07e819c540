import Graft.Proofs.Work.Reached
import Mathlib.Data.List.Basic

/-!
How much the work on a unit asks of the service. A function has at most as many requests for a first
candidate, and at most as many for a repair, as the policy allows calls; one whose repair goes on
from an earlier run has only what that run left. `requests_within_budget` says so of every course, and
that no course is longer than a bound that the budget and the number of windows give.
-/

namespace Graft

open Code Generation

namespace Generation.Request

def isFirstFor (ordinal : Nat) (request : Request) : Bool :=
  !request.isRepair && request.ordinal == ordinal

def isRepairFor (ordinal : Nat) (request : Request) : Bool :=
  request.isRepair && request.ordinal == ordinal

end Generation.Request

/-- That no function has more requests than a policy allows. -/
structure WithinBudget (policy : Policy) (requests : List Request) : Prop where
  first : ∀ ordinal, requests.countP (·.isFirstFor ordinal) ≤ max 1 policy.maxFixAttempts
  repair : ∀ ordinal, requests.countP (·.isRepairFor ordinal) ≤ policy.maxFixAttempts
  unwanted : policy.autoFix = false → ∀ request ∈ requests, request.isRepair = false

/-- Two lists of which one at most has requests of a kind have no more than one of them. -/
theorem countP_append_le {requests others : List Request} {p : Request → Bool} {bound : Nat}
    (hfirst : requests.countP p ≤ bound) (hrest : others.countP p ≤ bound)
    (apart : (∀ request ∈ requests, p request = false) ∨ ∀ request ∈ others, p request = false) :
    (requests ++ others).countP p ≤ bound := by
  rw [List.countP_append]
  rcases apart with none | none
  · have hzero : requests.countP p = 0 := List.countP_eq_zero.2 (by simpa using none)
    omega
  · have hzero : others.countP p = 0 := List.countP_eq_zero.2 (by simpa using none)
    omega

/-- Requests for a first candidate, and for repairs behind them, keep within the budget if there are
few enough of both. -/
theorem withinBudget_of_length_le {policy : Policy} {firsts repairs : List Request}
    (hfirsts : firsts.length ≤ max policy.maxFixAttempts 1)
    (noRepair : ∀ request ∈ firsts, request.isRepair = false)
    (hrepairs : repairs.length ≤ if policy.autoFix then policy.maxFixAttempts else 0)
    (allRepair : ∀ request ∈ repairs, request.isRepair = true) :
    WithinBudget policy (firsts ++ repairs) := by
  refine ⟨fun ordinal => ?_, fun ordinal => ?_, fun noFix => ?_⟩
  · have hcount := List.countP_le_length (l := firsts) (p := (·.isFirstFor ordinal))
    have hzero : repairs.countP (·.isFirstFor ordinal) = 0 :=
      List.countP_eq_zero.2 fun request member => by
        simp [Request.isFirstFor, allRepair request member]
    rw [List.countP_append]
    omega
  · have hcount := List.countP_le_length (l := repairs) (p := (·.isRepairFor ordinal))
    have hzero : firsts.countP (·.isRepairFor ordinal) = 0 :=
      List.countP_eq_zero.2 fun request member => by
        simp [Request.isRepairFor, noRepair request member]
    rw [List.countP_append]
    split at hrepairs <;> omega
  · have hnone : repairs = [] := by simpa [noFix] using hrepairs
    simpa [hnone] using noRepair

/-- Requests for functions up to an ordinal, and behind it, keep within the budget together if each do
alone. -/
theorem WithinBudget.append {policy : Policy} {requests others : List Request} {last : Nat}
    (hfirst : WithinBudget policy requests) (hrest : WithinBudget policy others)
    (upTo : ∀ request ∈ requests, request.ordinal ≤ last)
    (behind : ∀ request ∈ others, last < request.ordinal) :
    WithinBudget policy (requests ++ others) := by
  -- No ordinal has requests in both lists, so its count is that of one of them.
  have apart (ordinal : Nat) : (∀ request ∈ requests, request.ordinal ≠ ordinal) ∨
      ∀ request ∈ others, request.ordinal ≠ ordinal := by
    by_cases hlast : last < ordinal
    · exact .inl fun request member same => by
        have := upTo request member
        omega
    · exact .inr fun request member same => by
        have := behind request member
        omega
  refine ⟨fun ordinal => ?_, fun ordinal => ?_, fun noFix => ?_⟩
  · apply countP_append_le (hfirst.first ordinal) (hrest.first ordinal)
    exact (apart ordinal).imp
      (fun none request member => by simp [Request.isFirstFor, none request member])
      (fun none request member => by simp [Request.isFirstFor, none request member])
  · apply countP_append_le (hfirst.repair ordinal) (hrest.repair ordinal)
    exact (apart ordinal).imp
      (fun none request member => by simp [Request.isRepairFor, none request member])
      (fun none request member => by simp [Request.isRepairFor, none request member])
  · exact List.forall_mem_append.2 ⟨hfirst.unwanted noFix, hrest.unwanted noFix⟩

namespace RepairState

theorem callsLeft_le (state : RepairState) : state.callsLeft ≤ state.budget - state.consumed := by
  unfold callsLeft
  split <;> omega

end RepairState

namespace Work

variable {policy : Policy} {settings : WorkSettings} {unit : SourceUnit} {spans : List Span}
  {happenings : List Happening}

/-- Asking for a first candidate sends the same request for each call. -/
theorem cost_of_firstCalls {request : Request} {remaining : Nat} {state : RepairState}
    {result : Except Failure FirstCandidate}
    (calls : FirstCalls policy request remaining state happenings result) :
    (asked happenings).length ≤ remaining ∧ (∀ sent ∈ asked happenings, sent = request) ∧
      happenings.length ≤ 2 * remaining + 1 := by
  induction calls with
  | spent => simp [toldTransition]
  | notStored =>
      simp only [asked_cons_ask, asked_cons_put, asked_nil, List.length_cons, List.length_nil]
      exact ⟨by omega, by simp, by omega⟩
  | stored =>
      simp only [asked_cons_ask, asked_cons_put, asked_cons_told, asked_nil, List.length_cons,
        List.length_nil]
      exact ⟨by omega, by simp, by omega⟩
  | rejected =>
      simp only [asked_cons_ask, toldTransition, asked_cons_told, asked_nil, List.length_cons,
        List.length_nil]
      exact ⟨by omega, by simp, by omega⟩
  | again taken herror later ih =>
      obtain ⟨hasked, hsame, hlength⟩ := ih
      simp only [asked_cons_ask, asked_cons_told, List.length_cons]
      exact ⟨by omega, by simpa using hsame, by omega⟩

theorem cost_of_generates {ordinal : Nat} {repairs : OrdinalMap RepairState}
    {result : Except Failure (Option Nat × OrdinalMap RepairState)}
    (generates : Generates policy unit spans ordinal repairs happenings result) :
    (asked happenings).length ≤ max policy.maxFixAttempts 1 ∧
      (∀ request ∈ asked happenings, request.isRepair = false) ∧
      happenings.length ≤ 2 * max policy.maxFixAttempts 1 + 1 := by
  obtain ⟨last, calls, -⟩ := generates
  obtain ⟨hasked, hsame, hlength⟩ := cost_of_firstCalls calls
  refine ⟨hasked, fun request member => ?_, hlength⟩
  rw [hsame request member, requestFor_isRepair]
  rfl

/-- The search for a first attempt sends requests for a first candidate only. -/
theorem cost_of_firstAttempt {ordinal : Nat} {previous : Option Checkpoint}
    {repairs : OrdinalMap RepairState} {useCache : Bool}
    {result : Except Failure (Option Nat × OrdinalMap RepairState)}
    (attempts : FirstAttempt policy unit spans ordinal previous repairs useCache happenings result) :
    (asked happenings).length ≤ max policy.maxFixAttempts 1 ∧
      (∀ request ∈ asked happenings, request.isRepair = false) ∧
      happenings.length ≤ 2 * max policy.maxFixAttempts 1 + 2 := by
  cases attempts with
  | uncached generates =>
      obtain ⟨hasked, noRepair, hlength⟩ := cost_of_generates generates
      exact ⟨hasked, noRepair, by omega⟩
  | unlisted => simp
  | kept => simp
  | resumed => simp [toldTransition]
  | lost restored goesOn generates => simpa using cost_of_generates generates
  | chosen => simp
  | fresh notRestored choice generates => simpa using cost_of_generates generates

theorem cost_of_fetches {id : UnitId} {entries : List (Nat × Nat)}
    {result : Except Failure (List (Nat × String))}
    (fetches : Fetches id entries happenings result) :
    asked happenings = [] ∧ happenings.length ≤ entries.length := by
  induction fetches with
  | nil => simp
  | missing => simp
  | cons text later ih => simpa using ih

/-- Merging asks nothing, and fetches each selected candidate once. -/
theorem cost_of_merges {last : Nat} {selection : Selection} {result : Except Failure Variant}
    (merges : Merges unit spans selection happenings result)
    (selected : OrdinalMap.keys selection = List.range' 1 last) :
    asked happenings = [] ∧ happenings.length ≤ last := by
  have hsize : selection.entries.length = last := by
    have hkeys := congrArg List.length selected
    simpa [OrdinalMap.keys] using hkeys
  cases merges with
  | unfit => simp
  | fetched check fetches => exact hsize ▸ cost_of_fetches fetches

@[simp] theorem asked_called (mending : Mending) (prior : String) (reply : Reply) :
    asked (called unit spans mending prior reply) = [mending.request unit spans prior] := rfl

@[simp] theorem asked_putAndTold (ordinal : Nat) (text : String) (attempt : Nat) :
    asked (putAndTold unit ordinal text attempt) = [] := rfl

@[simp] theorem length_called (mending : Mending) (prior : String) (reply : Reply) :
    (called unit spans mending prior reply).length = 3 := rfl

@[simp] theorem length_putAndTold (ordinal : Nat) (text : String) (attempt : Nat) :
    (putAndTold unit ordinal text attempt).length = 2 := rfl

/-- A repair sends at most one request for each call that it may make. -/
theorem cost_of_mendCalls {last remaining : Nat} {mending : Mending}
    {result : Except Failure Mending}
    (calls : MendCalls policy unit spans remaining mending happenings result)
    (h : mending.At last) :
    (asked happenings).length ≤ remaining ∧
      (∀ request ∈ asked happenings, request.isRepair = true) ∧
      happenings.length ≤ remaining * (last + 8) + 1 := by
  induction calls with
  | spent => simp [toldTransition]
  | priorMissing =>
      simp only [asked_cons_told, asked_cons_get, asked_nil, List.length_nil, List.length_cons,
        Nat.add_mul]
      exact ⟨by omega, by simp, by omega⟩
  | rejected mending prior taken =>
      simp only [asked_append, asked_called, toldTransition, asked_cons_told, asked_nil, length_called,
        List.length_append, List.length_nil, List.length_cons, Nat.add_mul]
      exact ⟨by omega, by simp, by omega⟩
  | unanswered mending prior taken herror later ih =>
      obtain ⟨hasked, hrepairs, hlength⟩ := ih (h.unanswered _)
      simp only [asked_append, asked_called, asked_cons_told, length_called,
        List.length_append, List.length_nil, List.length_cons, Nat.add_mul]
      exact ⟨by omega, by simpa using hrepairs, by omega⟩
  | notStored mending prior error taken =>
      simp only [asked_append, asked_called, asked_cons_put, asked_nil, length_called,
        List.length_append, List.length_nil, List.length_cons, Nat.add_mul]
      exact ⟨by omega, by simp, by omega⟩
  | notMerged mending prior attempt taken merges =>
      obtain ⟨hmerging, hfetches⟩ := cost_of_merges merges (h.keys_select attempt)
      simp only [asked_append, asked_called, asked_putAndTold, hmerging,
        length_called, length_putAndTold, List.length_append, List.length_nil, List.length_cons, Nat.add_mul]
      exact ⟨by omega, by simp, by omega⟩
  | accepted mending prior attempt taken merges isAccepted =>
      obtain ⟨hmerging, hfetches⟩ := cost_of_merges merges (h.keys_select attempt)
      simp only [asked_append, asked_called, asked_putAndTold, hmerging, asked_cons_validate,
        toldVerdict, toldTransition, asked_cons_told, asked_nil,
        length_called, length_putAndTold, List.length_append, List.length_nil, List.length_cons, Nat.add_mul]
      exact ⟨by omega, by simp, by omega⟩
  | stillFailing mending prior attempt taken merges notAccepted later ih =>
      obtain ⟨hmerging, hfetches⟩ := cost_of_merges merges (h.keys_select attempt)
      obtain ⟨hasked, hrepairs, hlength⟩ := ih (h.stillFailing attempt _ _)
      simp only [asked_append, asked_called, asked_putAndTold, hmerging, asked_cons_validate,
        toldVerdict, asked_cons_told,
        length_called, length_putAndTold, List.length_append, List.length_nil, List.length_cons, Nat.add_mul]
      exact ⟨by omega, by simpa using hrepairs, by omega⟩

/-- A repair that is not wanted asks nothing, and one that is wanted no more than its state allows. -/
theorem cost_of_mends {last : Nat} {mending : Mending} {result : Except Failure Mending}
    (mends : Mends policy unit spans mending happenings result) (h : mending.At last) :
    (asked happenings).length ≤ (if policy.autoFix then mending.state.callsLeft else 0) ∧
      (∀ request ∈ asked happenings, request.isRepair = true) ∧
      happenings.length ≤ mending.state.callsLeft * (last + 8) + 1 := by
  cases mends with
  | unwanted noFix => simp [noFix, toldTransition]
  | wanted fix calls => simpa [fix] using cost_of_mendCalls calls h

def Rejects (happenings : List Happening) (window : Nat) : Prop :=
  ∃ variant fileName verdict, ⟨.validate variant fileName, verdict⟩ ∈ happenings ∧
    variant.window = window ∧ verdict.isAccepted = false

theorem Rejects.of_subset {part : List Happening} {window : Nat} (sub : part ⊆ happenings)
    (h : Rejects part window) : Rejects happenings window := by
  obtain ⟨variant, fileName, verdict, member, hwindow, rejected⟩ := h
  exact ⟨variant, fileName, verdict, sub member, hwindow, rejected⟩

/-- What becomes of a window asks for repairs only, no more than the state of the repair of its last
function allows, and only if a variant of the window was rejected. -/
theorem cost_of_windowSettles {last attempt : Nat} {progress : Progress}
    {result : Except Failure Progress}
    (settles : WindowSettles settings unit spans (last + 1) attempt progress happenings result)
    (selected : OrdinalMap.keys progress.selection = List.range' 1 last)
    (numbered : NumberedUpTo (last + 1) progress.repairs) :
    let state := repairFor settings.policy (last + 1) attempt progress.repairs
    (asked happenings).length ≤ (if settings.policy.autoFix then state.callsLeft else 0) ∧
      (∀ request ∈ asked happenings, request.isRepair = true) ∧
      (asked happenings ≠ [] → Rejects happenings (last + 1)) ∧
      happenings.length ≤ last + 4 + state.callsLeft * (last + 9) := by
  intro state
  have hselected := keys_insert_succ selected attempt
  cases settles with
  | notMerged merges =>
      obtain ⟨hasked, hlength⟩ := cost_of_merges merges hselected
      simp only [hasked]
      exact ⟨by simp, by simp, by simp, by omega⟩
  | accepted merges isAccepted settles =>
      obtain ⟨hasked, hlength⟩ := cost_of_merges merges hselected
      cases settles with
      | untouched =>
          simp only [asked_append, hasked, asked_cons_validate, toldVerdict, asked_cons_told,
            asked_nil, List.length_append, List.length_cons, List.length_nil]
          exact ⟨by simp, by simp, by simp, by omega⟩
      | repaired found notYet =>
          simp only [asked_append, hasked, asked_cons_validate, toldVerdict, toldTransition,
            asked_cons_told, asked_nil, List.length_append, List.length_cons, List.length_nil]
          exact ⟨by simp, by simp, by simp, by omega⟩
  | @rejected _ mending _ _ _ merges notAccepted mends =>
      obtain ⟨hasked, hlength⟩ := cost_of_merges merges hselected
      obtain ⟨hcalls, hrepairs, hmends⟩ := cost_of_mends mends
        ⟨Nat.succ_pos last, ordinal_repairFor numbered, hselected⟩
      have hmending : mending.length ≤ state.callsLeft * (last + 9) + 1 := hmends
      have hwindow := ((concerns_of_merges merges hselected).2 _ rfl).1
      simp only [asked_append, hasked, asked_cons_validate, toldVerdict, asked_cons_told,
        List.nil_append, List.length_append, List.length_cons]
      exact ⟨hcalls, hrepairs, fun _ => ⟨_, _, _, List.mem_append_right _ List.mem_cons_self,
        hwindow, notAccepted⟩, by omega⟩

theorem budget_repairFor {ordinal attempt : Nat} {repairs : OrdinalMap RepairState}
    (h : ∀ state, repairs.get? ordinal = some state → state.budget = policy.maxFixAttempts) :
    (repairFor policy ordinal attempt repairs).budget = policy.maxFixAttempts := by
  unfold repairFor
  split
  · next state found =>
      split
      · rfl
      · exact h state found
  · rfl

/-- A repair that starts or goes on behind a first attempt has no more calls than the policy allows. -/
theorem callsLeft_of_firstAttempt {last attempt : Nat} {previous : Option Checkpoint}
    {repairs after : OrdinalMap RepairState} {useCache : Bool}
    (attempts : FirstAttempt policy unit spans (last + 1) previous repairs useCache happenings
      (.ok (some attempt, after)))
    (numbered : NumberedUpTo last repairs) :
    (repairFor policy (last + 1) attempt after).callsLeft ≤ policy.maxFixAttempts := by
  have hbudget : (repairFor policy (last + 1) attempt after).budget = policy.maxFixAttempts := by
    apply budget_repairFor
    intro state hget
    have hnone := numbered.get?_succ
    cases begins_of_firstAttempt attempts with
    | anew => simp [hnone] at hget
    | chosen => simp [hnone] at hget
    | kept =>
        rw [OrdinalMap.get?_insert_self] at hget
        obtain rfl := Option.some.inj hget
        rfl
    | resumed =>
        rw [OrdinalMap.get?_insert_self] at hget
        obtain rfl := Option.some.inj hget
        rfl
  have hle := (repairFor policy (last + 1) attempt after).callsLeft_le
  omega

/-- The repair of a function goes on as an earlier run left it: its last attempt is still stored, no
newer one takes its place, and a repair that was a success is not started over. -/
structure GoesOn (unit : UnitId) (ordinal : Nat) (state : RepairState)
    (happenings : List Happening) : Prop where
  stored : ∀ stored, ⟨.attempts unit ordinal, .ok stored⟩ ∈ happenings →
    state.lastTried ∈ stored ∧
      (state.status = .repaired ∨ ∀ attempt ∈ stored.getLast?, attempt ≤ state.lastTried)
  notRestarted : state.status = .repaired → ¬Rejects happenings ordinal

theorem GoesOn.of_subset {id : UnitId} {ordinal : Nat} {state : RepairState} {part : List Happening}
    (h : GoesOn id ordinal state happenings) (sub : part ⊆ happenings) : GoesOn id ordinal state part :=
  ⟨fun stored listed => h.stored stored (sub listed),
    fun repaired rejects => h.notRestarted repaired (rejects.of_subset sub)⟩

/-- A window keeps within the budget, and its length within a bound that the budget gives. -/
theorem cost_of_window {last : Nat} {previous : Option Checkpoint} {progress : Progress}
    {result : Except Failure Progress}
    (window : Window settings unit spans previous (last + 1) progress happenings result)
    (hprevious : Numbered previous) (reached : Reached last progress) :
    WithinBudget settings.policy (asked happenings) ∧
      happenings.length ≤ (settings.policy.maxFixAttempts + 1) * (last + 11) := by
  have halted {first : List Happening}
      {found : Except Failure (Option Nat × OrdinalMap RepairState)}
      (attempts : FirstAttempt settings.policy unit spans (last + 1) previous progress.repairs
        settings.useCache first found) :
      WithinBudget settings.policy (asked first) ∧
        first.length ≤ (settings.policy.maxFixAttempts + 1) * (last + 11) := by
    obtain ⟨hfirsts, noRepair, hlength⟩ := cost_of_firstAttempt attempts
    have hbudget : WithinBudget settings.policy (asked first ++ []) :=
      withinBudget_of_length_le hfirsts noRepair (Nat.zero_le _) (by simp)
    refine ⟨by simpa using hbudget, ?_⟩
    simp only [Nat.add_mul, Nat.mul_add]
    omega
  cases window with
  | noFirst attempts => exact halted attempts
  | noAttempt attempts => exact halted attempts
  | @settled attempt first settling repairs _ attempts settles =>
      obtain ⟨hfirsts, noRepair, hlength⟩ := cost_of_firstAttempt attempts
      obtain ⟨hrepairs, allRepair, -, hsettling⟩ := cost_of_windowSettles settles reached.selected
        (numbered_of_firstAttempt attempts hprevious reached.numbered)
      have hcalls := callsLeft_of_firstAttempt attempts reached.numbered
      have hmending := Nat.mul_le_mul_right (last + 9) hcalls
      rw [asked_append, List.length_append]
      refine ⟨withinBudget_of_length_le hfirsts noRepair ?_ allRepair, ?_⟩
      · split
        · next fix => exact Nat.le_trans (by simpa [fix] using hrepairs) hcalls
        · next noFix => simpa [noFix] using hrepairs
      · dsimp only at hsettling
        simp only [Nat.add_mul, Nat.mul_add] at hsettling hmending ⊢
        omega

/-- A repair that goes on as an earlier run left it only takes over the new budget. -/
theorem refreshed_of_firstAttempt {ordinal attempt : Nat} {previous : Option Checkpoint}
    {repairs after : OrdinalMap RepairState} {state : RepairState}
    (attempts : FirstAttempt policy unit spans ordinal previous repairs true happenings
      (.ok (some attempt, after)))
    (restored : previous.bind (·.repairs.get? ordinal) = some state)
    (goesOn : GoesOn unit.id ordinal state happenings) :
    after = repairs.insert ordinal (state.refreshBudget policy.maxFixAttempts) := by
  have kept {stored : List Nat} {other : RepairState}
      (listed : ⟨.attempts unit.id ordinal, .ok stored⟩ ∈ happenings)
      (hother : previous.bind (·.repairs.get? ordinal) = some other) :
      other = state ∧ continuation (other.refreshBudget policy.maxFixAttempts) stored =
        .kept state.lastTried := by
    obtain rfl := Option.some.inj (hother.symm.trans restored)
    obtain ⟨hlast, latest⟩ := goesOn.stored stored listed
    exact ⟨rfl, continuation_eq_kept hlast
      (latest.imp_left (other.refreshBudget_status_eq_repaired _).2)⟩
  cases attempts with
  | kept hother =>
      rw [(kept List.mem_cons_self hother).1]
  | resumed hother resumes =>
      have := (kept List.mem_cons_self hother).2
      simp [resumes] at this
  | lost hother missing =>
      have := (kept List.mem_cons_self hother).2
      simp [missing] at this
  | chosen notRestored => simp [restored] at notRestored
  | fresh notRestored => simp [restored] at notRestored

/-- A repair that goes on has only the calls that the earlier run left. -/
theorem repairs_of_window {last : Nat} {previous : Option Checkpoint} {progress : Progress}
    {result : Except Failure Progress} {state : RepairState}
    (window : Window settings unit spans previous (last + 1) progress happenings result)
    (hprevious : Numbered previous) (reached : Reached last progress)
    (cached : settings.useCache = true)
    (restored : previous.bind (·.repairs.get? (last + 1)) = some state)
    (goesOn : GoesOn unit.id (last + 1) state happenings) :
    (asked happenings).countP (·.isRepairFor (last + 1)) ≤
      settings.policy.maxFixAttempts - state.consumed := by
  have noRepairs {first : List Happening}
      {found : Except Failure (Option Nat × OrdinalMap RepairState)}
      (attempts : FirstAttempt settings.policy unit spans (last + 1) previous progress.repairs
        settings.useCache first found) :
      (asked first).countP (·.isRepairFor (last + 1)) = 0 :=
    List.countP_eq_zero.2 fun request member => by
      simp [Request.isRepairFor, (cost_of_firstAttempt attempts).2.1 request member]
  cases window with
  | noFirst attempts => simp [noRepairs attempts]
  | noAttempt attempts => simp [noRepairs attempts]
  | @settled attempt first settling repairs _ attempts settles =>
      obtain ⟨hrepairs, -, hrejects, -⟩ := cost_of_windowSettles settles reached.selected
        (numbered_of_firstAttempt attempts hprevious reached.numbered)
      have hcount := List.countP_le_length (l := asked settling) (p := (·.isRepairFor (last + 1)))
      rw [asked_append, List.countP_append, noRepairs attempts, Nat.zero_add]
      refine Nat.le_trans hcount ?_
      -- A success asks for nothing, as no variant was rejected; any other repair has what is left.
      by_cases repaired : state.status = .repaired
      · have none : asked settling = [] := Classical.byContradiction fun some =>
          goesOn.notRestarted repaired ((hrejects some).of_subset (List.subset_append_right _ _))
        simp [none]
      · have hrefreshed : repairs =
            progress.repairs.insert (last + 1) (state.refreshBudget settings.policy.maxFixAttempts) :=
          refreshed_of_firstAttempt (cached ▸ attempts) restored
            (goesOn.of_subset (List.subset_append_left _ _))
        have hstate : repairFor settings.policy (last + 1) attempt repairs =
            state.refreshBudget settings.policy.maxFixAttempts := by
          simp [repairFor, hrefreshed, repaired]
        have hleft := (state.refreshBudget settings.policy.maxFixAttempts).callsLeft_le
        dsimp only at hrepairs
        rw [hstate] at hrepairs
        refine Nat.le_trans hrepairs ?_
        split
        · exact hleft
        · exact Nat.zero_le _

/-- A request is for the function that the asking concerns. -/
theorem exists_of_mem_asked {request : Request} (member : request ∈ asked happenings) :
    ∃ happening ∈ happenings,
      ∀ id ordinal, happening.1.Concerns id ordinal → request.ordinal = ordinal := by
  obtain ⟨⟨action, answer⟩, hmember, hrequest⟩ := List.mem_filterMap.1 member
  refine ⟨⟨action, answer⟩, hmember, fun id ordinal concerns => ?_⟩
  cases action <;> simp_all [Action.request?, Action.Concerns]

theorem ordinal_of_window {last : Nat} {previous : Option Checkpoint} {progress : Progress}
    {result : Except Failure Progress}
    (window : Window settings unit spans previous (last + 1) progress happenings result)
    (hprevious : Numbered previous) (reached : Reached last progress) :
    ∀ request ∈ asked happenings, request.ordinal = last + 1 := by
  intro request member
  obtain ⟨happening, hmember, own⟩ := exists_of_mem_asked member
  exact own _ _ ((concerns_of_window window hprevious reached).1 happening hmember)

theorem lt_ordinal_of_grows {last count : Nat} {previous : Option Checkpoint} {progress : Progress}
    {result : Except Failure Progress}
    (grows : Grows settings unit spans previous (List.range' (last + 1) count) progress happenings
      result)
    (hprevious : Numbered previous) (reached : Reached last progress)
    (goesOn : progress.haltedAt = none) :
    ∀ request ∈ asked happenings, last < request.ordinal := by
  intro request member
  obtain ⟨happening, hmember, own⟩ := exists_of_mem_asked member
  obtain ⟨ordinal, hlt, concerns⟩ :=
    (concerns_of_grows grows hprevious reached goesOn).1 happening hmember
  exact own _ _ concerns ▸ hlt

/-- Growing keeps within the budget, and its length within a bound that the budget gives. -/
theorem cost_of_grows {last count : Nat} {previous : Option Checkpoint} {progress : Progress}
    {result : Except Failure Progress}
    (grows : Grows settings unit spans previous (List.range' (last + 1) count) progress happenings
      result)
    (hprevious : Numbered previous) (reached : Reached last progress) :
    WithinBudget settings.policy (asked happenings) ∧
      happenings.length ≤
        count * ((settings.policy.maxFixAttempts + 1) * (last + count + 10)) := by
  induction count generalizing last progress happenings with
  | zero =>
      cases grows
      exact ⟨⟨by simp, by simp, by simp⟩, by simp⟩
  | succ count ih =>
      have wider : (settings.policy.maxFixAttempts + 1) * (last + 11) ≤
          (settings.policy.maxFixAttempts + 1) * (last + (count + 1) + 10) :=
        Nat.mul_le_mul_left _ (by omega)
      rw [List.range'_succ] at grows
      rw [Nat.succ_mul]
      cases grows with
      | failed window =>
          obtain ⟨hbudget, hlength⟩ := cost_of_window window hprevious reached
          exact ⟨hbudget, by omega⟩
      | halted window halts =>
          obtain ⟨hbudget, hlength⟩ := cost_of_window window hprevious reached
          exact ⟨hbudget, by omega⟩
      | further window hnone later =>
          obtain ⟨hbudget, hlength⟩ := cost_of_window window hprevious reached
          have further := reached_of_window window hprevious reached hnone
          obtain ⟨hrest, hrestLength⟩ := ih later further
          have own := ordinal_of_window window hprevious reached
          rw [asked_append, List.length_append]
          refine ⟨hbudget.append hrest (fun request member => Nat.le_of_eq (own request member))
            (lt_ordinal_of_grows later hprevious further hnone), ?_⟩
          have hsum : last + 1 + count + 10 = last + (count + 1) + 10 := by omega
          rw [hsum] at hrestLength
          omega

/-- What is left of a repair that goes on holds of all of growing, too. -/
theorem repairs_of_grows {last count ordinal : Nat} {previous : Option Checkpoint}
    {progress : Progress} {result : Except Failure Progress} {state : RepairState}
    (grows : Grows settings unit spans previous (List.range' (last + 1) count) progress happenings
      result)
    (hprevious : Numbered previous) (reached : Reached last progress)
    (cached : settings.useCache = true)
    (restored : previous.bind (·.repairs.get? ordinal) = some state)
    (goesOn : GoesOn unit.id ordinal state happenings) :
    (asked happenings).countP (·.isRepairFor ordinal) ≤
      settings.policy.maxFixAttempts - state.consumed := by
  induction count generalizing last progress happenings with
  | zero =>
      cases grows
      simp
  | succ count ih =>
      rw [List.range'_succ] at grows
      have ofWindow {first : List Happening} {found : Except Failure Progress}
          (window : Window settings unit spans previous (last + 1) progress first found)
          (part : first ⊆ happenings) :
          (asked first).countP (·.isRepairFor ordinal) ≤
            settings.policy.maxFixAttempts - state.consumed := by
        by_cases same : ordinal = last + 1
        · subst same
          exact repairs_of_window window hprevious reached cached restored (goesOn.of_subset part)
        · have hzero : (asked first).countP (·.isRepairFor ordinal) = 0 :=
            List.countP_eq_zero.2 fun request member => by
              have own := ordinal_of_window window hprevious reached request member
              simp [Request.isRepairFor, own, Ne.symm same]
          omega
      cases grows with
      | failed window => exact ofWindow window (List.Subset.refl _)
      | halted window halts => exact ofWindow window (List.Subset.refl _)
      | further window hnone later =>
          have further := reached_of_window window hprevious reached hnone
          rw [asked_append]
          apply countP_append_le (ofWindow window (List.subset_append_left _ _))
            (ih later further (goesOn.of_subset (List.subset_append_right _ _)))
          by_cases same : ordinal = last + 1
          · exact .inr fun request member => by
              have behind := lt_ordinal_of_grows later hprevious further hnone request member
              have hne : request.ordinal ≠ ordinal := by omega
              simp [Request.isRepairFor, hne]
          · exact .inl fun request member => by
              have own := ordinal_of_window window hprevious reached request member
              simp [Request.isRepairFor, own, Ne.symm same]

/-- How many actions the work on a unit takes at most, by the budget and the number of windows. -/
def courseLimit (policy : Policy) (windows : Nat) : Nat :=
  windows * ((policy.maxFixAttempts + 1) * (windows + 10)) + 6

theorem cost_of_loads {result : Except Failure (Option Checkpoint)}
    (loads : Loads settings unit happenings result) :
    asked happenings = [] ∧ happenings.length ≤ 1 := by
  cases loads <;> exact ⟨rfl, by simp⟩

theorem cost_of_opens {requested : Nat} {windows : List WindowOutcome}
    (opens : Opens unit requested happenings windows) :
    asked happenings = [] ∧ happenings.length ≤ 2 := by
  cases opens <;> exact ⟨rfl, by simp⟩

theorem cost_of_closes {requested : Nat} {grown : Except Failure Progress}
    {result : Except Failure UnitOutcome}
    (closes : Closes settings unit requested grown happenings result) :
    asked happenings = [] ∧ happenings.length ≤ 2 := by
  cases closes with
  | notGrown => exact ⟨rfl, by simp⟩
  | notSaved saves => cases saves; exact ⟨rfl, by simp⟩
  | finished saves => cases saves <;> exact ⟨rfl, by simp⟩

/-- The work on a unit comes to its end within a number of actions that the budget and the number of
windows give, whatever the store, the service, the validator and the files answer. For each function
it sends at most as many requests for a first candidate, and at most as many for repairs, as the
policy allows calls (one request for a first candidate may always be sent), no request for a repair if
repairs are not wanted, and no more of these than an earlier run left if the repair of the function
goes on as that run left it; and none at all for a function behind the one at which it halts. -/
theorem requests_within_budget (settings : WorkSettings) (unit : SourceUnit) (mergeBack : Nat)
    {happenings : List Happening} {result : Except Failure UnitOutcome}
    (course : Course (onUnit settings unit mergeBack) happenings result)
    (earlier : ∀ checkpoint, ⟨.loadCheckpoint unit.id, .ok (some checkpoint)⟩ ∈ happenings →
      LeftBehind unit.id checkpoint) :
    happenings.length ≤ courseLimit settings.policy (min mergeBack unit.count) ∧
    (∀ ordinal,
      (asked happenings).countP (·.isFirstFor ordinal) ≤ max 1 settings.policy.maxFixAttempts ∧
      (asked happenings).countP (·.isRepairFor ordinal) ≤ settings.policy.maxFixAttempts) ∧
    (settings.policy.autoFix = false → ∀ request ∈ asked happenings, request.isRepair = false) ∧
    (∀ checkpoint ordinal state,
      ⟨.loadCheckpoint unit.id, .ok (some checkpoint)⟩ ∈ happenings →
      checkpoint.repairs.get? ordinal = some state → GoesOn unit.id ordinal state happenings →
      (asked happenings).countP (·.isRepairFor ordinal) ≤
        settings.policy.maxFixAttempts - state.consumed) ∧
    ∀ outcome halted, result = .ok outcome → outcome.haltedAt = some halted →
      ∀ request ∈ asked happenings, request.ordinal ≤ halted := by
  cases runs_of_course course with
  | notLocated located => simp [courseLimit]
  | notLoaded located loads =>
      obtain ⟨hasked, hlength⟩ := cost_of_loads loads
      have hlimit : 2 ≤ courseLimit settings.policy (min mergeBack unit.count) := by
        unfold courseLimit
        omega
      rw [asked_cons_told, hasked, List.length_cons]
      exact ⟨by omega, by simp, by simp, by simp, by simp⟩
  | @loaded _ loading opening growing closing previous windows grown _ located loads opens grows
      closes =>
      have hprevious := numbered_of_loads loads fun checkpoint member =>
        (earlier checkpoint (List.mem_cons_of_mem _ (by simp [member]))).numbered
      obtain ⟨hloading, hloads⟩ := cost_of_loads loads
      obtain ⟨hopening, hopens⟩ := cost_of_opens opens
      obtain ⟨hclosing, hcloses⟩ := cost_of_closes closes
      have hasked : asked (told (.unitStarted unit.id unit.count (min mergeBack unit.count)) ::
          (loading ++ opening ++ growing ++ closing)) = asked growing := by
        simp [hloading, hopening, hclosing]
      obtain ⟨hbudget, hlength⟩ := cost_of_grows grows hprevious (reached_zero windows)
      rw [hasked]
      refine ⟨?_, fun ordinal => ⟨hbudget.first ordinal, hbudget.repair ordinal⟩, hbudget.unwanted,
        fun checkpoint ordinal state member restored goesOn => ?_,
        fun outcome halted hresult hhalted request member => ?_⟩
      · simp only [Nat.zero_add] at hlength
        simp only [courseLimit, List.length_cons, List.length_append]
        omega
      · obtain ⟨hanswer, cached⟩ := previous_of_mem loads opens grows closes hprevious member
        obtain rfl := Except.ok.inj hanswer
        have part : growing ⊆ told (.unitStarted unit.id unit.count (min mergeBack unit.count)) ::
            (loading ++ opening ++ growing ++ closing) :=
          fun happening hmember => List.mem_cons_of_mem _ (by simp [hmember])
        exact repairs_of_grows grows hprevious (reached_zero windows) cached restored
          (goesOn.of_subset part)
      · cases closes with
        | notGrown => simp at hresult
        | notSaved => simp at hresult
        | @finished progress _ _ saves houtcome =>
            obtain rfl := Except.ok.inj hresult
            subst houtcome
            obtain ⟨happening, hmember, own⟩ := exists_of_mem_asked member
            obtain ⟨ordinal, hle, concerns⟩ :=
              (((concerns_of_grows grows hprevious (reached_zero windows) rfl).2 progress rfl).2
                halted hhalted).2 happening hmember
            exact own _ _ concerns ▸ hle

/-- A run spends its single call in vain; one with a budget of two calls goes on with the second. -/
theorem requests_within_budget_of_restored :
    let unit : SourceUnit := ⟨"f.c", "int f(void) { return 1; }", ["f"], 1⟩
    ∃ happenings result checkpoint state,
      Course (onUnit ⟨⟨2, true, 30⟩, true, true⟩ unit 1) happenings result ∧
      ⟨.loadCheckpoint unit.id, .ok (some checkpoint)⟩ ∈ happenings ∧
      LeftBehind unit.id checkpoint ∧ checkpoint.repairs.get? 1 = some state ∧
      state.consumed = 1 ∧ GoesOn unit.id 1 state happenings ∧
      (asked happenings).map (fun request => (request.ordinal, request.isRepair)) = [(1, true)] ∧
      (asked happenings).countP (·.isRepairFor 1) ≤ 2 - state.consumed := by
  intro _
  let settings : WorkSettings := ⟨⟨2, true, 30⟩, true, true⟩
  let state : RepairState := Sample.unanswered
  have bad : (Verdict.malformed []).isAccepted = false := rfl
  have refused : settings.policy.taken (.answer (.error (.rejected "no"))) =
      .error (.rejected "no") := rfl
  have mends : Mends settings.policy Sample.unit Sample.spans
      ⟨Sample.selection 1, state.refreshBudget 2, Sample.variant 1 "x", .malformed []⟩ _ (.ok _) :=
    .wanted rfl (.rejected _ "x" refused)
  have settles : WindowSettles settings Sample.unit Sample.spans 1 1
      ⟨∅, (∅ : OrdinalMap RepairState).insert 1 (state.refreshBudget 2), [], none⟩ _
      (Except.map _ _) := .rejected (Sample.merges 1 "x") bad mends
  have keeps : continuation (state.refreshBudget 2) [1] = .kept 1 := rfl
  have grows : Grows settings Sample.unit Sample.spans (some (Sample.checkpoint state)) [1]
      ⟨∅, ∅, [], none⟩ _ (.ok _) :=
    .halted (.settled (.kept rfl keeps) settles) (Option.some_ne_none 1)
  have course : Course (onUnit settings Sample.unit 1) _ _ := Runs.course (.loaded Sample.located
    (.loaded rfl _) (.none Nat.one_ne_zero) grows (.finished (.saved rfl (.ok ())) rfl))
  obtain ⟨-, -, -, continued, -⟩ := requests_within_budget settings Sample.unit 1 course
    fun other member => by
      obtain rfl : other = Sample.checkpoint state := by
        simpa [told, toldVerdict, called, toldTransition] using member
      exact Sample.leftBehind_unanswered
  refine ⟨_, _, Sample.checkpoint state, state, course, ?loaded, Sample.leftBehind_unanswered, rfl,
    rfl, ?goesOn, rfl, continued (Sample.checkpoint state) 1 state ?loaded rfl ?goesOn⟩
  case loaded => exact List.mem_cons_of_mem _ (List.mem_append_left _ List.mem_cons_self)
  case goesOn =>
    change GoesOn Sample.unit.id 1 state _
    have exhausted : state.status ≠ .repaired := by decide
    refine ⟨fun stored listed => ?_, fun repaired => absurd repaired exhausted⟩
    obtain rfl : stored = [1] := by
      simpa [told, toldVerdict, called, toldTransition] using listed
    exact ⟨List.mem_singleton_self 1, .inr (by simp [state, Sample.unanswered])⟩

end Work

end Graft
