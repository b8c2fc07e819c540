import Graft.Proofs.Work.Archive
import Graft.Proofs.Work.Reached
import Mathlib.Data.List.Basic

/-!
What work makes of the replies of the service. `Exchanges` reads the requests off what happens, each with
what came of it: a candidate is put as it came, directly behind the reply, and told; nothing else is put
or told to be stored. `exchanges_of_grows` says that windows only do this, and `Exchanges.texts` what
the store then holds.
-/

namespace Graft

open Code Generation

/-- A request and what came of it: an error, or the candidate and the attempt by which it is stored. -/
structure Exchange where
  request : Request
  result : Except GenerationError (String × Nat)
  deriving Inhabited

namespace Exchange

def candidate? (ordinal : Nat) (exchange : Exchange) : Option (String × Nat) :=
  if exchange.request.ordinal = ordinal then exchange.result.toOption else none

def stored? (exchange : Exchange) : Option (UnitId × Nat × Nat) :=
  exchange.result.toOption.map fun (_, attempt) =>
    (exchange.request.unitId, exchange.request.ordinal, attempt)

end Exchange

def candidatesFor (ordinal : Nat) (exchanges : List Exchange) : List (String × Nat) :=
  exchanges.filterMap (·.candidate? ordinal)

theorem candidatesFor_cons_stored (ordinal : Nat) (request : Request) (text : String) (attempt : Nat)
    (others : List Exchange) :
    candidatesFor ordinal (⟨request, .ok (text, attempt)⟩ :: others) =
      if request.ordinal = ordinal then (text, attempt) :: candidatesFor ordinal others
      else candidatesFor ordinal others := by
  by_cases own : request.ordinal = ordinal
  · have some : Exchange.candidate? ordinal ⟨request, .ok (text, attempt)⟩ = some (text, attempt) :=
      if_pos own
    rw [if_pos own]
    exact List.filterMap_cons_some some
  · have none : Exchange.candidate? ordinal ⟨request, .ok (text, attempt)⟩ = none := if_neg own
    rw [if_neg own]
    exact List.filterMap_cons_none none

theorem candidatesFor_cons_unanswered (ordinal : Nat) (request : Request) (error : GenerationError)
    (others : List Exchange) :
    candidatesFor ordinal (⟨request, .error error⟩ :: others) = candidatesFor ordinal others := by
  have none : Exchange.candidate? ordinal ⟨request, .error error⟩ = none := by
    unfold Exchange.candidate?
    split <;> rfl
  exact List.filterMap_cons_none none

/-- How a store grows by the candidates that came for a unit: those for a function take the places behind
the ones that were there, and are numbered so; nothing else changes. -/
structure Archive.Takes (unit : UnitId) (exchanges : List Exchange) (archive after : Archive) :
    Prop where
  texts : ∀ ordinal, after.log.texts unit ordinal =
    archive.log.texts unit ordinal ++ (candidatesFor ordinal exchanges).map Prod.fst
  attempts : ∀ ordinal, (candidatesFor ordinal exchanges).map Prod.snd =
    List.range' ((archive.log.texts unit ordinal).length + 1) (candidatesFor ordinal exchanges).length
  others : ∀ other ≠ unit, ∀ ordinal,
    after.log.texts other ordinal = archive.log.texts other ordinal

namespace Archive.Takes

variable {archive next after : Archive} {exchanges : List Exchange} {request : Request}

theorem of_log_eq {id : UnitId} (h : Takes id exchanges next after) (same : next.log = archive.log) :
    Takes id exchanges archive after where
  texts ordinal := same ▸ h.texts ordinal
  attempts ordinal := same ▸ h.attempts ordinal
  others other differs ordinal := same ▸ h.others other differs ordinal

theorem unanswered {id : UnitId} (h : Takes id exchanges archive after) (error : GenerationError) :
    Takes id (⟨request, .error error⟩ :: exchanges) archive after where
  texts ordinal := by
    rw [candidatesFor_cons_unanswered]
    exact h.texts ordinal
  attempts ordinal := by
    rw [candidatesFor_cons_unanswered]
    exact h.attempts ordinal
  others := h.others

theorem stored {id : UnitId} {text : String} {attempt : Nat} (h : Takes id exchanges next after)
    (grown : next.log = archive.log.append id request.ordinal text)
    (behind : attempt = (archive.log.texts id request.ordinal).length + 1) :
    Takes id (⟨request, .ok (text, attempt)⟩ :: exchanges) archive after where
  texts ordinal := by
    have later := h.texts ordinal
    rw [grown, CandidateLog.texts_append] at later
    rw [candidatesFor_cons_stored, later]
    by_cases own : request.ordinal = ordinal
    · subst own
      simp
    · simp [own, Ne.symm own]
  attempts ordinal := by
    have later := h.attempts ordinal
    rw [grown, CandidateLog.texts_append] at later
    rw [candidatesFor_cons_stored]
    by_cases own : request.ordinal = ordinal
    · subst own
      have longer : (archive.log.texts id request.ordinal ++ [text]).length + 1 =
          (archive.log.texts id request.ordinal).length + 1 + 1 := by simp
      rw [if_pos ⟨rfl, rfl⟩, longer] at later
      rw [if_pos rfl, List.map_cons, later, List.length_cons, List.range'_succ, behind]
    · have apart : ¬(id = id ∧ ordinal = request.ordinal) := fun same => own same.2.symm
      rw [if_neg apart] at later
      rw [if_neg own, later]
  others other differs ordinal := by
    have later := h.others other differs ordinal
    have apart : ¬(other = id ∧ ordinal = request.ordinal) := fun same => differs same.1
    rwa [grown, CandidateLog.texts_append, if_neg apart] at later

end Archive.Takes

def Action.toldStored? : Action → Option (UnitId × Nat × Nat)
  | .tell (.candidateStored unit ordinal attempt) => some (unit, ordinal, attempt)
  | _ => none

/-- Whether an action asks for a candidate, puts one, or tells that one is stored. -/
def Action.exchanges : Action → Bool
  | .ask _ => true
  | .put .. => true
  | .tell (.candidateStored ..) => true
  | _ => false

theorem Action.toldStored?_of_quiet {action : Action} (quiet : action.exchanges = false) :
    action.toldStored? = none := by
  cases action with
  | tell event =>
      cases event with
      | candidateStored => cases quiet
      | _ => rfl
  | _ => rfl

namespace Work

def toldStored (happenings : List Happening) : List (UnitId × Nat × Nat) :=
  happenings.filterMap (·.1.toldStored?)

theorem toldStored_cons_of_none {happening : Happening} (rest : List Happening)
    (untold : happening.1.toldStored? = none) :
    toldStored (happening :: rest) = toldStored rest := List.filterMap_cons_none untold

/-- What happens, with the requests in it and what came of them. -/
inductive Exchanges (policy : Policy) (unit : UnitId) : List Happening → List Exchange → Prop
  | nil : Exchanges policy unit [] []
  | stored {request : Request} {reply : Reply} {text : String} {attempt : Nat}
      {rest : List Happening} {others : List Exchange} (own : request.unitId = unit)
      (taken : policy.taken reply = .ok text) (later : Exchanges policy unit rest others) :
      Exchanges policy unit
        (⟨.ask request, reply⟩ :: ⟨.put unit request.ordinal text, .ok attempt⟩ ::
          told (.candidateStored unit request.ordinal attempt) :: rest)
        (⟨request, .ok (text, attempt)⟩ :: others)
  | unanswered {request : Request} {reply : Reply} {error : GenerationError}
      {rest : List Happening} {others : List Exchange} (own : request.unitId = unit)
      (taken : policy.taken reply = .error error) (later : Exchanges policy unit rest others) :
      Exchanges policy unit (⟨.ask request, reply⟩ :: rest) (⟨request, .error error⟩ :: others)
  | other {happening : Happening} {rest : List Happening} {others : List Exchange}
      (quiet : happening.1.exchanges = false) (later : Exchanges policy unit rest others) :
      Exchanges policy unit (happening :: rest) others

section Exchanges

variable {policy : Policy} {id : UnitId} {happenings first rest : List Happening}
  {exchanges others : List Exchange}

theorem Exchanges.append (h : Exchanges policy id first exchanges)
    (later : Exchanges policy id rest others) :
    Exchanges policy id (first ++ rest) (exchanges ++ others) := by
  induction h with
  | nil => exact later
  | stored own taken _ ih => exact .stored own taken ih
  | unanswered own taken _ ih => exact .unanswered own taken ih
  | other quiet _ ih => exact .other quiet ih

theorem exchanges_of_quiet (quiet : ∀ happening ∈ happenings, happening.1.exchanges = false) :
    Exchanges policy id happenings [] := by
  induction happenings with
  | nil => exact .nil
  | cons happening rest ih =>
      obtain ⟨hhead, htail⟩ := List.forall_mem_cons.1 quiet
      exact .other hhead (ih htail)

/-- The requests are those that were asked. -/
theorem Exchanges.asked (h : Exchanges policy id happenings exchanges) :
    asked happenings = exchanges.map (·.request) := by
  induction h with
  | nil => rfl
  | stored own taken later ih => simp [ih]
  | unanswered own taken later ih => simp [ih]
  | @other happening _ _ quiet later ih =>
      obtain ⟨action, answer⟩ := happening
      cases action with
      | ask => cases quiet
      | _ => exact ih

/-- Each candidate that came is told to be stored, and no other. -/
theorem Exchanges.toldStored (h : Exchanges policy id happenings exchanges) :
    toldStored happenings = exchanges.filterMap (·.stored?) := by
  induction h with
  | nil => rfl
  | @stored request reply text attempt rest others own taken later ih =>
      have now : Exchange.stored? ⟨request, .ok (text, attempt)⟩ =
          some (id, request.ordinal, attempt) := by
        rw [← own]
        rfl
      have last : Work.toldStored (told (.candidateStored id request.ordinal attempt) :: rest) =
          (id, request.ordinal, attempt) :: Work.toldStored rest := rfl
      rw [toldStored_cons_of_none _ rfl, toldStored_cons_of_none _ rfl, last, ih,
        List.filterMap_cons_some now]
  | @unanswered request _ error _ _ own taken later ih =>
      have none : Exchange.stored? ⟨request, .error error⟩ = none := rfl
      rw [toldStored_cons_of_none _ rfl, ih, List.filterMap_cons_none none]
  | @other happening _ _ quiet later ih =>
      rw [toldStored_cons_of_none _ (Action.toldStored?_of_quiet quiet), ih]

/-- The store grows by the candidates that came. -/
theorem Exchanges.takes (h : Exchanges policy id happenings exchanges) {archive after : Archive}
    (steps : Archive.Steps Archive.Step archive happenings after) :
    Archive.Takes id exchanges archive after := by
  induction h generalizing archive with
  | nil =>
      obtain rfl := Archive.steps_nil_iff.1 steps
      exact ⟨by simp [candidatesFor], by simp [candidatesFor], fun _ _ _ => rfl⟩
  | @stored request _ text _ _ _ own taken later ih =>
      simp only [Archive.steps_cons_iff] at steps
      obtain ⟨asking, ask, putting, put, telling, tell, rest⟩ := steps
      have hask : asking.log = archive.log := Archive.log_of_step ask (by simp)
      have htell : telling.log = putting.log := Archive.log_of_step tell (by simp [told])
      obtain ⟨rfl, answered⟩ := Archive.step_put put rfl
      obtain ⟨behind, grown⟩ := CandidateLog.append_of_putVerified answered
      have hput : telling.log = archive.log.append id request.ordinal text := by
        rw [htell, ← hask]
        exact grown
      exact (ih rest).stored hput (hask ▸ behind)
  | unanswered own taken later ih =>
      obtain ⟨asking, ask, rest⟩ := Archive.steps_cons_iff.1 steps
      have hask : asking.log = archive.log := Archive.log_of_step ask (by simp)
      exact ((ih rest).of_log_eq hask).unanswered _
  | other quiet later ih =>
      obtain ⟨next, step, rest⟩ := Archive.steps_cons_iff.1 steps
      have same : next.log = archive.log := by
        apply Archive.log_of_step step
        intro unit ordinal text put
        simp [put, Action.exchanges] at quiet
      exact (ih rest).of_log_eq same

end Exchanges

section Courses

variable {policy : Policy} {settings : WorkSettings} {unit : SourceUnit} {spans : List Span}
  {happenings : List Happening}

theorem exchanges_of_firstCalls {request : Request} {remaining : Nat} {state : RepairState}
    {found : FirstCandidate}
    (calls : FirstCalls policy request remaining state happenings (.ok found)) :
    ∃ exchanges, Exchanges policy request.unitId happenings exchanges ∧
      ∀ exchange ∈ exchanges, exchange.request = request := by
  generalize hresult : Except.ok found = result at calls
  induction calls with
  | spent => exact ⟨[], .other rfl .nil, by simp⟩
  | notStored => cases hresult
  | stored attempt taken => exact ⟨_, .stored rfl taken .nil, by simp⟩
  | rejected taken => exact ⟨_, .unanswered rfl taken (.other rfl .nil), by simp⟩
  | again taken herror later ih =>
      obtain ⟨exchanges, hlater, same⟩ := ih hresult
      exact ⟨_, .unanswered rfl taken (.other rfl hlater), by simpa using same⟩

theorem exchanges_of_generates {ordinal : Nat} {repairs : OrdinalMap RepairState}
    {found : Option Nat × OrdinalMap RepairState}
    (generates : Generates policy unit spans ordinal repairs happenings (.ok found)) :
    ∃ exchanges, Exchanges policy unit.id happenings exchanges ∧
      ∀ exchange ∈ exchanges, exchange.request = requestFor unit spans ordinal none none := by
  obtain ⟨last, calls, hresult⟩ := generates
  cases last with
  | error => cases hresult
  | ok last =>
      have h := exchanges_of_firstCalls calls
      rwa [requestFor_unitId] at h

/-- The search for a first attempt asks for first candidates of its function only. -/
theorem exchanges_of_firstAttempt {ordinal : Nat} {previous : Option Checkpoint}
    {repairs : OrdinalMap RepairState} {useCache : Bool}
    {found : Option Nat × OrdinalMap RepairState}
    (attempts : FirstAttempt policy unit spans ordinal previous repairs useCache happenings
      (.ok found)) :
    ∃ exchanges, Exchanges policy unit.id happenings exchanges ∧
      ∀ exchange ∈ exchanges, exchange.request = requestFor unit spans ordinal none none := by
  cases attempts with
  | uncached generates => exact exchanges_of_generates generates
  | kept => exact ⟨[], .other rfl .nil, by simp⟩
  | resumed => exact ⟨[], .other rfl (.other rfl .nil), by simp⟩
  | lost restored goesOn generates =>
      obtain ⟨exchanges, h, same⟩ := exchanges_of_generates generates
      exact ⟨exchanges, .other rfl h, same⟩
  | chosen => exact ⟨[], .other rfl .nil, by simp⟩
  | fresh notRestored choice generates =>
      obtain ⟨exchanges, h, same⟩ := exchanges_of_generates generates
      exact ⟨exchanges, .other rfl h, same⟩

theorem quiet_of_merges {selection : Selection} {result : Except Failure Variant}
    (merges : Merges unit spans selection happenings result) :
    ∀ happening ∈ happenings, happening.1.exchanges = false := by
  intro happening member
  obtain ⟨_, _, _, rfl⟩ := gets_of_merges merges happening member
  rfl

end Courses

end Work

end Graft
