import Graft.Proofs.Work.Budget
import Graft.Proofs.Work.Exchanges
import Graft.Proofs.Work.Restored
import Mathlib.Data.List.Forall2

/-!
What the repairs note of the requests that were sent. A repair notes one step for each of its calls,
numbered one after the other, and the step says what came of the request (`RepairState.Notes`).
`Recorded` lifts this from one window to all, and `replies_stored_and_noted` says of every run that
comes to an outcome what is stored, told and noted of the replies to it.
-/

namespace Graft

open Code Generation Work

inductive Exchange.Noted : Exchange → RepairResult → Prop
  | accepted (request : Request) (text : String) (attempt : Nat) :
      Noted ⟨request, .ok (text, attempt)⟩ (.accepted attempt)
  | stillFailing (request : Request) (text : String) (attempt : Nat) (reason : String) :
      Noted ⟨request, .ok (text, attempt)⟩ (.stillFailing attempt reason)
  | serviceError (request : Request) (message : String) :
      Noted ⟨request, .error (.service message)⟩
        (.serviceError (GenerationError.service message).message)
  | rejected (request : Request) (message : String) :
      Noted ⟨request, .error (.rejected message)⟩ (.rejected message)

/-- Whether a repair makes no call behind one that came to this. -/
def RepairResult.isLast : RepairResult → Bool
  | accepted _ => true
  | stillFailing .. => false
  | serviceError _ => false
  | rejected _ => true

namespace RepairState

/-- What a repair notes of its requests: one step for each of them, in their order. The calls are
numbered one after the other up to the count of them, and only the last may end the repair. -/
structure Notes (began state : RepairState) (exchanges : List Exchange) (added : List RepairStep) :
    Prop where
  steps : state.steps = began.steps ++ added
  consumed : state.consumed = began.consumed + added.length
  calls : added.map (·.call) = List.range' (began.consumed + 1) added.length
  results : List.Forall₂ (fun exchange step => exchange.Noted step.result) exchanges added
  last : ∀ step ∈ added.dropLast, step.result.isLast = false

namespace Notes

variable {began next state : RepairState} {exchanges : List Exchange} {added : List RepairStep}
  {exchange : Exchange} {result : RepairResult}

/-- A repair that makes no call notes nothing. -/
theorem none (steps : state.steps = began.steps) (consumed : state.consumed = began.consumed) :
    Notes began state [] [] where
  steps := by simpa using steps
  consumed := by simpa using consumed
  calls := rfl
  results := .nil
  last := by simp

/-- A call comes before those that the repair goes on with. -/
theorem cons (later : Notes next state exchanges added)
    (steps : next.steps = began.steps ++ [⟨began.consumed + 1, result⟩])
    (consumed : next.consumed = began.consumed + 1) (noted : exchange.Noted result)
    (goesOn : added = [] ∨ result.isLast = false) :
    Notes began state (exchange :: exchanges) (⟨began.consumed + 1, result⟩ :: added) where
  steps := by
    rw [later.steps, steps, List.append_assoc]
    rfl
  consumed := by
    rw [later.consumed, consumed, List.length_cons]
    omega
  calls := by
    rw [List.map_cons, later.calls, consumed, List.length_cons, List.range'_succ]
  results := .cons noted later.results
  last := by
    rcases goesOn with rfl | goesOn
    · simp
    · cases hadded : added with
      | nil => simp
      | cons step rest =>
          rw [List.dropLast_cons_of_ne_nil (List.cons_ne_nil _ _), ← hadded]
          exact List.forall_mem_cons.2 ⟨goesOn, later.last⟩

/-- A single call, which may end the repair. -/
theorem single (steps : state.steps = began.steps ++ [⟨began.consumed + 1, result⟩])
    (consumed : state.consumed = began.consumed + 1) (noted : exchange.Noted result) :
    Notes began state [exchange] [⟨began.consumed + 1, result⟩] :=
  cons (.none rfl rfl) steps consumed noted (.inl rfl)

end Notes

end RepairState

namespace Work

variable {policy : Policy} {settings : WorkSettings} {unit : SourceUnit} {spans : List Span}
  {happenings rest : List Happening} {others : List Exchange}

/-- A call that brings no candidate is an exchange. -/
theorem exchanges_of_called {mending : Mending} (prior : String) {reply : Reply}
    {error : GenerationError} (taken : policy.taken reply = .error error)
    (later : Exchanges policy unit.id rest others) :
    Exchanges policy unit.id (called unit spans mending prior reply ++ rest)
      (⟨mending.request unit spans prior, .error error⟩ :: others) :=
  .other rfl (.other rfl (.unanswered (mending.request_unitId unit spans prior) taken later))

/-- So is one that brings a candidate, which is put and told. -/
theorem exchanges_of_answered {mending : Mending} (prior : String) {reply : Reply} {text : String}
    (attempt : Nat) (taken : policy.taken reply = .ok text)
    (later : Exchanges policy unit.id rest others) :
    Exchanges policy unit.id (called unit spans mending prior reply ++
        putAndTold unit mending.state.ordinal text attempt ++ rest)
      (⟨mending.request unit spans prior, .ok (text, attempt)⟩ :: others) :=
  .other rfl (.other rfl (.stored (mending.request_unitId unit spans prior) taken later))

theorem isRepairFor_request {mending : Mending} (prior : String) :
    (mending.request unit spans prior).isRepairFor mending.state.ordinal = true := by
  simp [Request.isRepairFor]

/-- A repair notes each of its calls. -/
theorem notes_of_mendCalls {remaining : Nat} {mending : Mending} {result : Except Failure Mending}
    (calls : MendCalls policy unit spans remaining mending happenings result) :
    ∀ mended, result = .ok mended → ∃ exchanges added,
      Exchanges policy unit.id happenings exchanges ∧
      (∀ exchange ∈ exchanges, exchange.request.isRepairFor mending.state.ordinal = true) ∧
      mending.state.Notes mended.state exchanges added := by
  induction calls with
  | spent =>
      rintro _ ⟨⟩
      exact ⟨[], [], .other rfl .nil, by simp, .none rfl rfl⟩
  | priorMissing => simp
  | @rejected _ mending prior _ message taken =>
      rintro _ ⟨⟩
      have noted := Exchange.Noted.rejected (mending.request unit spans prior) message
      refine ⟨_, _, ?_, ?_, .single rfl rfl noted⟩
      · exact exchanges_of_called prior taken (.other rfl .nil)
      · simp [isRepairFor_request]
  | @unanswered _ mending prior _ message _ _ _ taken herror later ih =>
      subst herror
      intro mended hmended
      obtain ⟨exchanges, added, hlater, own, notes⟩ := ih mended hmended
      have noted := Exchange.Noted.serviceError (mending.request unit spans prior) message
      refine ⟨_, _, ?_, ?_, notes.cons rfl rfl noted (.inr rfl)⟩
      · exact exchanges_of_called prior taken (.other rfl hlater)
      · exact List.forall_mem_cons.2 ⟨isRepairFor_request prior, own⟩
  | notStored => simp
  | notMerged => simp
  | @accepted _ mending prior _ text attempt _ variant verdict taken merges isAccepted =>
      rintro _ ⟨⟩
      have quiet : Exchanges policy unit.id _ [] := exchanges_of_quiet (quiet_of_merges merges)
      have noted := Exchange.Noted.accepted (mending.request unit spans prior) text attempt
      refine ⟨_, _, ?_, ?_, .single rfl rfl noted⟩
      · rw [List.append_assoc]
        exact exchanges_of_answered prior attempt taken
          (quiet.append (.other rfl (.other rfl (.other rfl .nil))))
      · simp [isRepairFor_request]
  | @stillFailing _ mending prior _ text attempt _ _ variant verdict _ taken merges notAccepted
      later ih =>
      intro mended hmended
      obtain ⟨exchanges, added, hlater, own, notes⟩ := ih mended hmended
      have quiet : Exchanges policy unit.id _ [] := exchanges_of_quiet (quiet_of_merges merges)
      have noted := Exchange.Noted.stillFailing (mending.request unit spans prior) text attempt
        verdict.failureReason
      refine ⟨_, _, ?_, ?_, notes.cons rfl rfl noted (.inr rfl)⟩
      · rw [List.append_assoc]
        exact exchanges_of_answered prior attempt taken
          (quiet.append (.other rfl (.other rfl hlater)))
      · exact List.forall_mem_cons.2 ⟨isRepairFor_request prior, own⟩

theorem notes_of_mends {mending mended : Mending}
    (mends : Mends policy unit spans mending happenings (.ok mended)) :
    ∃ exchanges added, Exchanges policy unit.id happenings exchanges ∧
      (∀ exchange ∈ exchanges, exchange.request.isRepairFor mending.state.ordinal = true) ∧
      mending.state.Notes mended.state exchanges added := by
  cases mends with
  | unwanted =>
      exact ⟨[], [], .other rfl .nil, by simp, .none rfl rfl⟩
  | wanted fix calls => exact notes_of_mendCalls calls mended rfl

theorem repairFor_eq (policy : Policy) (ordinal attempt : Nat) (repairs : OrdinalMap RepairState) :
    repairs.get? ordinal = some (repairFor policy ordinal attempt repairs) ∨
      repairFor policy ordinal attempt repairs = .start ordinal policy.maxFixAttempts attempt := by
  unfold repairFor
  cases found : repairs.get? ordinal with
  | none => exact .inr rfl
  | some state =>
      dsimp only
      split
      · exact .inr rfl
      · exact .inl rfl

/-- A window adds itself to the windows. The repair of its last function, if there is one, notes what is
asked in the window from the state on that the window found, or from a new one. -/
theorem notes_of_windowSettles {ordinal attempt : Nat} {progress after : Progress}
    (settles : WindowSettles settings unit spans ordinal attempt progress happenings (.ok after)) :
    ∃ exchanges, Exchanges settings.policy unit.id happenings exchanges ∧
      (∃ window : WindowOutcome, window.window = ordinal ∧
        after.windows = progress.windows ++ [window]) ∧
      OrdinalMap.SameBut ordinal progress.repairs after.repairs ∧
      (exchanges ≠ [] → (after.repairs.get? ordinal).isSome = true) ∧
      ∀ state, after.repairs.get? ordinal = some state → ∃ began added,
        (progress.repairs.get? ordinal = some began ∨
          began = .start ordinal settings.policy.maxFixAttempts attempt) ∧
        (∀ exchange ∈ exchanges, exchange.request.isRepairFor began.ordinal = true) ∧
        began.Notes state exchanges added := by
  have same := OrdinalMap.SameBut.refl ordinal progress.repairs
  cases settled_of_windowSettles settles with
  | accepted merges isAccepted repair =>
      have quiet : Exchanges settings.policy unit.id _ [] :=
        exchanges_of_quiet (quiet_of_merges merges)
      cases repair with
      | untouched =>
          refine ⟨[], quiet.append (.other rfl (.other rfl .nil)), ⟨_, rfl, rfl⟩, same, by simp, ?_⟩
          intro state found
          exact ⟨state, [], .inl found, by simp, .none rfl rfl⟩
      | @repaired began found =>
          refine ⟨[], quiet.append (.other rfl (.other rfl (.other rfl .nil))), ⟨_, rfl, rfl⟩,
            same.insert _, by simp, ?_⟩
          intro state hget
          obtain rfl : began.markRepaired attempt = state := by simpa using hget
          exact ⟨began, [], .inl found, by simp, .none rfl rfl⟩
  | @rejected _ _ _ _ mended merges notAccepted mends =>
      have quiet : Exchanges settings.policy unit.id _ [] :=
        exchanges_of_quiet (quiet_of_merges merges)
      obtain ⟨exchanges, added, h, own, notes⟩ := notes_of_mends mends
      have stands : (progress.mended ordinal mended).repairs.get? ordinal = some mended.state :=
        OrdinalMap.get?_insert_self _ _ _
      refine ⟨exchanges, quiet.append (.other rfl (.other rfl h)), ⟨_, rfl, rfl⟩, same.insert _,
        fun _ => by simp [stands], ?_⟩
      intro state hget
      obtain rfl := Option.some.inj (stands.symm.trans hget)
      exact ⟨_, added, repairFor_eq _ _ _ _, own, notes⟩

end Work

/-- The states from which the repair of a function goes on in a run: a new one, or that of a checkpoint
with the budget of the run, which an attempt that was put since may have started anew. -/
inductive Begun (policy : Policy) (previous : Option Checkpoint) (ordinal : Nat) : RepairState → Prop
  | anew (attempt : Nat) : Begun policy previous ordinal (.start ordinal policy.maxFixAttempts attempt)
  | kept {state : RepairState} (restored : previous.bind (·.repairs.get? ordinal) = some state) :
      Begun policy previous ordinal (state.refreshBudget policy.maxFixAttempts)
  | resumed {state : RepairState} (attempt : Nat)
      (restored : previous.bind (·.repairs.get? ordinal) = some state) :
      Begun policy previous ordinal ((state.refreshBudget policy.maxFixAttempts).resume attempt)

theorem Begun.ordinal {policy : Policy} {previous : Option Checkpoint} {ordinal : Nat}
    {state : RepairState} (begun : Begun policy previous ordinal state)
    (numbered : Numbered previous) : state.ordinal = ordinal := by
  cases begun with
  | anew => rfl
  | kept restored =>
      have own := numbered _ _ restored
      exact own
  | resumed attempt restored =>
      have own := numbered _ _ restored
      exact own

theorem Begun.of_restored {policy : Policy} {previous checkpoint : Option Checkpoint} {ordinal : Nat}
    {state : RepairState} (begun : Begun policy previous ordinal state)
    (restored : previous = none ∨ previous = checkpoint) : Begun policy checkpoint ordinal state := by
  rcases restored with rfl | rfl
  · cases begun with
    | anew attempt => exact .anew attempt
    | kept restored => cases restored
    | resumed attempt restored => cases restored
  · exact begun

/-- That the repair of a function notes what was asked for in the window of it; without a repair, nothing
was. It was asked for this function, unless the checkpoint has a repair under a wrong ordinal. -/
structure NotesAll (policy : Policy) (previous : Option Checkpoint) (repairs : OrdinalMap RepairState)
    (ordinal : Nat) (exchanges : List Exchange) : Prop where
  stands : exchanges ≠ [] → (repairs.get? ordinal).isSome = true
  own : Numbered previous → ∀ exchange ∈ exchanges, exchange.request.ordinal = ordinal
  notes : ∀ state, repairs.get? ordinal = some state → ∃ began added,
    Begun policy previous ordinal began ∧ began.Notes state exchanges added

namespace NotesAll

variable {policy : Policy} {previous : Option Checkpoint} {repairs after : OrdinalMap RepairState}
  {exchanges : List Exchange} {ordinal : Nat}

theorem of_get?_eq (h : NotesAll policy previous repairs ordinal exchanges)
    (same : after.get? ordinal = repairs.get? ordinal) :
    NotesAll policy previous after ordinal exchanges where
  stands := same ▸ h.stands
  own := h.own
  notes := same ▸ h.notes

theorem of_restored {archive : Archive} {id : UnitId}
    (h : NotesAll policy previous repairs ordinal exchanges)
    (restored : previous = none ∨ previous = archive.checkpoints id) :
    NotesAll policy (archive.checkpoints id) repairs ordinal exchanges where
  stands := h.stands
  own numbered := h.own (Archive.numbered_of_restored numbered restored)
  notes state hget := by
    obtain ⟨began, added, begun, notes⟩ := h.notes state hget
    exact ⟨began, added, begun.of_restored restored, notes⟩

end NotesAll

/-- What growing from a window to another one leaves of what was asked: it does not touch the repairs of
other functions, and each window that it adds has its part of the requests for repairs, in the order of
the windows, which the repair of its function notes. -/
structure Recorded (policy : Policy) (previous : Option Checkpoint) (first last : Nat)
    (before after : Progress) (exchanges : List Exchange) : Prop where
  others : ∀ ordinal, ordinal ≤ first ∨ last < ordinal →
    after.repairs.get? ordinal = before.repairs.get? ordinal
  windows : ∃ windows parts, after.windows = before.windows ++ windows ∧
    exchanges.filter (·.request.isRepair) = parts.flatten ∧
    List.Forall₂ (fun window part => (first < window.window ∧ window.window ≤ last) ∧
      NotesAll policy previous after.repairs window.window part) windows parts

namespace Recorded

variable {policy : Policy} {previous : Option Checkpoint} {first middle last : Nat}
  {before next after : Progress} {exchanges others : List Exchange}

/-- Requests for first candidates leave nothing to be noted. -/
theorem of_firsts (firsts : ∀ exchange ∈ exchanges, exchange.request.isRepair = false)
    (kept : ∀ ordinal, ordinal ≤ first ∨ last < ordinal →
      after.repairs.get? ordinal = before.repairs.get? ordinal)
    (same : after.windows = before.windows) :
    Recorded policy previous first last before after exchanges where
  others := kept
  windows := by
    have none : exchanges.filter (·.request.isRepair) = [] := by
      apply List.filter_eq_nil_iff.2
      intro exchange member
      simp [firsts exchange member]
    exact ⟨[], [], by simp [same], none, .nil⟩

/-- What a window asks behind its first candidates is the part of this window. -/
theorem of_window {window : WindowOutcome} {firsts : List Exchange}
    (asksFirst : ∀ exchange ∈ firsts, exchange.request.isRepair = false)
    (asksRepairs : ∀ exchange ∈ exchanges, exchange.request.isRepair = true)
    (kept : OrdinalMap.SameBut (first + 1) before.repairs after.repairs)
    (grown : after.windows = before.windows ++ [window]) (own : window.window = first + 1)
    (notes : NotesAll policy previous after.repairs (first + 1) exchanges) :
    Recorded policy previous first (first + 1) before after (firsts ++ exchanges) where
  others ordinal apart := kept ordinal (by omega)
  windows := by
    have none : firsts.filter (·.request.isRepair) = [] := by
      apply List.filter_eq_nil_iff.2
      intro exchange member
      simp [asksFirst exchange member]
    have all : exchanges.filter (·.request.isRepair) = exchanges := List.filter_eq_self.2 asksRepairs
    refine ⟨[window], [exchanges], grown, ?_, .cons ⟨by omega, own ▸ notes⟩ .nil⟩
    rw [List.filter_append, none, all]
    simp

theorem of_le (h : Recorded policy previous first middle before after exchanges)
    (hle : middle ≤ last) : Recorded policy previous first last before after exchanges where
  others ordinal apart := h.others ordinal (by omega)
  windows := by
    obtain ⟨windows, parts, grown, repairs, noted⟩ := h.windows
    refine ⟨windows, parts, grown, repairs, noted.imp fun window part now => ⟨?_, now.2⟩⟩
    omega

/-- What a window leaves stays as it is when further windows grow. -/
theorem append (h : Recorded policy previous first middle before next exchanges)
    (later : Recorded policy previous middle last next after others) (hfirst : first ≤ middle)
    (hlast : middle ≤ last) :
    Recorded policy previous first last before after (exchanges ++ others) where
  others ordinal apart :=
    (later.others ordinal (by omega)).trans (h.others ordinal (by omega))
  windows := by
    obtain ⟨windows, parts, grown, repairs, noted⟩ := h.windows
    obtain ⟨further, rest, grownLater, repairsLater, notedLater⟩ := later.windows
    refine ⟨windows ++ further, parts ++ rest, ?_, ?_, List.rel_append ?_ ?_⟩
    · rw [grownLater, grown, List.append_assoc]
    · rw [List.filter_append, repairs, repairsLater, List.flatten_append]
    · apply noted.imp
      rintro window part ⟨within, notes⟩
      exact ⟨by omega, notes.of_get?_eq (later.others _ (.inl within.2))⟩
    · apply notedLater.imp
      rintro window part ⟨within, notes⟩
      exact ⟨by omega, notes⟩

end Recorded

namespace Work

variable {settings : WorkSettings} {unit : SourceUnit} {spans : List Span}
  {happenings : List Happening} {previous : Option Checkpoint}

/-- A function begins a window without a repair, or with one from the checkpoint. -/
theorem begun_of_begins {policy : Policy} {ordinal attempt : Nat}
    {repairs after : OrdinalMap RepairState}
    (begins : Begins policy unit ordinal previous repairs happenings attempt after)
    (fresh : repairs.get? ordinal = none) :
    OrdinalMap.SameBut ordinal repairs after ∧
      ∀ state, after.get? ordinal = some state → Begun policy previous ordinal state := by
  have same := OrdinalMap.SameBut.refl ordinal repairs
  cases begins with
  | anew => exact ⟨same, by simp [fresh]⟩
  | chosen => exact ⟨same, by simp [fresh]⟩
  | kept listed restored =>
      refine ⟨same.insert _, fun state hget => ?_⟩
      obtain rfl : _ = state := by simpa using hget
      exact .kept restored
  | resumed listed restored =>
      refine ⟨same.insert _, fun state hget => ?_⟩
      obtain rfl : _ = state := by simpa using hget
      exact .resumed attempt restored

theorem recorded_of_window {last : Nat} {progress after : Progress}
    (window : Window settings unit spans previous (last + 1) progress happenings (.ok after))
    (fresh : progress.repairs.get? (last + 1) = none) :
    ∃ exchanges, Exchanges settings.policy unit.id happenings exchanges ∧
      Recorded settings.policy previous last (last + 1) progress after exchanges := by
  cases window with
  | noAttempt attempts =>
      obtain ⟨firsts, hfirst, same⟩ := exchanges_of_firstAttempt attempts
      obtain ⟨refused, -, -, -, rfl⟩ := refused_of_firstAttempt attempts
      refine ⟨firsts, hfirst, .of_firsts (fun exchange member => ?_) (fun ordinal apart => ?_) rfl⟩
      · rw [same exchange member]
        rfl
      · exact OrdinalMap.SameBut.insert (.refl (last + 1) _) refused ordinal (by omega)
  | @settled attempt first settling repairs _ attempts settles =>
      obtain ⟨firsts, hfirst, same⟩ := exchanges_of_firstAttempt attempts
      obtain ⟨exchanges, hsettling, ⟨window, hwindow, hwindows⟩, others, stands, noted⟩ :=
        notes_of_windowSettles settles
      obtain ⟨before, restored⟩ := begun_of_begins (begins_of_firstAttempt attempts) fresh
      have begun {began : RepairState} (origin : repairs.get? (last + 1) = some began ∨
          began = .start (last + 1) settings.policy.maxFixAttempts attempt) :
          Begun settings.policy previous (last + 1) began := by
        rcases origin with found | rfl
        · exact restored began found
        · exact .anew attempt
      have asksFirst : ∀ exchange ∈ firsts, exchange.request.isRepair = false := by
        intro exchange member
        rw [same exchange member]
        rfl
      have asks : ∀ exchange ∈ exchanges, exchange.request.isRepair = true ∧
          (Numbered previous → exchange.request.ordinal = last + 1) := by
        intro exchange member
        obtain ⟨state, hget⟩ := Option.isSome_iff_exists.1 (stands (List.ne_nil_of_mem member))
        obtain ⟨began, added, origin, own, -⟩ := noted state hget
        have repair := own exchange member
        simp only [Request.isRepairFor, Bool.and_eq_true, beq_iff_eq] at repair
        exact ⟨repair.1, fun numbered => repair.2.trans ((begun origin).ordinal numbered)⟩
      have kept : OrdinalMap.SameBut (last + 1) progress.repairs after.repairs := by
        intro ordinal differs
        exact (others ordinal differs).trans (before ordinal differs)
      have grown : after.windows = progress.windows ++ [window] := hwindows
      have notes : NotesAll settings.policy previous after.repairs (last + 1) exchanges := by
        refine ⟨stands, fun numbered exchange member => (asks exchange member).2 numbered, ?_⟩
        intro state hget
        obtain ⟨began, added, origin, -, notes⟩ := noted state hget
        exact ⟨began, added, begun origin, notes⟩
      refine ⟨firsts ++ exchanges, hfirst.append hsettling, ?_⟩
      exact .of_window asksFirst (fun exchange member => (asks exchange member).1) kept grown hwindow
        notes

/-- What growing leaves of what was asked. -/
theorem recorded_of_grows {last count : Nat} {progress after : Progress}
    (grows : Grows settings unit spans previous (List.range' (last + 1) count) progress happenings
      (.ok after))
    (fresh : ∀ ordinal, last < ordinal → progress.repairs.get? ordinal = none) :
    ∃ exchanges, Exchanges settings.policy unit.id happenings exchanges ∧
      Recorded settings.policy previous last (last + count) progress after exchanges := by
  induction count generalizing last progress happenings with
  | zero =>
      cases grows
      exact ⟨[], .nil, .of_firsts (by simp) (fun _ _ => rfl) rfl⟩
  | succ count ih =>
      rw [List.range'_succ] at grows
      cases grows with
      | halted window halts =>
          obtain ⟨exchanges, h, recorded⟩ := recorded_of_window window (fresh _ (Nat.lt_succ_self last))
          exact ⟨exchanges, h, recorded.of_le (by omega)⟩
      | further window goesOn later =>
          obtain ⟨exchanges, h, recorded⟩ := recorded_of_window window (fresh _ (Nat.lt_succ_self last))
          have freshLater : ∀ ordinal, last + 1 < ordinal → _ = none := fun ordinal hlt =>
            (recorded.others ordinal (.inr hlt)).trans (fresh ordinal (by omega))
          obtain ⟨others, hlater, recordedLater⟩ := ih later freshLater
          have hend : last + 1 + count = last + (count + 1) := by omega
          rw [hend] at recordedLater
          exact ⟨exchanges ++ others, h.append hlater,
            recorded.append recordedLater (by omega) (by omega)⟩

/-- In every run that comes to an outcome, what comes of the requests is as follows. A candidate is put
for the function that was asked for, as it came and directly behind the reply; nothing else is put. So
the candidates for a function take the places behind those that were stored, with the numbers of these
places, and nothing else in the store changes; just these candidates are told to be stored, in this
order. The requests for repairs are those of the windows, one window after the other, and the repair of
the function of a window notes one step for each request of it, in their order: the steps say what came
of them, are numbered one after the other up to the count of calls, and only the last may be an accepted
candidate or a refusal. -/
theorem replies_stored_and_noted {mergeBack : Nat} {archive after : Archive} {outcome : UnitOutcome}
    (course : Course (onUnit settings unit mergeBack) happenings (.ok outcome))
    (steps : Archive.Steps Archive.Step archive happenings after) :
    ∃ exchanges parts, Exchanges settings.policy unit.id happenings exchanges ∧
      asked happenings = exchanges.map (·.request) ∧
      toldStored happenings = exchanges.filterMap (·.stored?) ∧
      archive.Takes unit.id exchanges after ∧
      exchanges.filter (·.request.isRepair) = parts.flatten ∧
      List.Forall₂ (fun window part => NotesAll settings.policy (archive.checkpoints unit.id)
        outcome.repairs window.window part) outcome.windows parts := by
  obtain ⟨_, previous, loading, opening, windows, growing, progress, saving, -, loads, opens, grows,
    saves, rfl, rfl⟩ := stages_of_course course
  have restored := previous_of_loads loads steps
  obtain ⟨exchanges, h, recorded⟩ := recorded_of_grows grows (by simp)
  have before : Exchanges settings.policy unit.id
      (told (.unitStarted unit.id unit.count (min mergeBack unit.count)) ::
        (loading ++ opening)) [] := by
    apply exchanges_of_quiet
    cases loads <;> cases opens <;> simp [told, toldVerdict, Action.exchanges]
  have behind : Exchanges settings.policy unit.id
      (saving ++ [told (.unitFinished unit.id
        (progress.outcome unit (min mergeBack unit.count)).windowReached
        (progress.outcome unit (min mergeBack unit.count)).isAccepted)]) [] := by
    apply exchanges_of_quiet
    cases saves <;> simp [told, Action.exchanges]
  have all := (before.append h).append behind
  rw [List.nil_append, List.append_nil, List.cons_append] at all
  obtain ⟨grown, parts, hgrown, repairs, noted⟩ := recorded.windows
  have notes : List.Forall₂ (fun window part => NotesAll settings.policy
      (archive.checkpoints unit.id) progress.repairs window.window part) grown parts :=
    noted.imp fun window part now => now.2.of_restored restored
  cases opens with
  | none =>
      refine ⟨exchanges, parts, all, all.asked, all.toldStored, all.takes steps, repairs, ?_⟩
      rw [List.nil_append] at hgrown
      rw [← hgrown] at notes
      exact notes
  | unchanged verdict =>
      -- The window of the unit as it is has no function, and so no requests.
      have unrepaired := recorded.others 0 (.inl (Nat.le_refl 0))
      have none : progress.repairs.get? 0 = none := by simpa using unrepaired
      have nothing : NotesAll settings.policy (archive.checkpoints unit.id) progress.repairs 0
          [] := ⟨by simp, by simp, by simp [none]⟩
      refine ⟨exchanges, [] :: parts, all, all.asked, all.toldStored, all.takes steps, repairs,
        ?_⟩
      rw [List.singleton_append] at hgrown
      show List.Forall₂ _ progress.windows _
      rw [hgrown]
      exact .cons nothing notes

/-- A first candidate is rejected; the service does not answer the first call of the repair, and the
second one brings a candidate that is accepted. -/
theorem replies_stored_and_noted_in_repair :
    let unit : SourceUnit := ⟨"f.c", "int f(void) { return 1; }", ["f"], 1⟩
    ∃ archive happenings outcome after,
      Course (onUnit ⟨⟨2, true, 30⟩, false, true⟩ unit 1) happenings (.ok outcome) ∧
      Archive.Steps Archive.Step archive happenings after ∧
      toldStored happenings = [(unit.id, 1, 1), (unit.id, 1, 2)] ∧
      (outcome.repairs.get? 1).map (·.steps.map (·.call)) = some [1, 2] ∧
      ∃ exchanges parts, Exchanges ⟨2, true, 30⟩ unit.id happenings exchanges ∧
        archive.Takes unit.id exchanges after ∧
        exchanges.filter (·.request.isRepair) = parts.flatten ∧
        List.Forall₂ (fun window part => NotesAll ⟨2, true, 30⟩ (archive.checkpoints unit.id)
          outcome.repairs window.window part) outcome.windows parts := by
  intro _
  let settings : WorkSettings := ⟨⟨2, true, 30⟩, false, true⟩
  let verdict : Verdict := .compiled [] [] .zero .succeeded ""
  let silence : GenerationError := .service s!"timed out after {settings.policy.timeoutSeconds}s"
  let start : Archive := ⟨.empty, fun _ => none⟩
  have bad : (Verdict.malformed []).isAccepted = false := rfl
  have good : verdict.isAccepted = true := rfl
  have answered (text : String) : settings.policy.taken (.answer (.ok text)) = .ok text := rfl
  have silent : settings.policy.taken .silence = .error silence := rfl
  have mends : Mends settings.policy Sample.unit Sample.spans
      ⟨Sample.selection 1, .start 1 2 1, Sample.variant 1 "x", .malformed []⟩ _ (.ok _) :=
    .wanted rfl (.unanswered _ "x" silent rfl
      (.accepted _ "x" 2 (answered "y") (Sample.merges 2 "y") good))
  have settles : WindowSettles settings Sample.unit Sample.spans 1 1 ⟨∅, ∅, [], none⟩ _
      (Except.map _ _) :=
    .rejected (Sample.merges 1 "x") bad mends
  have grows : Grows settings Sample.unit Sample.spans none [1] ⟨∅, ∅, [], none⟩ _ (.ok _) :=
    .further (.settled (.uncached ⟨.ok (.stored 1), .stored 1 (answered "x"), rfl⟩) settles) rfl
      (.done _)
  obtain ⟨one, putOne, textsOne, -⟩ := start.exists_puts Sample.unit.id "x" Nat.one_ne_zero
  obtain ⟨two, putTwo, textsTwo, -⟩ := one.exists_puts Sample.unit.id "y" Nat.one_ne_zero
  have lastOne : one.log.texts Sample.unit.id 1 = ["x"] := textsOne
  rw [lastOne] at textsTwo putTwo
  have readsOne : CandidateLog.store.get Sample.unit.id 1 1 one.log = .ok "x" := by
    simp [CandidateLog.store, lastOne]
  have readsTwo : CandidateLog.store.get Sample.unit.id 1 2 two.log = .ok "y" := by
    simp [CandidateLog.store, textsTwo]
  obtain ⟨happenings, outcome, course, hstored, hcalls, after, steps⟩ : ∃ happenings outcome,
      Course (onUnit settings Sample.unit 1) happenings (.ok outcome) ∧
      toldStored happenings = [(Sample.unit.id, 1, 1), (Sample.unit.id, 1, 2)] ∧
      (outcome.repairs.get? 1).map (·.steps.map (·.call)) = some [1, 2] ∧
      ∃ after, Archive.Steps Archive.Step start happenings after := by
    refine ⟨_, _, Runs.course (.loaded Sample.located (.unused rfl) (.none Nat.one_ne_zero) grows
      (.finished (.saved rfl (.ok ())) rfl)), rfl, rfl, ?_⟩
    exact ⟨_, .cons (.inl (.tell _)) <| .cons (.inl (.ask _ _)) <| .cons putOne <|
      .cons (.inl (.tell _)) <| .cons (Archive.reads readsOne) <| .cons (.inl (.validate _ _ _)) <|
      .cons (.inl (.tell _)) <| .cons (.inl (.tell _)) <| .cons (Archive.reads readsOne) <|
      .cons (.inl (.ask _ _)) <| .cons (.inl (.tell _)) <| .cons (.inl (.tell _)) <|
      .cons (Archive.reads readsOne) <| .cons (.inl (.ask _ _)) <| .cons putTwo <|
      .cons (.inl (.tell _)) <| .cons (Archive.reads readsTwo) <| .cons (.inl (.validate _ _ _)) <|
      .cons (.inl (.tell _)) <| .cons (.inl (.tell _)) <|
      .cons (.inl (.save Sample.unit.id _ _ default)) <| .cons (.inl (.tell _)) <| .nil _⟩
  obtain ⟨exchanges, parts, h, -, -, takes, repairs, noted⟩ := replies_stored_and_noted course steps
  exact ⟨start, happenings, outcome, after, course, steps, hstored, hcalls, exchanges, parts, h,
    takes, repairs, noted⟩

end Work

end Graft
