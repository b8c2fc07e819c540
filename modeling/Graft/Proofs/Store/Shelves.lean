import Graft.Proofs.Store.Log

/-!
What a store of candidates answers, said without a store: the texts of each function stand on a
shelf of their own, a text that is put goes behind the others, and every answer is read off the
shelf (`Shelves.answer`). A store that does so one request at a time does so in every session
(`Refines.session`); the store in memory does (`CandidateLog.refines`).
-/

namespace Graft

open Hash Text

inductive StoreRequest where
  | put (unit : UnitId) (ordinal : Nat) (text : String)
  | putVerified (unit : UnitId) (ordinal : Nat) (text : String)
  | get (unit : UnitId) (ordinal attempt : Nat)
  | attempts (unit : UnitId) (ordinal : Nat)
  | latest (unit : UnitId) (ordinal : Nat)
  | isStored (unit : UnitId) (ordinal attempt : Nat)
  /-- Leaves the store and opens it anew. -/
  | reopen

inductive StoreReply where
  | number (result : Except StoreError Nat)
  | text (result : Except StoreError String)
  | numbers (result : Except StoreError (List Nat))
  | truth (result : Except StoreError Bool)
  | reopened (result : Except StoreError Unit)

namespace StoreRequest

def unit? : StoreRequest → Option UnitId
  | put unit .. | putVerified unit .. | get unit .. | attempts unit _ | latest unit _
  | isStored unit .. => some unit
  | reopen => none

def puts (unit : UnitId) (ordinal : Nat) : StoreRequest → Bool
  | put other place _ | putVerified other place _ => other == unit && place == ordinal
  | _ => false

variable {σ : Type} (store : CandidateStore σ) (reopened : σ → Except StoreError σ)

def answer : StoreRequest → σ → StoreReply × σ
  | put unit ordinal text, content =>
      let (result, content) := store.put unit ordinal text content
      (.number result, content)
  | putVerified unit ordinal text, content =>
      let (result, content) := store.putVerified unit ordinal text content
      (.number result, content)
  | get unit ordinal attempt, content => (.text (store.get unit ordinal attempt content), content)
  | attempts unit ordinal, content => (.numbers (store.attempts unit ordinal content), content)
  | latest unit ordinal, content => (.number (store.latest unit ordinal content), content)
  | isStored unit ordinal attempt, content =>
      (.truth (store.isStored unit ordinal attempt content), content)
  | reopen, content =>
      match reopened content with
      | .ok content => (.reopened (.ok ()), content)
      | .error error => (.reopened (.error error), content)

/-- What a store answers to one request after the other. -/
def session : List StoreRequest → σ → List StoreReply × σ
  | [], content => ([], content)
  | request :: rest, content =>
      let (reply, content) := request.answer store reopened content
      let (replies, content) := session rest content
      (reply :: replies, content)

end StoreRequest

/-- The texts that were put for each function. -/
abbrev Shelves : Type := UnitId → Nat → List String

namespace Shelves

def empty : Shelves := fun _ _ => []

def add (shelves : Shelves) (unit : UnitId) (ordinal : Nat) (text : String) : Shelves :=
  fun other place =>
    if other = unit ∧ place = ordinal then shelves unit ordinal ++ [text] else shelves other place

/-- With one more text a shelf has the texts that it had, and the new one behind them. -/
theorem getElem?_add_iff {shelves : Shelves} {unit other : UnitId} {ordinal place index : Nat}
    {text written : String} : (shelves.add unit ordinal text other place)[index]? = some written ↔
      (shelves other place)[index]? = some written ∨
        (other = unit ∧ place = ordinal) ∧ index = (shelves other place).length ∧ written = text := by
  unfold add
  split
  · next same =>
      obtain ⟨rfl, rfl⟩ := same
      simp only [List.getElem?_append, List.getElem?_singleton]
      split
      · next short =>
          have before : index ≠ (shelves other place).length := Nat.ne_of_lt short
          simp [before]
      · next long =>
          have none : (shelves other place)[index]? = none :=
            List.getElem?_eq_none (Nat.not_lt.1 long)
          rw [none]
          grind
  · next differs => simp [differs]

theorem lt_length_add_iff {shelves : Shelves} {unit other : UnitId} {ordinal place index : Nat}
    {text : String} : index < (shelves.add unit ordinal text other place).length ↔
      index < (shelves other place).length ∨
        (other = unit ∧ place = ordinal) ∧ index = (shelves other place).length := by
  unfold add
  split
  · next same =>
      obtain ⟨rfl, rfl⟩ := same
      simp only [List.length_append, List.length_singleton, and_self, true_and]
      omega
  · next differs => simp [differs]

def get (shelves : Shelves) (unit : UnitId) (ordinal : Nat) : Nat → Except StoreError String
  | 0 => .error (.notFound unit ordinal 0)
  | index + 1 =>
      match (shelves unit ordinal)[index]? with
      | some text => .ok text
      | none => .error (.notFound unit ordinal (index + 1))

def answer (shelves : Shelves) : StoreRequest → StoreReply × Shelves
  | .put unit ordinal text | .putVerified unit ordinal text =>
      if ordinal = 0 then (.number (.error .invalidOrdinal), shelves)
      else (.number (.ok ((shelves unit ordinal).length + 1)), shelves.add unit ordinal text)
  | .get unit ordinal attempt => (.text (shelves.get unit ordinal attempt), shelves)
  | .attempts unit ordinal =>
      (.numbers (.ok (List.range' 1 (shelves unit ordinal).length)), shelves)
  | .latest unit ordinal =>
      (.number (if shelves unit ordinal = [] then .error (.noCandidates unit ordinal)
        else .ok (shelves unit ordinal).length), shelves)
  | .isStored unit ordinal attempt =>
      (.truth (.ok (decide (1 ≤ attempt ∧ attempt ≤ (shelves unit ordinal).length))), shelves)
  | .reopen => (.reopened (.ok ()), shelves)

def session (shelves : Shelves) : List StoreRequest → List StoreReply × Shelves
  | [] => ([], shelves)
  | request :: rest =>
      let (reply, shelves) := shelves.answer request
      let (replies, shelves) := shelves.session rest
      (reply :: replies, shelves)

/-- A request changes no shelf but that on which it puts a text, and there no text but the new one. -/
theorem answer_keeps (shelves : Shelves) (request : StoreRequest) (unit : UnitId) (ordinal : Nat) :
    (shelves.answer request).2 unit ordinal = shelves unit ordinal ∨
      request.puts unit ordinal = true ∧
        ∃ text : String, (shelves.answer request).2 unit ordinal = shelves unit ordinal ++ [text] := by
  have adds (other : UnitId) (place : Nat) (text : String) :
      shelves.add other place text unit ordinal = shelves unit ordinal ∨
        (other == unit && place == ordinal) = true ∧
          ∃ added : String, shelves.add other place text unit ordinal = shelves unit ordinal ++ [added] := by
    by_cases same : unit = other ∧ ordinal = place
    · obtain ⟨rfl, rfl⟩ := same
      exact .inr ⟨by simp, text, by simp [add]⟩
    · exact .inl (by simp [add, same])
  cases request with
  | put other place text | putVerified other place text =>
      by_cases zero : place = 0
      · left
        simp [answer, zero]
      · rw [answer, if_neg zero]
        exact adds other place text
  | get | attempts | latest | isStored | reopen => exact .inl rfl

theorem session_append (shelves : Shelves) (first second : List StoreRequest) :
    (shelves.session (first ++ second)).2 = ((shelves.session first).2.session second).2 := by
  induction first generalizing shelves with
  | nil => rfl
  | cons request rest ih => exact ih (shelves.answer request).2

/-- The texts on a shelf, and those that some requests put there, fit into the numbers there are. -/
def Room (shelves : Shelves) (requests : List StoreRequest) : Prop :=
  ∀ unit ordinal,
    (shelves unit ordinal).length + requests.countP (·.puts unit ordinal) ≤ maxUnsigned 32

theorem Room.rest {shelves : Shelves} {request : StoreRequest} {requests : List StoreRequest}
    (h : shelves.Room (request :: requests)) : (shelves.answer request).2.Room requests := by
  intro unit ordinal
  have room := h unit ordinal
  rw [List.countP_cons] at room
  obtain same | ⟨puts, text, same⟩ := shelves.answer_keeps request unit ordinal
  · rw [same]
    omega
  · rw [same, List.length_append, List.length_singleton]
    rw [if_pos puts] at room
    omega

end Shelves

/-- That a store answers one request as the shelves do, as long as there are numbers for the texts. -/
structure Refines {σ : Type} (store : CandidateStore σ) (reopened : σ → Except StoreError σ)
    (admits : UnitId → Prop) (relation : Shelves → σ → Prop) : Prop where
  refuses : ∀ unit text content, store.put unit 0 text content = (.error .invalidOrdinal, content)
  put : ∀ {shelves content unit ordinal}, relation shelves content → admits unit → ordinal ≠ 0 →
    (shelves unit ordinal).length < maxUnsigned 32 → ∀ text, ∃ after,
      store.put unit ordinal text content = (.ok ((shelves unit ordinal).length + 1), after) ∧
        relation (shelves.add unit ordinal text) after
  get : ∀ {shelves content unit}, relation shelves content → admits unit → ∀ ordinal attempt,
    store.get unit ordinal attempt content = shelves.get unit ordinal attempt
  attempts : ∀ {shelves content unit}, relation shelves content → admits unit → ∀ ordinal,
    store.attempts unit ordinal content = .ok (List.range' 1 (shelves unit ordinal).length)
  reopened : ∀ {shelves content}, relation shelves content → reopened content = .ok content

namespace Refines

variable {σ : Type} {store : CandidateStore σ} {reopened : σ → Except StoreError σ}
  {admits : UnitId → Prop} {relation : Shelves → σ → Prop} {shelves : Shelves} {content : σ}

/-- A text that was put is read back as it is. -/
theorem putVerified (h : Refines store reopened admits relation) {unit : UnitId} {ordinal : Nat}
    (related : relation shelves content) (admitted : admits unit) (positive : ordinal ≠ 0)
    (room : (shelves unit ordinal).length < maxUnsigned 32) (text : String) :
    ∃ after, store.putVerified unit ordinal text content =
        (.ok ((shelves unit ordinal).length + 1), after) ∧
      relation (shelves.add unit ordinal text) after := by
  obtain ⟨after, answered, related⟩ := h.put related admitted positive room text
  have stored : store.get unit ordinal ((shelves unit ordinal).length + 1) after = .ok text := by
    rw [h.get related admitted]
    simp [Shelves.get, Shelves.add]
  refine ⟨after, ?_, related⟩
  simp only [CandidateStore.putVerified, answered, stored, if_true]

theorem latest (h : Refines store reopened admits relation) {unit : UnitId}
    (related : relation shelves content) (admitted : admits unit) (ordinal : Nat) :
    store.latest unit ordinal content =
      if shelves unit ordinal = [] then .error (.noCandidates unit ordinal)
      else .ok (shelves unit ordinal).length := by
  rw [CandidateStore.latest, h.attempts related admitted]
  simp only [bind, Except.bind, List.getLast?_range']
  cases texts : shelves unit ordinal with
  | nil => rfl
  | cons text rest => simp [pure, Except.pure]

theorem isStored (h : Refines store reopened admits relation) {unit : UnitId}
    (related : relation shelves content) (admitted : admits unit) (ordinal attempt : Nat) :
    store.isStored unit ordinal attempt content =
      .ok (decide (1 ≤ attempt ∧ attempt ≤ (shelves unit ordinal).length)) := by
  rw [CandidateStore.isStored, h.attempts related admitted]
  have same : (List.range' 1 (shelves unit ordinal).length).contains attempt =
      decide (1 ≤ attempt ∧ attempt ≤ (shelves unit ordinal).length) := by
    rw [Bool.eq_iff_iff, List.contains_iff_mem, List.mem_range'_1, decide_eq_true_iff]
    omega
  simp only [bind, Except.bind, same]
  rfl

/-- One request is answered as the shelves answer it. -/
theorem answer (h : Refines store reopened admits relation) {request : StoreRequest}
    (related : relation shelves content) (admitted : ∀ unit, request.unit? = some unit → admits unit)
    (room : shelves.Room [request]) :
    ∃ after, request.answer store reopened content = ((shelves.answer request).1, after) ∧
      relation (shelves.answer request).2 after := by
  have numbers (unit : UnitId) (ordinal : Nat) (puts : request.puts unit ordinal = true) :
      (shelves unit ordinal).length < maxUnsigned 32 := by
    have limit := room unit ordinal
    rw [List.countP_singleton, if_pos puts] at limit
    omega
  cases request with
  | put unit ordinal text =>
      by_cases zero : ordinal = 0
      · subst zero
        refine ⟨content, ?_, related⟩
        simp [StoreRequest.answer, h.refuses, Shelves.answer]
      · have few := numbers unit ordinal (by simp [StoreRequest.puts])
        obtain ⟨after, answered, related⟩ := h.put related (admitted unit rfl) zero few text
        refine ⟨after, ?_, ?_⟩
        · simp [StoreRequest.answer, answered, Shelves.answer, zero]
        · simpa only [Shelves.answer, if_neg zero] using related
  | putVerified unit ordinal text =>
      by_cases zero : ordinal = 0
      · subst zero
        refine ⟨content, ?_, related⟩
        simp [StoreRequest.answer, CandidateStore.putVerified, h.refuses, Shelves.answer]
      · have few := numbers unit ordinal (by simp [StoreRequest.puts])
        obtain ⟨after, answered, related⟩ := h.putVerified related (admitted unit rfl) zero few text
        refine ⟨after, ?_, ?_⟩
        · simp [StoreRequest.answer, answered, Shelves.answer, zero]
        · simpa only [Shelves.answer, if_neg zero] using related
  | get unit ordinal attempt =>
      exact ⟨content, by simp [StoreRequest.answer, Shelves.answer, h.get related (admitted unit rfl)],
        related⟩
  | attempts unit ordinal =>
      exact ⟨content, by simp [StoreRequest.answer, Shelves.answer,
        h.attempts related (admitted unit rfl)], related⟩
  | latest unit ordinal =>
      exact ⟨content, by simp only [StoreRequest.answer, Shelves.answer,
        h.latest related (admitted unit rfl)], related⟩
  | isStored unit ordinal attempt =>
      exact ⟨content, by simp only [StoreRequest.answer, Shelves.answer,
        h.isStored related (admitted unit rfl)], related⟩
  | reopen =>
      exact ⟨content, by simp [StoreRequest.answer, Shelves.answer, h.reopened related], related⟩

/-- A whole session is answered as the shelves answer it. -/
theorem session (h : Refines store reopened admits relation) {requests : List StoreRequest}
    (related : relation shelves content)
    (admitted : ∀ request ∈ requests, ∀ unit, request.unit? = some unit → admits unit)
    (room : shelves.Room requests) :
    (StoreRequest.session store reopened requests content).1 = (shelves.session requests).1 := by
  induction requests generalizing shelves content with
  | nil => rfl
  | cons request rest ih =>
      have first : shelves.Room [request] := by
        intro unit ordinal
        have limit := room unit ordinal
        rw [List.countP_cons] at limit
        rw [List.countP_singleton]
        omega
      obtain ⟨after, answered, related⟩ :=
        h.answer related (admitted request List.mem_cons_self) first
      have later := ih related (fun other mem => admitted other (List.mem_cons_of_mem _ mem)) room.rest
      simp only [StoreRequest.session, Shelves.session, answered, later]

end Refines

namespace CandidateLog

/-- The store in memory answers as the shelves do. -/
theorem refines : Refines store .ok (fun _ => True) fun shelves log =>
    ∀ unit ordinal, log.texts unit ordinal = shelves unit ordinal where
  refuses unit text log := rfl
  put {shelves log unit ordinal} related _ positive _ text := by
    refine ⟨log.append unit ordinal text, ?_, ?_⟩
    · simp [store, positive, related]
    · intro other place
      simp only [texts_append, related, Shelves.add]
  get {shelves log unit} related _ ordinal attempt := by
    cases attempt with
    | zero => rfl
    | succ index =>
        have same := related unit ordinal
        cases found : (shelves unit ordinal)[index]? with
        | none => simp [store, Shelves.get, same, found]
        | some text => simp [store, Shelves.get, same, found]
  attempts related _ ordinal := by simp only [store, related]
  reopened _ := rfl

end CandidateLog

end Graft
