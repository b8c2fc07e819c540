import Graft.Proofs.Work.Candidate
import Graft.Work.Mend

/-!
The courses of repairs. `MendCalls` has one constructor for each way in which a call of a repair can
end: two of them go on with the next call, and the others end the repair. `mendCalls_of_course`
says that a repair takes no other course, and `MendCalls.course` that it can take each of these.
-/

namespace Graft

open Code Generation

def RepairState.callsLeft (state : RepairState) : Nat :=
  if state.status = .pending then state.budget - state.consumed else 0

namespace Mending

def request (unit : SourceUnit) (spans : List Span) (mending : Mending) (prior : String) : Request :=
  Work.requestFor unit spans mending.state.ordinal (some prior) (some mending.verdict.failureReason)

@[simp] theorem request_unitId (unit : SourceUnit) (spans : List Span) (mending : Mending)
    (prior : String) : (mending.request unit spans prior).unitId = unit.id := rfl

@[simp] theorem request_ordinal (unit : SourceUnit) (spans : List Span) (mending : Mending)
    (prior : String) : (mending.request unit spans prior).ordinal = mending.state.ordinal := rfl

@[simp] theorem request_isRepair (unit : SourceUnit) (spans : List Span) (mending : Mending)
    (prior : String) : (mending.request unit spans prior).isRepair = true := rfl

def rejected (mending : Mending) (message : String) : Mending :=
  let state := mending.state.beginCall
  { mending with state := (state.record state.consumed (.rejected message)).markRejected message }

def unanswered (mending : Mending) (error : GenerationError) : Mending :=
  let state := mending.state.beginCall
  { mending with state := state.record state.consumed (.serviceError error.message) }

def select (mending : Mending) (attempt : Nat) : Selection :=
  mending.selection.insert mending.state.ordinal attempt

def accepted (mending : Mending) (attempt : Nat) (variant : Variant) (verdict : Verdict) : Mending :=
  let state := { mending.state.beginCall with lastTried := attempt }
  ⟨mending.select attempt,
    (state.record state.consumed (.accepted attempt)).markRepaired attempt, variant, verdict⟩

def stillFailing (mending : Mending) (attempt : Nat) (variant : Variant) (verdict : Verdict) :
    Mending :=
  let state := { mending.state.beginCall with lastTried := attempt }
  ⟨mending.select attempt,
    state.record state.consumed (.stillFailing attempt verdict.failureReason), variant, verdict⟩

def exhausted (mending : Mending) : Mending :=
  { mending with state := mending.state.markExhausted }

end Mending

namespace Work

variable {unit : SourceUnit} {spans : List Span} {happenings : List Happening}

inductive Fetches (unit : UnitId) :
    List (Nat × Nat) → List Happening → Except Failure (List (Nat × String)) → Prop
  | nil : Fetches unit [] [] (.ok [])
  | missing {ordinal attempt : Nat} {others : List (Nat × Nat)} (error : StoreError) :
      Fetches unit ((ordinal, attempt) :: others) [⟨.get unit ordinal attempt, .error error⟩]
        (.error (.merge (.store error)))
  | cons {ordinal attempt : Nat} {others : List (Nat × Nat)} (text : String)
      {rest : List Happening} {found : Except Failure (List (Nat × String))}
      (later : Fetches unit others rest found) :
      Fetches unit ((ordinal, attempt) :: others)
        (⟨.get unit ordinal attempt, .ok text⟩ :: rest) (found.map ((ordinal, text) :: ·))

theorem fetches_of_course {id : UnitId} {entries : List (Nat × Nat)}
    {result : Except Failure (List (Nat × String))}
    (course : Course (fetch id entries) happenings result) :
    Fetches id entries happenings result := by
  induction entries generalizing happenings result with
  | nil =>
      obtain ⟨rfl, rfl⟩ := course_done_iff.1 course
      exact .nil
  | cons entry others ih =>
      obtain ⟨ordinal, attempt⟩ := entry
      unfold fetch at course
      rw [course_perform_ofExcept_bind_iff] at course
      rcases course with ⟨text, rest, _, rfl, rfl, course⟩ | ⟨error, _, rfl, rfl, rfl⟩
      · obtain ⟨found, hfound, rfl⟩ := course_bind_pure_iff.1 course
        exact .cons text (ih hfound)
      · exact .missing error

theorem Fetches.course {id : UnitId} {entries : List (Nat × Nat)}
    {result : Except Failure (List (Nat × String))}
    (fetches : Fetches id entries happenings result) :
    Course (fetch id entries) happenings result := by
  induction fetches with
  | nil => exact .done _
  | missing error =>
      exact course_perform_ofExcept_bind_iff.2 (.inr ⟨error, _, rfl, rfl, rfl⟩)
  | cons text later ih =>
      exact course_perform_ofExcept_bind_iff.2 (.inl ⟨text, _, _, rfl, rfl,
        course_bind_pure_iff.2 ⟨_, ih, rfl⟩⟩)

inductive Merges (unit : SourceUnit) (spans : List Span) (selection : Selection) :
    List Happening → Except Failure Variant → Prop
  | unfit {error : MergeError} (check : Variant.check unit spans selection = .error error) :
      Merges unit spans selection [] (.error (.merge error))
  | fetched {happenings : List Happening} {found : Except Failure (List (Nat × String))}
      (check : Variant.check unit spans selection = .ok ())
      (fetches : Fetches unit.id selection.entries happenings found) :
      Merges unit spans selection happenings (found.map (Variant.assemble unit spans selection))

theorem merges_of_course {selection : Selection} {result : Except Failure Variant}
    (course : Course (merge unit spans selection) happenings result) :
    Merges unit spans selection happenings result := by
  unfold merge at course
  rw [course_ofExcept_bind_iff] at course
  rcases course with ⟨_, check, course⟩ | ⟨error, check, rfl, rfl⟩
  · obtain ⟨found, hfound, rfl⟩ := course_bind_pure_iff.1 course
    exact .fetched check (fetches_of_course hfound)
  · exact .unfit check

theorem Merges.course {selection : Selection} {result : Except Failure Variant}
    (merges : Merges unit spans selection happenings result) :
    Course (merge unit spans selection) happenings result := by
  cases merges with
  | unfit check => exact course_ofExcept_bind_iff.2 (.inr ⟨_, check, rfl, rfl⟩)
  | fetched check fetches =>
      exact course_ofExcept_bind_iff.2 (.inl ⟨(), check,
        course_bind_pure_iff.2 ⟨_, fetches.course, rfl⟩⟩)

/-- Merging only reads candidates of the unit. -/
theorem gets_of_merges {selection : Selection} {result : Except Failure Variant}
    (merges : Merges unit spans selection happenings result) :
    ∀ happening ∈ happenings, ∃ ordinal attempt answer,
      happening = ⟨.get unit.id ordinal attempt, answer⟩ := by
  have fetching {entries : List (Nat × Nat)} {first : List Happening}
      {found : Except Failure (List (Nat × String))} (fetches : Fetches unit.id entries first found) :
      ∀ happening ∈ first, ∃ ordinal attempt answer,
        happening = ⟨.get unit.id ordinal attempt, answer⟩ := by
    induction fetches with
    | nil => simp
    | missing error => exact List.forall_mem_singleton.2 ⟨_, _, _, rfl⟩
    | cons text later ih => exact List.forall_mem_cons.2 ⟨⟨_, _, _, rfl⟩, ih⟩
  cases merges with
  | unfit => simp
  | fetched check fetches => exact fetching fetches

def toldVerdict (unit : SourceUnit) (variant : Variant) (verdict : Verdict) : Happening :=
  told (.windowValidated unit.id variant.window verdict.formValid verdict.status verdict.score)

theorem course_validate_bind_iff {β : Type} {variant : Variant} {next : Verdict → Work β}
    {result : Except Failure β} :
    Course (validate unit variant >>= next) happenings result ↔
      ∃ verdict rest, happenings = ⟨.validate variant (variant.fileName unit), verdict⟩ ::
          toldVerdict unit variant verdict :: rest ∧ Course (next verdict) rest result := by
  unfold validate
  rw [bind_assoc, course_perform_bind_iff]
  simp only [bind_assoc, course_tell_bind_iff, pure_bind]
  constructor
  · rintro ⟨verdict, _, rfl, rest, rfl, course⟩
    exact ⟨verdict, rest, rfl, course⟩
  · rintro ⟨verdict, rest, rfl, course⟩
    exact ⟨verdict, _, rfl, rest, rfl, course⟩

/-- A call of a repair as far as the reply to it. -/
def called (unit : SourceUnit) (spans : List Span) (mending : Mending) (prior : String)
    (reply : Reply) : List Happening :=
  let state := mending.state.beginCall
  [told (.repairRequested unit.id state.ordinal state.consumed state.budget),
    ⟨.get unit.id state.ordinal state.lastTried, .ok prior⟩,
    ⟨.ask (mending.request unit spans prior), reply⟩]

def putAndTold (unit : SourceUnit) (ordinal : Nat) (text : String) (attempt : Nat) :
    List Happening :=
  [⟨.put unit.id ordinal text, .ok attempt⟩, told (.candidateStored unit.id ordinal attempt)]

inductive MendCalls (policy : Policy) (unit : SourceUnit) (spans : List Span) :
    Nat → Mending → List Happening → Except Failure Mending → Prop
  | spent (mending : Mending) :
      MendCalls policy unit spans 0 mending
        [toldTransition unit.id mending.state.ordinal mending.exhausted.state none]
        (.ok mending.exhausted)
  | priorMissing {remaining : Nat} (mending : Mending) (error : StoreError) :
      MendCalls policy unit spans (remaining + 1) mending
        [told (.repairRequested unit.id mending.state.ordinal (mending.state.consumed + 1)
            mending.state.budget),
          ⟨.get unit.id mending.state.ordinal mending.state.lastTried, .error error⟩]
        (.error (.store error))
  | rejected {remaining : Nat} (mending : Mending) (prior : String) {reply : Reply}
      {message : String} (taken : policy.taken reply = .error (.rejected message)) :
      MendCalls policy unit spans (remaining + 1) mending
        (called unit spans mending prior reply ++
          [toldTransition unit.id mending.state.ordinal (mending.rejected message).state
            (some message)])
        (.ok (mending.rejected message))
  | unanswered {remaining : Nat} (mending : Mending) (prior : String) {reply : Reply}
      {message : String} {error : GenerationError} {rest : List Happening}
      {result : Except Failure Mending} (taken : policy.taken reply = .error error)
      (herror : error = .service message)
      (later : MendCalls policy unit spans remaining (mending.unanswered error) rest result) :
      MendCalls policy unit spans (remaining + 1) mending
        (called unit spans mending prior reply ++
          told (.generationFailed unit.id mending.state.ordinal error.message) :: rest)
        result
  | notStored {remaining : Nat} (mending : Mending) (prior : String) {reply : Reply} {text : String}
      (error : StoreError) (taken : policy.taken reply = .ok text) :
      MendCalls policy unit spans (remaining + 1) mending
        (called unit spans mending prior reply ++
          [⟨.put unit.id mending.state.ordinal text, .error error⟩])
        (.error (.store error))
  | notMerged {remaining : Nat} (mending : Mending) (prior : String) {reply : Reply} {text : String}
      (attempt : Nat) {merging : List Happening} {failure : Failure}
      (taken : policy.taken reply = .ok text)
      (merges : Merges unit spans (mending.select attempt) merging (.error failure)) :
      MendCalls policy unit spans (remaining + 1) mending
        (called unit spans mending prior reply ++
          putAndTold unit mending.state.ordinal text attempt ++ merging)
        (.error failure)
  | accepted {remaining : Nat} (mending : Mending) (prior : String) {reply : Reply} {text : String}
      (attempt : Nat) {merging : List Happening} {variant : Variant} {verdict : Verdict}
      (taken : policy.taken reply = .ok text)
      (merges : Merges unit spans (mending.select attempt) merging (.ok variant))
      (isAccepted : verdict.isAccepted = true) :
      MendCalls policy unit spans (remaining + 1) mending
        (called unit spans mending prior reply ++
          putAndTold unit mending.state.ordinal text attempt ++ merging ++
          [⟨.validate variant (variant.fileName unit), verdict⟩, toldVerdict unit variant verdict,
            toldTransition unit.id mending.state.ordinal
              (mending.accepted attempt variant verdict).state none])
        (.ok (mending.accepted attempt variant verdict))
  | stillFailing {remaining : Nat} (mending : Mending) (prior : String) {reply : Reply}
      {text : String} (attempt : Nat) {merging rest : List Happening} {variant : Variant}
      {verdict : Verdict} {result : Except Failure Mending}
      (taken : policy.taken reply = .ok text)
      (merges : Merges unit spans (mending.select attempt) merging (.ok variant))
      (notAccepted : verdict.isAccepted = false)
      (later : MendCalls policy unit spans remaining
        (mending.stillFailing attempt variant verdict) rest result) :
      MendCalls policy unit spans (remaining + 1) mending
        (called unit spans mending prior reply ++
          putAndTold unit mending.state.ordinal text attempt ++ merging ++
          ⟨.validate variant (variant.fileName unit), verdict⟩ ::
            toldVerdict unit variant verdict :: rest)
        result

def afterReply (policy : Policy) (unit : SourceUnit) (spans : List Span) (remaining : Nat)
    (mending : Mending) : Except GenerationError String → Work Mending
  | .error (.rejected message) => do
      tellTransition unit.id mending.state.ordinal (mending.rejected message).state (some message)
      return mending.rejected message
  | .error error => do
      tell (.generationFailed unit.id mending.state.ordinal error.message)
      mendWithin policy unit spans remaining (mending.unanswered error)
  | .ok text => do
      let attempt ← put unit.id mending.state.ordinal text
      tell (.candidateStored unit.id mending.state.ordinal attempt)
      let variant ← merge unit spans (mending.select attempt)
      let verdict ← validate unit variant
      if verdict.isAccepted then
        tellTransition unit.id mending.state.ordinal (mending.accepted attempt variant verdict).state
          none
        return mending.accepted attempt variant verdict
      else mendWithin policy unit spans remaining (mending.stillFailing attempt variant verdict)

variable {policy : Policy} {remaining : Nat} {mending : Mending} {result : Except Failure Mending}

theorem course_mendWithin_succ_iff :
    Course (mendWithin policy unit spans (remaining + 1) mending) happenings result ↔
      (∃ prior reply rest, happenings = called unit spans mending prior reply ++ rest ∧
        Course (afterReply policy unit spans remaining mending (policy.taken reply)) rest result) ∨
      ∃ error, happenings =
          [told (.repairRequested unit.id mending.state.ordinal (mending.state.consumed + 1)
              mending.state.budget),
            ⟨.get unit.id mending.state.ordinal mending.state.lastTried, .error error⟩] ∧
        result = .error (.store error) := by
  simp only [mendWithin, course_tell_bind_iff, course_get_bind_iff, course_ask_bind_iff]
  constructor
  · rintro ⟨_, rfl, ⟨prior, _, rfl, reply, rest, rfl, course⟩ | ⟨error, rfl, rfl⟩⟩
    · exact .inl ⟨prior, reply, rest, rfl, course⟩
    · exact .inr ⟨error, rfl, rfl⟩
  · rintro (⟨prior, reply, rest, rfl, course⟩ | ⟨error, rfl, rfl⟩)
    · exact ⟨_, rfl, .inl ⟨prior, _, rfl, reply, rest, rfl, course⟩⟩
    · exact ⟨_, rfl, .inr ⟨error, rfl, rfl⟩⟩

theorem mendCalls_of_course
    (course : Course (mendWithin policy unit spans remaining mending) happenings result) :
    MendCalls policy unit spans remaining mending happenings result := by
  induction remaining generalizing mending happenings with
  | zero =>
      simp only [mendWithin, giveUp, tellTransition, course_tell_bind_iff, course_pure_iff] at course
      obtain ⟨_, rfl, rfl, rfl⟩ := course
      exact .spent mending
  | succ remaining ih =>
      rcases course_mendWithin_succ_iff.1 course with
        ⟨prior, reply, rest, rfl, hrest⟩ | ⟨error, rfl, rfl⟩
      · cases taken : policy.taken reply with
        | ok text =>
            simp only [taken, afterReply, course_put_bind_iff, course_tell_bind_iff] at hrest
            rcases hrest with ⟨attempt, _, rfl, rest, rfl, hmerging⟩ | ⟨error, rfl, rfl⟩
            · rcases course_bind_iff.1 hmerging with
                ⟨variant, merging, last, hmerge, hlast, rfl⟩ | ⟨failure, hmerge, rfl⟩
              · obtain ⟨verdict, later, rfl, hlater⟩ := course_validate_bind_iff.1 hlast
                have merges := merges_of_course hmerge
                cases accepted : verdict.isAccepted with
                | true =>
                    simp only [accepted, ↓reduceIte, tellTransition, course_tell_bind_iff,
                      course_pure_iff] at hlater
                    obtain ⟨_, rfl, rfl, rfl⟩ := hlater
                    exact .accepted mending prior attempt taken merges accepted
                | false =>
                    simp only [accepted, Bool.false_eq_true, ↓reduceIte] at hlater
                    exact .stillFailing mending prior attempt taken merges accepted (ih hlater)
              · exact .notMerged mending prior attempt taken (merges_of_course hmerge)
            · exact .notStored mending prior error taken
        | error error =>
            cases error with
            | rejected message =>
                simp only [taken, afterReply, tellTransition, course_tell_bind_iff,
                  course_pure_iff] at hrest
                obtain ⟨_, rfl, rfl, rfl⟩ := hrest
                exact .rejected mending prior taken
            | service message =>
                simp only [taken, afterReply, course_tell_bind_iff] at hrest
                obtain ⟨_, rfl, hlater⟩ := hrest
                exact .unanswered mending prior taken rfl (ih hlater)
      · exact .priorMissing mending error

theorem MendCalls.course
    (calls : MendCalls policy unit spans remaining mending happenings result) :
    Course (mendWithin policy unit spans remaining mending) happenings result := by
  induction calls with
  | spent mending => exact course_tell_bind_iff.2 ⟨_, rfl, .done _⟩
  | priorMissing mending error => exact course_mendWithin_succ_iff.2 (.inr ⟨error, rfl, rfl⟩)
  | rejected mending prior taken =>
      refine course_mendWithin_succ_iff.2 (.inl ⟨prior, _, _, rfl, ?_⟩)
      rw [taken]
      exact course_tell_bind_iff.2 ⟨_, rfl, .done _⟩
  | unanswered mending prior taken herror later ih =>
      refine course_mendWithin_succ_iff.2 (.inl ⟨prior, _, _, rfl, ?_⟩)
      subst herror
      rw [taken]
      exact course_tell_bind_iff.2 ⟨_, rfl, ih⟩
  | notStored mending prior error taken =>
      refine course_mendWithin_succ_iff.2 (.inl ⟨prior, _, _, rfl, ?_⟩)
      rw [taken]
      exact course_put_bind_iff.2 (.inr ⟨error, rfl, rfl⟩)
  | notMerged mending prior attempt taken merges =>
      refine course_mendWithin_succ_iff.2 (.inl ⟨prior, _, _, List.append_assoc .., ?_⟩)
      rw [taken]
      exact course_put_bind_iff.2 (.inl ⟨attempt, _, rfl, course_tell_bind_iff.2 ⟨_, rfl,
        course_bind_iff.2 (.inr ⟨_, merges.course, rfl⟩)⟩⟩)
  | accepted mending prior attempt taken merges isAccepted =>
      simp only [List.append_assoc]
      refine course_mendWithin_succ_iff.2 (.inl ⟨prior, _, _, rfl, ?_⟩)
      rw [taken]
      refine course_put_bind_iff.2 (.inl ⟨attempt, _, rfl, course_tell_bind_iff.2 ⟨_, rfl,
        course_bind_iff.2 (.inl ⟨_, _, _, merges.course,
          course_validate_bind_iff.2 ⟨_, _, rfl, ?_⟩, rfl⟩)⟩⟩)
      rw [isAccepted]
      exact course_tell_bind_iff.2 ⟨_, rfl, .done _⟩
  | stillFailing mending prior attempt taken merges notAccepted later ih =>
      simp only [List.append_assoc]
      refine course_mendWithin_succ_iff.2 (.inl ⟨prior, _, _, rfl, ?_⟩)
      rw [taken]
      refine course_put_bind_iff.2 (.inl ⟨attempt, _, rfl, course_tell_bind_iff.2 ⟨_, rfl,
        course_bind_iff.2 (.inl ⟨_, _, _, merges.course,
          course_validate_bind_iff.2 ⟨_, _, rfl, ?_⟩, rfl⟩)⟩⟩)
      rw [notAccepted]
      exact ih

/-- The courses of the repair of a function, wanted or not. -/
inductive Mends (policy : Policy) (unit : SourceUnit) (spans : List Span) (mending : Mending) :
    List Happening → Except Failure Mending → Prop
  | unwanted (noFix : policy.autoFix = false) :
      Mends policy unit spans mending
        [toldTransition unit.id mending.state.ordinal mending.exhausted.state
          (some "auto_fix disabled")]
        (.ok mending.exhausted)
  | wanted {happenings : List Happening} {result : Except Failure Mending}
      (fix : policy.autoFix = true)
      (calls : MendCalls policy unit spans mending.state.callsLeft mending happenings result) :
      Mends policy unit spans mending happenings result

theorem mends_of_course (course : Course (mend policy unit spans mending) happenings result) :
    Mends policy unit spans mending happenings result := by
  unfold mend at course
  cases fix : policy.autoFix with
  | false =>
      simp only [fix, Bool.not_false, ↓reduceIte, giveUp, tellTransition, course_tell_bind_iff,
        course_pure_iff] at course
      obtain ⟨_, rfl, rfl, rfl⟩ := course
      exact .unwanted fix
  | true =>
      simp only [fix, Bool.not_true, Bool.false_eq_true, ↓reduceIte] at course
      exact .wanted fix (mendCalls_of_course course)

theorem Mends.course (mends : Mends policy unit spans mending happenings result) :
    Course (mend policy unit spans mending) happenings result := by
  unfold mend
  cases mends with
  | unwanted noFix =>
      rw [noFix]
      exact course_tell_bind_iff.2 ⟨_, rfl, .done _⟩
  | wanted fix calls =>
      rw [fix]
      exact calls.course

end Work

end Graft
