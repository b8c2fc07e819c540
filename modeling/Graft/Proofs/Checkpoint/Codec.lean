import Graft.Checkpoint
import Graft.Proofs.Instant.Reading
import Graft.Proofs.Json.Decoder

/-!
The text of a checkpoint reads back (`Checkpoint.read?_render`) when its numbers are ones of 32 bits
and its time is one that a clock can show; nothing is asked of its strings.
-/

namespace Graft

open Json Text

/-! What fits into the fields of a checkpoint -/

def RepairResult.InRange : RepairResult → Prop
  | accepted attempt => attempt ≤ maxUnsigned 32
  | stillFailing attempt _ => attempt ≤ maxUnsigned 32
  | serviceError _ => True
  | rejected _ => True

structure RepairStep.InRange (step : RepairStep) : Prop where
  call : step.call ≤ maxUnsigned 32
  result : step.result.InRange

structure RepairState.InRange (state : RepairState) : Prop where
  ordinal : state.ordinal ≤ maxUnsigned 32
  consumed : state.consumed ≤ maxUnsigned 32
  budget : state.budget ≤ maxUnsigned 32
  lastTried : state.lastTried ≤ maxUnsigned 32
  steps : ∀ step ∈ state.steps, step.InRange

structure Checkpoint.InRange (checkpoint : Checkpoint) : Prop where
  selection : ∀ entry ∈ checkpoint.selection.entries,
    entry.1 ≤ maxUnsigned 32 ∧ entry.2 ≤ maxUnsigned 32
  repairs : ∀ entry ∈ checkpoint.repairs.entries, entry.1 ≤ maxUnsigned 32 ∧ entry.2.InRange
  updatedAt : checkpoint.updatedAt.InRange

/-! Every part is read from what it is written as -/

theorem RepairResult.decode_toJson {result : RepairResult} (h : result.InRange) :
    decode result.toJson = some result := by
  cases result with
  | accepted attempt =>
      apply record_object
      refine (required_bind (by rfl) (string_string _) _).trans ?_
      exact required_bind (by rfl) (u32_nat h) _
  | stillFailing attempt reason =>
      apply record_object
      refine (required_bind (by rfl) (string_string _) _).trans ?_
      refine (required_bind (by rfl) (u32_nat h) _).trans ?_
      exact required_bind (by rfl) (string_string _) _
  | serviceError message =>
      apply record_object
      refine (required_bind (by rfl) (string_string _) _).trans ?_
      exact required_bind (by rfl) (string_string _) _
  | rejected message =>
      apply record_object
      refine (required_bind (by rfl) (string_string _) _).trans ?_
      exact required_bind (by rfl) (string_string _) _

theorem RepairStep.decode_toJson {step : RepairStep} (h : step.InRange) :
    decode step.toJson = some step := by
  apply record_object
  refine (required_bind (by rfl) (u32_nat h.call) _).trans ?_
  exact required_bind (by rfl) (RepairResult.decode_toJson h.result) _

theorem RepairStatus.choice_name (status : RepairStatus) :
    Decoder.choice names (.string status.name) = some status := by
  cases status <;> rfl

theorem RepairState.decode_toJson {state : RepairState} (h : state.InRange) :
    decode state.toJson = some state := by
  obtain ⟨ordinal, status, consumed, budget, lastTried, rejection, steps⟩ := state
  have stepsRead := list_array fun step member => RepairStep.decode_toJson (h.steps step member)
  cases rejection
  all_goals
    apply record_object
    refine (required_bind (by rfl) (u32_nat h.ordinal) _).trans ?_
    refine (required_bind (by rfl) (RepairStatus.choice_name status) _).trans ?_
    refine (required_bind (by rfl) (u32_nat h.consumed) _).trans ?_
    refine (required_bind (by rfl) (u32_nat h.budget) _).trans ?_
    refine (required_bind (by rfl) (u32_nat h.lastTried) _).trans ?_
  case none =>
    refine (defaulted_bind_of_missing (by rfl) _).trans ?_
    exact defaulted_bind (by rfl) stepsRead _
  case some message =>
    refine (defaulted_bind (by rfl) (nullable_string message) _).trans ?_
    exact defaulted_bind (by rfl) stepsRead _

theorem Instant.decode_toJson {instant : Instant} (h : instant.InRange) :
    decode instant.toJson = some instant :=
  read?_render h

theorem Checkpoint.decode_toJson {checkpoint : Checkpoint} (h : checkpoint.InRange) :
    decode checkpoint.toJson = some checkpoint := by
  have selection : Selection.decode (Selection.toJson checkpoint.selection) =
      some checkpoint.selection := by
    apply ordinalMap_ofOrdinalMap
    intro entry member
    obtain ⟨key, value⟩ := h.selection entry member
    exact ⟨key, u32_nat value⟩
  have repairs : Decoder.ordinalMap RepairState.decode
      (ofOrdinalMap RepairState.toJson checkpoint.repairs) = some checkpoint.repairs := by
    apply ordinalMap_ofOrdinalMap
    intro entry member
    obtain ⟨key, value⟩ := h.repairs entry member
    exact ⟨key, RepairState.decode_toJson value⟩
  apply record_object
  refine (required_bind (by rfl) (string_string _) _).trans ?_
  refine (required_bind (by rfl) selection _).trans ?_
  refine (required_bind (by rfl) repairs _).trans ?_
  exact required_bind (by rfl) (Instant.decode_toJson h.updatedAt) _

/-! Every part is written as a value that can be read -/

theorem readable_nat {n : Nat} (h : n ≤ maxUnsigned 32) (depth : Nat) : Readable depth (nat n) :=
  .nat depth (Nat.le_trans h (by decide))

theorem RepairResult.readable_toJson {result : RepairResult} (h : result.InRange) :
    Readable 1 result.toJson := by
  cases result with
  | accepted attempt =>
      apply Readable.object
      simp only [List.forall_mem_cons, List.not_mem_nil, false_imp_iff, implies_true, and_true]
      exact ⟨.string .., readable_nat h 0⟩
  | stillFailing attempt reason =>
      apply Readable.object
      simp only [List.forall_mem_cons, List.not_mem_nil, false_imp_iff, implies_true, and_true]
      exact ⟨.string .., readable_nat h 0, .string ..⟩
  | serviceError message =>
      apply Readable.object
      simp only [List.forall_mem_cons, List.not_mem_nil, false_imp_iff, implies_true, and_true]
      exact ⟨.string .., .string ..⟩
  | rejected message =>
      apply Readable.object
      simp only [List.forall_mem_cons, List.not_mem_nil, false_imp_iff, implies_true, and_true]
      exact ⟨.string .., .string ..⟩

theorem RepairStep.readable_toJson {step : RepairStep} (h : step.InRange) :
    Readable 2 step.toJson := by
  apply Readable.object
  simp only [List.forall_mem_cons, List.not_mem_nil, false_imp_iff, implies_true, and_true]
  exact ⟨readable_nat h.call 1, RepairResult.readable_toJson h.result⟩

theorem RepairState.readable_toJson {state : RepairState} (h : state.InRange) :
    Readable 4 state.toJson := by
  have steps : Readable 3 (.array (state.steps.map RepairStep.toJson)) := by
    apply Readable.array
    intro item member
    obtain ⟨step, listed, rfl⟩ := List.mem_map.1 member
    exact RepairStep.readable_toJson (h.steps step listed)
  have rejection : ∀ member ∈ optionalMember "rejection" .string state.rejection,
      Readable 3 member.2 := by
    cases state.rejection with
    | none => simp [optionalMember]
    | some message => simpa [optionalMember] using Readable.string 3 message
  apply Readable.object
  simp only [List.forall_mem_append, List.forall_mem_cons, List.not_mem_nil, false_imp_iff,
    implies_true, and_true]
  exact ⟨⟨⟨readable_nat h.ordinal 3, .string .., readable_nat h.consumed 3, readable_nat h.budget 3,
    readable_nat h.lastTried 3⟩, rejection⟩, steps⟩

theorem readable_ofOrdinalMap {α : Type} {encode : α → Json} {map : OrdinalMap α} {depth : Nat}
    (each : ∀ entry ∈ map.entries, Readable depth (encode entry.2)) :
    Readable (depth + 1) (ofOrdinalMap encode map) := by
  apply Readable.object
  intro member listed
  obtain ⟨entry, found, rfl⟩ := List.mem_map.1 listed
  exact each entry found

theorem Checkpoint.readable_toJson {checkpoint : Checkpoint} (h : checkpoint.InRange) :
    Readable 6 checkpoint.toJson := by
  have selection : Readable 1 (Selection.toJson checkpoint.selection) :=
    readable_ofOrdinalMap fun entry member => readable_nat (h.selection entry member).2 0
  have repairs : Readable 5 (ofOrdinalMap RepairState.toJson checkpoint.repairs) :=
    readable_ofOrdinalMap fun entry member =>
      RepairState.readable_toJson (h.repairs entry member).2
  apply Readable.object
  simp only [List.forall_mem_cons, List.not_mem_nil, false_imp_iff, implies_true, and_true]
  exact ⟨.string .., selection.mono (by decide), repairs, .string ..⟩

/-! The text of a checkpoint -/

theorem Checkpoint.read?_render {checkpoint : Checkpoint} (h : checkpoint.InRange) :
    read? checkpoint.render = some checkpoint := by
  have parsed : Json.read? checkpoint.render = some checkpoint.toJson :=
    read?_pretty ((readable_toJson h).mono (by decide))
  rw [read?, parsed]
  exact decode_toJson h

end Graft
