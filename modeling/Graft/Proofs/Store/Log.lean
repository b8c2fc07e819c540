import Graft.Store.Log

/-!
The store in memory only grows. `CandidateLog.putVerified_eq` says what a candidate that is put does
to the log and what is answered; `prefix_texts_put` that the candidates that were there keep their
places, so that what could be read can be read from then on (`get_of_prefix`).
-/

namespace Graft

namespace CandidateLog

def Has (log : CandidateLog) (unit : UnitId) (ordinal attempt : Nat) : Prop :=
  1 ≤ attempt ∧ attempt ≤ (log.texts unit ordinal).length

theorem mem_range'_texts_iff {log : CandidateLog} {unit : UnitId} {ordinal attempt : Nat} :
    attempt ∈ List.range' 1 (log.texts unit ordinal).length ↔ log.Has unit ordinal attempt := by
  rw [List.mem_range'_1, Has]
  omega

/-- A candidate that is put takes the place behind those of its function, and can be read back. -/
theorem putVerified_eq (unit : UnitId) (ordinal : Nat) (text : String) (log : CandidateLog) :
    store.putVerified unit ordinal text log =
      if ordinal = 0 then (.error .invalidOrdinal, log)
      else (.ok ((log.texts unit ordinal).length + 1), log.append unit ordinal text) := by
  unfold CandidateStore.putVerified
  by_cases zero : ordinal = 0
  · simp [store, zero]
  · have stored : (log.append unit ordinal text).texts unit ordinal =
        log.texts unit ordinal ++ [text] := by simp [texts_append]
    simp [store, zero, stored]

/-- In memory, what is put can be read back at once. -/
theorem putVerified_eq_put (unit : UnitId) (ordinal : Nat) (text : String) (log : CandidateLog) :
    store.putVerified unit ordinal text log = store.put unit ordinal text log :=
  putVerified_eq unit ordinal text log

/-- The candidates that were there keep their places. -/
theorem prefix_texts_put (log : CandidateLog) (unit other : UnitId) (ordinal place : Nat)
    (text : String) :
    log.texts other place <+: (store.putVerified unit ordinal text log).2.texts other place := by
  rw [putVerified_eq]
  split
  · exact List.prefix_refl _
  · simp only [texts_append]
    split
    · next same =>
        obtain ⟨rfl, rfl⟩ := same
        exact List.prefix_append _ _
    · exact List.prefix_refl _

/-- A candidate that was put has the number behind those of its function, and the log is longer by it. -/
theorem append_of_putVerified {unit : UnitId} {ordinal attempt : Nat} {text : String}
    {log : CandidateLog} (answered : (store.putVerified unit ordinal text log).1 = .ok attempt) :
    attempt = (log.texts unit ordinal).length + 1 ∧
      (store.putVerified unit ordinal text log).2 = log.append unit ordinal text := by
  rw [putVerified_eq] at answered ⊢
  split at answered
  · cases answered
  · next positive =>
      obtain rfl := Except.ok.inj answered
      rw [if_neg positive]
      exact ⟨rfl, rfl⟩

/-- An attempt that was answered is stored. -/
theorem has_of_putVerified {unit : UnitId} {ordinal attempt : Nat} {text : String}
    {log : CandidateLog} (answered : (store.putVerified unit ordinal text log).1 = .ok attempt) :
    (store.putVerified unit ordinal text log).2.Has unit ordinal attempt := by
  obtain ⟨rfl, same⟩ := append_of_putVerified answered
  rw [same]
  simp [Has, texts_append]

/-- A candidate that can be read is the text at the place of its attempt. -/
theorem get_eq_ok_iff {unit : UnitId} {ordinal attempt : Nat} {text : String} {log : CandidateLog} :
    store.get unit ordinal attempt log = .ok text ↔
      attempt ≠ 0 ∧ (log.texts unit ordinal)[attempt - 1]? = some text := by
  cases attempt with
  | zero => simp [store]
  | succ index =>
      cases found : (log.texts unit ordinal)[index]? <;> simp [store, found]

theorem get_of_putVerified {unit : UnitId} {ordinal attempt : Nat} {text : String}
    {log : CandidateLog} (answered : (store.putVerified unit ordinal text log).1 = .ok attempt) :
    store.get unit ordinal attempt (store.putVerified unit ordinal text log).2 = .ok text := by
  obtain ⟨rfl, same⟩ := append_of_putVerified answered
  rw [same, get_eq_ok_iff]
  simp [texts_append]

/-- A candidate that can be read can be read as long as those that were there keep their places. -/
theorem get_of_prefix {unit : UnitId} {ordinal attempt : Nat} {text : String}
    {log after : CandidateLog} (kept : log.texts unit ordinal <+: after.texts unit ordinal)
    (h : store.get unit ordinal attempt log = .ok text) :
    store.get unit ordinal attempt after = .ok text := by
  rw [get_eq_ok_iff] at h ⊢
  obtain ⟨positive, found⟩ := h
  obtain ⟨rest, same⟩ := kept
  have place := (List.getElem?_eq_some_iff.1 found).1
  rw [← same, List.getElem?_append_left place]
  exact ⟨positive, found⟩

end CandidateLog

end Graft
