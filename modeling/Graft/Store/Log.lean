import Graft.Store.Basic

/-!
The store in memory: for each unit and ordinal the list of the texts that were put. The attempt `n`
is the `n`-th text of the list.
-/

namespace Graft

/-- The candidates of all units, the newest entry of a function first in the list. -/
structure CandidateLog where
  entries : List ((UnitId × Nat) × List String)
  deriving Repr, DecidableEq, Inhabited

namespace CandidateLog

def empty : CandidateLog := ⟨[]⟩

/-- The candidates for a function, in the order in which they were put. -/
def texts (log : CandidateLog) (unit : UnitId) (ordinal : Nat) : List String :=
  (log.entries.lookup (unit, ordinal)).getD []

def append (log : CandidateLog) (unit : UnitId) (ordinal : Nat) (text : String) : CandidateLog :=
  ⟨((unit, ordinal), log.texts unit ordinal ++ [text]) ::
    log.entries.filter (·.1 != (unit, ordinal))⟩

theorem texts_append (log : CandidateLog) (unit other : UnitId) (ordinal place : Nat)
    (text : String) :
    (log.append unit ordinal text).texts other place =
      if other = unit ∧ place = ordinal then log.texts unit ordinal ++ [text]
      else log.texts other place := by
  simp only [texts, append]
  by_cases h : (other, place) = (unit, ordinal)
  · obtain ⟨rfl, rfl⟩ := Prod.mk.injEq .. ▸ h
    simp
  · have hne : ((other, place) == (unit, ordinal)) = false := by simpa using h
    have hand : ¬(other = unit ∧ place = ordinal) := fun ⟨h1, h2⟩ => h (h1 ▸ h2 ▸ rfl)
    simp only [List.lookup_cons, hne, hand, ↓reduceIte]
    congr 1
    induction log.entries with
    | nil => rfl
    | cons entry rest ih =>
        obtain ⟨key, found⟩ := entry
        by_cases hkey : key = (unit, ordinal)
        · subst hkey
          simp [List.lookup_cons, hne, ih]
        · by_cases hother : (other, place) = key
          · subst hother
            simp [hkey]
          · have hne' : ((other, place) == key) = false := by simpa using hother
            simp [hkey, List.lookup_cons, hne', ih]

def store : CandidateStore CandidateLog where
  put unit ordinal text log :=
    if ordinal = 0 then (.error .invalidOrdinal, log)
    else (.ok ((log.texts unit ordinal).length + 1), log.append unit ordinal text)
  get unit ordinal attempt log :=
    match attempt with
    | 0 => .error (.notFound unit ordinal 0)
    | index + 1 =>
        match (log.texts unit ordinal)[index]? with
        | some text => .ok text
        | none => .error (.notFound unit ordinal attempt)
  attempts unit ordinal log := .ok (List.range' 1 (log.texts unit ordinal).length)

end CandidateLog

end Graft
