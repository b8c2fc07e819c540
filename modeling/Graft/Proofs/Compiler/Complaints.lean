import Graft.Proofs.Compiler.Failure
import Mathlib.Data.Set.Basic
import Mathlib.Logic.Relation

/-!
A failure as a matter of what is complained about. Two sets of lines decide it: the lines that say that there
is an error, without the white space around them, and the lines that name a library that is not there. A step
of editing that keeps what is complained about (`Edit`) keeps both sets, and so does any number of such steps
(`sets_of_edits`). The environment is to blame exactly when something is complained about and nothing of it
is inexcusable (`classify_eq_failedEnvironment_iff`), so neither the order nor the number of the lines counts
(`classify_of_complaints`).
-/

namespace Graft.Compiler.EnvironmentRules

open Graft.Text

variable {rules : EnvironmentRules} {exitCode otherCode : Int} {output other line : String}

/-- The lines that say that there is an error, without the white space around them. -/
def errorSet (output : String) : Set String :=
  {line | ∃ raw ∈ lines output, contains "error:" raw = true ∧ trimmed raw = line}

def librarySet (output : String) : Set String :=
  {line | line ∈ lines output ∧ namesMissingLibrary line = true}

/-- Whether a line says that there is an error or names a library that is not there. -/
def complains (line : String) : Bool := contains "error:" line || namesMissingLibrary line

/-- One change to the lines of an output that keeps what is complained about. Taking lines away is the same
change backwards. -/
inductive Edit : List String → List String → Prop
  | permuted {before after : List String} (perm : before.Perm after) : Edit before after
  | repeated {before after : List String} {line : String} (there : line ∈ before ++ after) :
      Edit (before ++ after) (before ++ line :: after)
  | inserted {before after : List String} {line : String} (silent : complains line = false) :
      Edit (before ++ after) (before ++ line :: after)

/-! Edits keep both sets -/

theorem Edit.mem_iff {before after : List String} (edit : Edit before after)
    (loud : complains line = true) : line ∈ before ↔ line ∈ after := by
  cases edit with
  | permuted perm => exact perm.mem_iff
  | repeated there =>
      simp only [List.mem_append, List.mem_cons] at there ⊢
      constructor
      · rintro (early | late)
        · exact .inl early
        · exact .inr (.inr late)
      · rintro (early | rfl | late)
        · exact .inl early
        · exact there
        · exact .inr late
  | @inserted before after added silent =>
      have different : line ≠ added := by
        rintro rfl
        rw [loud] at silent
        cases silent
      simp [different]

/-- What is complained about is there after any edits exactly when it was there before. -/
theorem mem_iff_of_edits {before after : List String} (edits : Relation.EqvGen Edit before after)
    (loud : complains line = true) : line ∈ before ↔ line ∈ after := by
  induction edits with
  | rel before after edit => exact edit.mem_iff loud
  | refl => exact Iff.rfl
  | symm before after _ ih => exact ih.symm
  | trans before between after _ _ first second => exact first.trans second

theorem sets_of_edits (edits : Relation.EqvGen Edit (lines output) (lines other)) :
    errorSet output = errorSet other ∧ librarySet output = librarySet other := by
  constructor
  · ext line
    apply exists_congr
    intro raw
    rw [← and_assoc, ← and_assoc]
    apply and_congr_left
    rintro -
    apply and_congr_left
    intro speaks
    exact mem_iff_of_edits edits (by simp [complains, speaks])
  · ext line
    apply and_congr_left
    intro names
    exact mem_iff_of_edits edits (by simp [complains, names])

/-! Both sets decide -/

theorem mem_errorSet_iff : line ∈ errorSet output ↔ line ∈ errorLines output :=
  mem_errorLines_iff.symm

theorem mem_librarySet_iff : line ∈ librarySet output ↔ line ∈ libraryLines output :=
  List.mem_filter.symm

theorem nonempty_iff_of_mem_iff {set : Set String} {list : List String}
    (same : ∀ line, line ∈ set ↔ line ∈ list) : set.Nonempty ↔ list ≠ [] := by
  rw [Set.Nonempty, exists_congr same]
  constructor
  · rintro ⟨line, mem⟩
    exact List.ne_nil_of_mem mem
  · exact List.exists_mem_of_ne_nil list

theorem nonempty_librarySet_iff : (librarySet output).Nonempty ↔ libraryLines output ≠ [] :=
  nonempty_iff_of_mem_iff fun _ => mem_librarySet_iff

theorem classify_cases (rules : EnvironmentRules) (output : String) (failed : exitCode ≠ 0) :
    rules.classify exitCode output = .failedEnvironment ∨
      rules.classify exitCode output = .failedActionable := by
  rw [classify_of_ne_zero failed]
  split
  · exact .inl rfl
  · exact .inr rfl

/-- The environment is to blame exactly when something is complained about, and each complaint is explained or
sums up a link that failed where a library is missing. -/
theorem classify_eq_failedEnvironment_iff (failed : exitCode ≠ 0) :
    rules.classify exitCode output = .failedEnvironment ↔
      (errorSet output ∪ librarySet output).Nonempty ∧
        ∀ line ∈ errorSet output ∪ librarySet output, rules.explains line = true ∨
          (librarySet output).Nonempty ∧ isLinkerSummary line = true := by
  have union (line : String) : line ∈ errorSet output ∪ librarySet output ↔
      line ∈ errorLines output ++ libraryLines output := by
    rw [Set.mem_union, List.mem_append, mem_errorSet_iff, mem_librarySet_iff]
  have decided (environment : Bool) :
      (if environment then CompileStatus.failedEnvironment else .failedActionable) =
        .failedEnvironment ↔ environment = true := by
    cases environment <;> decide
  rw [classify_of_ne_zero failed, decided, Bool.and_eq_true]
  apply and_congr
  · rw [nonempty_iff_of_mem_iff union]
    simp
  · rw [List.all_eq_true]
    apply forall_congr'
    intro line
    rw [union, nonempty_librarySet_iff, excuses, Bool.or_eq_true, Bool.and_eq_true, or_comm]
    simp

/-- Two failures with the same complaints end alike. -/
theorem classify_congr (failed : exitCode ≠ 0) (otherFailed : otherCode ≠ 0)
    (errors : errorSet output = errorSet other) (libraries : librarySet output = librarySet other) :
    rules.classify exitCode output = rules.classify otherCode other := by
  have alike : rules.classify exitCode output = .failedEnvironment ↔
      rules.classify otherCode other = .failedEnvironment := by
    rw [classify_eq_failedEnvironment_iff failed, classify_eq_failedEnvironment_iff otherFailed,
      errors, libraries]
  rcases classify_cases rules output failed with environment | actionable
  · rw [environment, alike.1 environment]
  · rcases classify_cases rules other otherFailed with environment | otherActionable
    · rw [environment, alike.2 environment]
    · rw [actionable, otherActionable]

/-- What a failure comes to depends on two sets only, that of the lines that say that there is an error and
that of the lines that name a library that is not there. Neither the order and the number of the lines nor
any line of another kind counts. It is one of the environment exactly when one of the sets is filled and each
member is explained, or sums up a failed link where a library is missing; otherwise it is one of the text. -/
theorem classify_of_complaints (rules : EnvironmentRules) {exitCode : Int} (failed : exitCode ≠ 0)
    (output : String) :
    (∀ otherCode other, otherCode ≠ 0 → errorSet output = errorSet other →
        librarySet output = librarySet other →
          rules.classify exitCode output = rules.classify otherCode other) ∧
      (∀ other, Relation.EqvGen Edit (lines output) (lines other) →
        rules.classify exitCode output = rules.classify exitCode other) ∧
      (rules.classify exitCode output = .failedEnvironment ↔
        (errorSet output ∪ librarySet output).Nonempty ∧
          ∀ line ∈ errorSet output ∪ librarySet output, rules.explains line = true ∨
            (librarySet output).Nonempty ∧ isLinkerSummary line = true) ∧
      (rules.classify exitCode output ≠ .failedEnvironment →
        rules.classify exitCode output = .failedActionable) := by
  refine ⟨?_, ?_, classify_eq_failedEnvironment_iff failed, ?_⟩
  · intro otherCode other otherFailed errors libraries
    exact classify_congr failed otherFailed errors libraries
  · intro other edits
    obtain ⟨errors, libraries⟩ := sets_of_edits edits
    exact classify_congr failed failed errors libraries
  · intro blameless
    exact (classify_cases rules output failed).resolve_left blameless

def lackingLink : String := "in f.o\nld: cannot find -lm\nerror: ld returned 1 exit status\n"

/-- The same complaints in another order, one of them twice, and with another line between them. -/
def lackingLinkShuffled : String :=
  "error: ld returned 1 exit status\nld: cannot find -lm\nin g.o\nld: cannot find -lm\n"

/-- Complaints that are shuffled and repeated, with other lines beside them, come to the same. -/
theorem classify_of_shuffled :
    (1 : Int) ≠ 0 ∧ Relation.EqvGen Edit (lines lackingLink) (lines lackingLinkShuffled) ∧
      EnvironmentRules.classify ⟨[], []⟩ 1 lackingLink = .failedEnvironment ∧
      EnvironmentRules.classify ⟨[], []⟩ 1 lackingLinkShuffled = .failedEnvironment := by
  let library := "ld: cannot find -lm"
  let summary := "error: ld returned 1 exit status"
  have before : lines lackingLink = ["in f.o", library, summary] := by decide +kernel
  have after : lines lackingLinkShuffled = [summary, library, "in g.o", library] := by decide +kernel
  have edits : Relation.EqvGen Edit (lines lackingLink) (lines lackingLinkShuffled) := by
    rw [before, after]
    have shorter : Edit ([] ++ [library, summary]) ([] ++ "in f.o" :: [library, summary]) :=
      .inserted (by decide +kernel)
    have longer : Edit ([library] ++ [summary]) ([library] ++ "in g.o" :: [summary]) :=
      .inserted (by decide +kernel)
    have repeated : Edit ([library, "in g.o"] ++ [summary])
        ([library, "in g.o"] ++ library :: [summary]) :=
      .repeated List.mem_cons_self
    have permuted : Edit [library, "in g.o", library, summary] [summary, library, "in g.o", library] :=
      .permuted (List.perm_append_singleton summary [library, "in g.o", library])
    exact .trans _ _ _ (.symm _ _ (.rel _ _ shorter))
      (.trans _ _ _ (.rel _ _ longer) (.trans _ _ _ (.rel _ _ repeated) (.rel _ _ permuted)))
  have result : EnvironmentRules.classify ⟨[], []⟩ 1 lackingLink = .failedEnvironment := by
    decide +kernel
  have failed : (1 : Int) ≠ 0 := by decide
  have same := (classify_of_complaints ⟨[], []⟩ failed lackingLink).2.1 lackingLinkShuffled edits
  exact ⟨failed, edits, result, same.symm.trans result⟩

end Graft.Compiler.EnvironmentRules
