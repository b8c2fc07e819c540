import Graft.Compiler.Environment

/-!
Failures of a compiler between the environment and the text. Only two kinds of lines are looked at, those
that say that there is an error and those that name a library that is not there, and the latter are always
explained. So a failure is one of the text when nothing is reported, or when an error is not explained,
the summary of a failed link counting only where no library is missing
(`classify_eq_failedActionable_iff`). What a line says of an undefined reference is not read at all, so an
undefined reference is told from a missing library by that summary alone (`classify_of_failed`).
-/

namespace Graft.Compiler.EnvironmentRules

open Graft.Text

variable {rules : EnvironmentRules} {exitCode : Int} {output line : String}

def libraryLines (output : String) : List String := (lines output).filter namesMissingLibrary

theorem mem_errorLines_iff :
    line ∈ errorLines output ↔ ∃ raw ∈ lines output, contains "error:" raw = true ∧ trimmed raw = line := by
  simp only [errorLines, linesWith, List.mem_map, List.mem_filter, and_assoc]

/-- A missing library needs no rule that explains it. -/
theorem explains_of_mem_libraryLines (rules : EnvironmentRules) (mem : line ∈ libraryLines output) :
    rules.explains line = true := by
  have names := (List.mem_filter.1 mem).2
  simp [explains, names]

/-- Whether a line needs no explanation where some libraries are missing. -/
def excuses (rules : EnvironmentRules) (libraries : List String) (line : String) : Bool :=
  (!libraries.isEmpty && isLinkerSummary line) || rules.explains line

theorem excuses_eq_false_iff {libraries : List String} :
    rules.excuses libraries line = false ↔
      rules.explains line = false ∧ (isLinkerSummary line = true → libraries = []) := by
  rw [excuses, Bool.or_eq_false_iff, Bool.and_eq_false_iff]
  cases isLinkerSummary line <;> simp [and_comm]

theorem classify_of_ne_zero (failed : exitCode ≠ 0) :
    rules.classify exitCode output =
      if !(errorLines output ++ libraryLines output).isEmpty &&
        (errorLines output ++ libraryLines output).all (rules.excuses (libraryLines output))
      then .failedEnvironment else .failedActionable :=
  if_neg failed

/-- A failure is one of the text exactly when nothing is reported, or an error is not explained that is
no summary of a failed link, or one where no library is missing. -/
theorem classify_eq_failedActionable_iff (failed : exitCode ≠ 0) :
    rules.classify exitCode output = .failedActionable ↔
      (errorLines output = [] ∧ libraryLines output = []) ∨
        ∃ line ∈ errorLines output, rules.explains line = false ∧
          (isLinkerSummary line = true → libraryLines output = []) := by
  have decided (environment : Bool) :
      (if environment then CompileStatus.failedEnvironment else .failedActionable) =
        .failedActionable ↔ environment = false := by
    cases environment <;> decide
  rw [classify_of_ne_zero failed, decided, Bool.and_eq_false_iff]
  apply or_congr
  · simp
  · rw [List.all_eq_false]
    constructor
    · rintro ⟨line, mem, inexcusable⟩
      have unexplained := excuses_eq_false_iff.1 (Bool.eq_false_iff.2 inexcusable)
      obtain isError | isLibrary := List.mem_append.1 mem
      · exact ⟨line, isError, unexplained⟩
      · have explained := explains_of_mem_libraryLines rules isLibrary
        rw [unexplained.1] at explained
        cases explained
    · rintro ⟨line, isError, unexplained⟩
      refine ⟨line, List.mem_append_left _ isError, ?_⟩
      rw [excuses_eq_false_iff.2 unexplained]
      exact Bool.false_ne_true

/-- A line that says no error and names no library, as one of an undefined reference may be, decides
nothing. -/
theorem classify_of_inserted {before after : List String} {shorter : String}
    (whole : lines output = before ++ line :: after) (rest : lines shorter = before ++ after)
    (silent : contains "error:" line = false) (names : namesMissingLibrary line = false) :
    rules.classify exitCode output = rules.classify exitCode shorter := by
  have errors : errorLines output = errorLines shorter := by
    simp [errorLines, linesWith, whole, rest, silent]
  have libraries : libraryLines output = libraryLines shorter := by
    simp [libraryLines, whole, rest, names]
  by_cases succeeded : exitCode = 0
  · rw [classify, classify, if_pos succeeded, if_pos succeeded]
  · rw [classify_of_ne_zero succeeded, classify_of_ne_zero succeeded, errors, libraries]

/-- A compilation that failed failed for its text when a line says an error that the rules do not explain,
unless it sums up a failed link, whatever headers and libraries are missing beside it. An undefined
reference decides nothing by itself: it makes the compilation fail for its text by the summary of the
failed link, if the rules do not explain that and no library is missing, or when nothing is reported. -/
theorem classify_of_failed (rules : EnvironmentRules) {exitCode : Int} (failed : exitCode ≠ 0)
    (output : String) :
    (∀ line ∈ lines output, contains "error:" line = true → isLinkerSummary (trimmed line) = false →
        rules.explains (trimmed line) = false → rules.classify exitCode output = .failedActionable) ∧
      (rules.classify exitCode output = .failedActionable ↔
        (errorLines output = [] ∧ libraryLines output = []) ∨
          ∃ line ∈ errorLines output, rules.explains line = false ∧
            (isLinkerSummary line = true → libraryLines output = [])) ∧
      ∀ before line after shorter, lines output = before ++ line :: after →
        lines shorter = before ++ after → contains "error:" line = false →
          namesMissingLibrary line = false →
            rules.classify exitCode output = rules.classify exitCode shorter := by
  refine ⟨?_, classify_eq_failedActionable_iff failed, ?_⟩
  · intro line mem speaks alone unexplained
    apply (classify_eq_failedActionable_iff failed).2
    refine .inr ⟨trimmed line, mem_errorLines_iff.2 ⟨line, mem, speaks, rfl⟩, unexplained, ?_⟩
    intro summary
    rw [alone] at summary
    cases summary
  · intro before line after shorter whole rest silent names
    exact classify_of_inserted whole rest silent names

/-- An error of the text is found between a header and a library that are missing. -/
theorem classify_of_failed_between :
    (1 : Int) ≠ 0 ∧ EnvironmentRules.classify ⟨[], []⟩ 1
      ("u.c:1:10: fatal error: windows.h: No such file or directory\n  u.c:9:5: error: expected ';'\n" ++
        "/usr/bin/ld: cannot find -lssl\ncollect2: error: ld returned 1 exit status\n") =
      .failedActionable := by
  refine ⟨by decide, ?_⟩
  apply (classify_of_failed ⟨[], []⟩ (by decide) _).1 "  u.c:9:5: error: expected ';'"
  all_goals decide +kernel

def brokenLink : String :=
  "/usr/bin/ld: cannot find -lssl\n/usr/bin/ld: u.o: undefined reference to `frob'\n" ++
    "collect2: error: ld returned 1 exit status\n"

/-- Not every failure with an undefined reference that the rules do not explain is one of the text: a
missing library excuses it. -/
theorem not_always_failedActionable :
    ¬∀ (rules : EnvironmentRules) (exitCode : Int) (output : String), exitCode ≠ 0 →
      (∃ line ∈ lines output, rules.explains (trimmed line) = false ∧
        (contains "error:" line = true ∧ isLinkerSummary (trimmed line) = false ∨
          contains "undefined reference" line = true)) →
        rules.classify exitCode output = .failedActionable := by
  intro always
  have undefined : "/usr/bin/ld: u.o: undefined reference to `frob'" ∈ lines brokenLink := by
    decide +kernel
  have answer := always ⟨[], []⟩ 1 brokenLink (by decide)
    ⟨_, undefined, by decide +kernel, .inr (by decide +kernel)⟩
  exact absurd answer (by decide +kernel)

end Graft.Compiler.EnvironmentRules
