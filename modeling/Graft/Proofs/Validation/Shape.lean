import Graft.Proofs.Validation.Transparency

/-!
The shape of the verdicts of a pipeline. Each way in which the validation of a text ends (`Pipeline.Judges`)
gives a verdict of one shape, `Pipeline.Shaped`: a text of no valid form comes to neither compiler nor cache,
a run of a program is told only behind a compilation of its own that succeeded, and what stands in the way of
a compilation (`Pipeline.Prevented`) is told in words and not kept. So the status alone says whether a variant
can stand (`Verdict.isAccepted_iff`). The main statement is `Pipeline.shaped_of_validateText`.
-/

namespace Graft

open Code Compiler

/-- A consistent verdict accepts exactly what compiles, or fails to compile for the environment alone. -/
theorem Verdict.isAccepted_iff {verdict : Verdict} (consistent : verdict.Consistent) :
    verdict.isAccepted = true ↔
      verdict.status = .succeeded ∨ verdict.status = .failedEnvironment := by
  have invalid : verdict.formValid = false ↔ verdict.status = .notAttempted := consistent
  have valid : verdict.formValid = true ↔ verdict.status ≠ .notAttempted := by
    rw [Ne, ← invalid, Bool.not_eq_false]
  rw [isAccepted, Bool.and_eq_true, bne_iff_ne, valid]
  cases verdict.status <;> decide

theorem Text.append_ne_empty {front rest : String} (filled : front ≠ "" ∨ rest ≠ "") :
    front ++ rest ≠ "" := by
  intro empty
  obtain ⟨noFront, noRest⟩ := String.append_eq_empty_iff.1 empty
  rcases filled with filled | filled
  · exact filled noFront
  · exact filled noRest

open Text in
/-- There are words for every way in which a compiler does not finish. -/
theorem Compiler.ToolchainError.message_ne_empty (error : ToolchainError) : error.message ≠ "" := by
  cases error with
  | unsupportedLanguage extension =>
      have start : "no compiler preset for '." ≠ "" := by decide
      exact append_ne_empty (.inl (append_ne_empty (.inl start)))
  | emptyCommand => exact (by decide : "compiler command is empty" ≠ "")
  | spawn program reason =>
      have start : "failed to run " ≠ "" := by decide
      exact append_ne_empty (.inl (append_ne_empty (.inl (append_ne_empty (.inl start)))))
  | timeout program seconds =>
      have unit : "s" ≠ "" := by decide
      exact append_ne_empty (.inr unit)

namespace Pipeline

variable {σ : Type} (pipeline : Pipeline σ)

/-- What stands in the way of the compilation of a text, in the words of the verdict, and the workshop that is
left then: the scratch directory is gone, if there was one, and no result was kept. -/
inductive Prevented (label fileName text : String) (shop : Workshop σ) : String → Workshop σ → Prop
  | noScratch {error : FileError} {reason : String}
      (failed : Scratch.create pipeline.options.scratchParent label shop.tree =
        .error (error, reason)) :
      Prevented label fileName text shop s!"scratch directory unavailable: {reason}" shop
  | notWritten {scratch : Scratch} {created filled : FileTree} {reason : String}
      (made : Scratch.create pipeline.options.scratchParent label shop.tree = .ok (scratch, created))
      (refused : scratch.materialize fileName text created = (.error reason, filled)) :
      Prevented label fileName text shop s!"variant could not be written: {reason}"
        ⟨(scratch.remove filled).1, shop.tools⟩
  | notCompiled {scratch : Scratch} {created filled : FileTree} {input : String}
      {error : ToolchainError} {ended : Workshop σ}
      (made : Scratch.create pipeline.options.scratchParent label shop.tree = .ok (scratch, created))
      (written : scratch.materialize fileName text created = (.ok input, filled))
      (failed : pipeline.toolchain input (pipeline.context scratch fileName) ⟨filled, shop.tools⟩ =
        (.error error, ended)) :
      Prevented label fileName text shop error.message ⟨(scratch.remove ended.tree).1, ended.tools⟩

/-- That a text is compiled now, no earlier result standing for it, and that the compiler ends with an
output. -/
inductive CompiledAfresh (label fileName text : String) (shop : Workshop σ) : CompileOutput → Prop
  | intro {scratch : Scratch} {created filled : FileTree} {input : String} {output : CompileOutput}
      {ended : Workshop σ} (missed : pipeline.kept? fileName text shop.tree = none)
      (made : Scratch.create pipeline.options.scratchParent label shop.tree = .ok (scratch, created))
      (written : scratch.materialize fileName text created = (.ok input, filled))
      (done : pipeline.toolchain input (pipeline.context scratch fileName) ⟨filled, shop.tools⟩ =
        (.ok output, ended)) :
      CompiledAfresh label fileName text shop output

/-- What is so of the verdict on a text and of the workshop after it, however the validation ends. -/
structure Shaped (label fileName text : String) (shop : Workshop σ) (verdict : Verdict)
    (after : Workshop σ) : Prop where
  consistent : verdict.Consistent
  /-- A text of no valid form has no findings and nothing of a compiler. Every pipeline says the same of it
  and leaves its workshop as it is, so neither toolchain nor cache have a part in it. -/
  malformed (invalid : verdict.formValid = false) : verdict.findings = [] ∧ verdict.score = .zero ∧
    verdict.compilerOutput = "" ∧ verdict.smokeTest = none ∧
      ∀ (other : Pipeline σ) (label fileName : String) (shop : Workshop σ),
        other.validateText label fileName text shop = ((verdict, []), shop)
  /-- A run of a program is told where runs are wanted, of a compilation of its own that succeeded. -/
  tested {smokeTest : SmokeTest} (told : verdict.smokeTest = some smokeTest) :
    verdict.status = .succeeded ∧ pipeline.options.smokeTimeout.isSome = true ∧
      ∃ output, pipeline.CompiledAfresh label fileName text shop output ∧ output.result.exitCode = 0
  /-- What stands in the way of a compilation is told in words, and the workshop is left as by a pipeline
  that has no cache. -/
  prevented {reason : String} {left : Workshop σ} (valid : (analyze text).isValid = true)
    (missed : pipeline.kept? fileName text shop.tree = none)
    (prevented : pipeline.Prevented label fileName text shop reason left) :
    verdict.status = .failedActionable ∧ verdict.compilerOutput = reason ∧ reason ≠ "" ∧ after = left ∧
      (pipeline.uncached.validateText label fileName text shop).2 = left
  accepted : verdict.isAccepted = true ↔
    verdict.status = .succeeded ∨ verdict.status = .failedEnvironment

variable {pipeline} {label fileName text reason : String} {shop after left : Workshop σ}
  {verdict : Verdict}

/-! Texts of no valid form -/

theorem Judges.isValid (h : pipeline.Judges label fileName text shop verdict after) :
    verdict.formValid = (analyze text).isValid := by
  cases h with
  | malformed invalid => exact invalid.symm
  | kept valid => exact valid.symm
  | noScratch valid => exact valid.symm
  | notWritten valid => exact valid.symm
  | notCompiled valid => exact valid.symm
  | compiled valid =>
      obtain ⟨smokeTest, same⟩ := pipeline.tested_fst _ fileName text _ _
      rw [same]
      exact valid.symm

theorem validateText_of_invalid (invalid : (analyze text).isValid = false) (pipeline : Pipeline σ)
    (label fileName : String) (shop : Workshop σ) :
    pipeline.validateText label fileName text shop =
      ((.malformed (analyze text).issues, []), shop) := by
  rw [validateText_eq, invalid]
  rfl

/-! Runs of programs -/

/-- A run is noted only where runs are wanted and the compilation succeeded. -/
theorem tested_smokeTest {scratch : Scratch} {output : CompileOutput} {ended : Workshop σ}
    {smokeTest : SmokeTest}
    (told : (pipeline.tested scratch fileName text output ended).1.smokeTest = some smokeTest) :
    (pipeline.tested scratch fileName text output ended).1.status = .succeeded ∧
      pipeline.options.smokeTimeout.isSome = true ∧ output.result.exitCode = 0 := by
  rw [tested, smokeTest_eq] at told ⊢
  split at told
  · next timeout path wanted built succeeded =>
      have code := (EnvironmentRules.classify_eq_succeeded_iff _ _ _).1 succeeded
      exact ⟨succeeded, by rw [wanted]; rfl, code⟩
  · cases told

theorem Judges.tested (h : pipeline.Judges label fileName text shop verdict after)
    {smokeTest : SmokeTest} (told : verdict.smokeTest = some smokeTest) :
    verdict.status = .succeeded ∧ pipeline.options.smokeTimeout.isSome = true ∧
      ∃ output, pipeline.CompiledAfresh label fileName text shop output ∧
        output.result.exitCode = 0 := by
  cases h with
  | malformed => cases told
  | kept => cases told
  | noScratch => cases told
  | notWritten => cases told
  | notCompiled => cases told
  | compiled valid missed made written done =>
      obtain ⟨succeeded, wanted, code⟩ := tested_smokeTest told
      exact ⟨succeeded, wanted, _, .intro missed made written done, code⟩

/-! Compilations that are prevented -/

theorem Prevented.reason_ne_empty (h : pipeline.Prevented label fileName text shop reason left) :
    reason ≠ "" := by
  cases h with
  | noScratch =>
      have start : "scratch directory unavailable: " ≠ "" := by decide
      exact Text.append_ne_empty (.inl start)
  | notWritten =>
      have start : "variant could not be written: " ≠ "" := by decide
      exact Text.append_ne_empty (.inl start)
  | notCompiled => exact ToolchainError.message_ne_empty _

/-- What stands in the way of a compilation does so without a cache, too. -/
theorem Prevented.uncached (h : pipeline.Prevented label fileName text shop reason left) :
    pipeline.uncached.Prevented label fileName text shop reason left := by
  cases h with
  | noScratch failed => exact .noScratch failed
  | notWritten made refused => exact .notWritten made refused
  | notCompiled made written failed => exact .notCompiled made written failed

theorem validateText_of_prevented (valid : (analyze text).isValid = true)
    (missed : pipeline.kept? fileName text shop.tree = none)
    (prevented : pipeline.Prevented label fileName text shop reason left) :
    (pipeline.validateText label fileName text shop).1.1 = actionable (analyze text) reason ∧
      (pipeline.validateText label fileName text shop).2 = left := by
  rw [validateText_eq, if_pos valid, compile_eq, missed]
  cases prevented with
  | noScratch failed => simp only [failed, and_self]
  | notWritten made refused => simp only [made, compileIn_eq, refused, and_self]
  | notCompiled made written failed => simp only [made, compileIn_eq, written, failed, and_self]

/-- Every verdict of a pipeline has the same shape: a text has no valid form exactly when the compiler was
not called, and then neither toolchain nor cache have a part in the verdict; a run of a program is told only
behind a compilation of its own that succeeded, where runs are wanted; a scratch directory that cannot be
made, a file that cannot be written and a compiler that does not start or end in time make a failure with
words, of which nothing is kept. So what is accepted is told by the status. -/
theorem shaped_of_validateText (pipeline : Pipeline σ) (label fileName text : String)
    (shop : Workshop σ) :
    pipeline.Shaped label fileName text shop (pipeline.validateText label fileName text shop).1.1
      (pipeline.validateText label fileName text shop).2 where
  consistent := pipeline.consistent_of_validateText label fileName text shop
  malformed invalid := by
    rw [(pipeline.judges label fileName text shop).isValid] at invalid
    rw [validateText_of_invalid invalid]
    exact ⟨rfl, rfl, rfl, rfl, validateText_of_invalid invalid⟩
  tested told := (pipeline.judges label fileName text shop).tested told
  prevented {reason left} valid missed prevented := by
    obtain ⟨verdict, after⟩ := validateText_of_prevented valid missed prevented
    obtain ⟨-, uncached⟩ := validateText_of_prevented valid rfl prevented.uncached
    rw [verdict, after]
    exact ⟨rfl, rfl, prevented.reason_ne_empty, rfl, uncached⟩
  accepted :=
    Verdict.isAccepted_iff (pipeline.consistent_of_validateText label fileName text shop)

end Pipeline

/-! A toolchain that never ends in time -/

namespace Pipeline.Sample

def stalled : Pipeline Nat :=
  { builder with toolchain := fun _ _ shop => (.error (.timeout "cc" 30), shop) }

/-- A compiler that does not end in time leaves a failure with words, and nothing in the cache. -/
theorem shaped_of_stalled :
    (analyze text).isValid = true ∧ stalled.kept? "u.c" text start = none ∧
      stalled.Prevented "u" "u.c" text ⟨start, 0⟩ (ToolchainError.timeout "cc" 30).message
        ⟨(scratch.remove (filled start)).1, 0⟩ ∧
      (stalled.validateText "u" "u.c" text ⟨start, 0⟩).1.1.status = .failedActionable ∧
      (stalled.validateText "u" "u.c" text ⟨start, 0⟩).2 = ⟨(scratch.remove (filled start)).1, 0⟩ := by
  have here : start ∈ trees := List.mem_cons_self
  have valid : (analyze text).isValid = true := steps.1
  have missed : stalled.kept? "u.c" text start = none := by
    rw [Option.eq_none_iff_forall_ne_some]
    intro result found
    obtain ⟨there, -⟩ := (kept?_eq_some_iff rfl).1 found
    rw [get?_start] at there
    cases there
  have prevented : stalled.Prevented "u" "u.c" text ⟨start, 0⟩
      (ToolchainError.timeout "cc" 30).message ⟨(scratch.remove (filled start)).1, 0⟩ :=
    @Prevented.notCompiled Nat stalled "u" "u.c" text ⟨start, 0⟩ scratch (created start) (filled start)
      "/tmp/splice-u-000000/u.c" (.timeout "cc" 30) ⟨filled start, 0⟩ (made here) (written here) rfl
  obtain ⟨status, -, -, left, -⟩ :=
    (shaped_of_validateText stalled "u" "u.c" text ⟨start, 0⟩).prevented valid missed prevented
  exact ⟨valid, missed, prevented, status, left⟩

end Pipeline.Sample

end Graft
