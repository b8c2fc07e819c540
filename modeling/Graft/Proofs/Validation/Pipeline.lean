import Graft.Validation.Pipeline

/-!
The ways in which the validation of a text can end. `Pipeline.Judges` has one constructor for each of
them, and `Pipeline.judges` says that there are no others; so every verdict of the pipeline is
consistent (`Pipeline.consistent_of_validateText`).
-/

namespace Graft

open Code Compiler

/-- The form of a text is not valid exactly when the compiler was not called for it. -/
def Verdict.Consistent (verdict : Verdict) : Prop :=
  verdict.formValid = false ↔ verdict.status = .notAttempted

instance (verdict : Verdict) : Decidable verdict.Consistent := inferInstanceAs (Decidable (_ ↔ _))

/-- The compilation of a text that ended is not one that was not attempted. -/
theorem Compiler.EnvironmentRules.classify_ne_notAttempted (rules : EnvironmentRules)
    (exitCode : Int) (output : String) : rules.classify exitCode output ≠ .notAttempted := by
  unfold classify
  split
  · exact nofun
  · dsimp only
    split <;> exact nofun

/-- A compilation succeeded exactly when its exit code says so. -/
theorem Compiler.EnvironmentRules.classify_eq_succeeded_iff (rules : EnvironmentRules)
    (exitCode : Int) (output : String) :
    rules.classify exitCode output = .succeeded ↔ exitCode = 0 := by
  unfold classify
  split
  · next zero => simp [zero]
  · next other =>
      dsimp only
      split <;> simp [other]

def CompileOutput.kept (output : CompileOutput) : CompileResult :=
  ⟨output.result.exitCode, output.result.combined⟩

namespace Pipeline

variable {σ : Type} (pipeline : Pipeline σ)

def context (scratch : Scratch) (fileName : String) : BuildContext :=
  ⟨pipeline.options.buildContext, pipeline.options.includeDirs, executablePath scratch fileName⟩

/-- The verdict on a text whose compilation ended, and the workshop before the scratch directory is
removed. -/
def tested (scratch : Scratch) (fileName text : String) (output : CompileOutput)
    (ended : Workshop σ) : Verdict × Workshop σ :=
  pipeline.smokeTest scratch output.executable (pipeline.classified (analyze text) output.kept)
    ⟨pipeline.keep fileName text output.kept ended.tree, ended.tools⟩

/-- How the validation of a text ends: the verdict and the workshop after it. -/
inductive Judges (label fileName text : String) (shop : Workshop σ) : Verdict → Workshop σ → Prop
  | malformed (invalid : (analyze text).isValid = false) :
      Judges label fileName text shop (.malformed (analyze text).issues) shop
  | kept {result : CompileResult} (valid : (analyze text).isValid = true)
      (found : pipeline.kept? fileName text shop.tree = some result) :
      Judges label fileName text shop (pipeline.classified (analyze text) result) shop
  | noScratch {error : FileError} {reason : String} (valid : (analyze text).isValid = true)
      (missed : pipeline.kept? fileName text shop.tree = none)
      (failed : Scratch.create pipeline.options.scratchParent label shop.tree =
        .error (error, reason)) :
      Judges label fileName text shop
        (actionable (analyze text) s!"scratch directory unavailable: {reason}") shop
  | notWritten {scratch : Scratch} {created filled : FileTree} {reason : String}
      (valid : (analyze text).isValid = true)
      (missed : pipeline.kept? fileName text shop.tree = none)
      (made : Scratch.create pipeline.options.scratchParent label shop.tree = .ok (scratch, created))
      (refused : scratch.materialize fileName text created = (.error reason, filled)) :
      Judges label fileName text shop
        (actionable (analyze text) s!"variant could not be written: {reason}")
        ⟨(scratch.remove filled).1, shop.tools⟩
  | notCompiled {scratch : Scratch} {created filled : FileTree} {input : String}
      {error : ToolchainError} {ended : Workshop σ} (valid : (analyze text).isValid = true)
      (missed : pipeline.kept? fileName text shop.tree = none)
      (made : Scratch.create pipeline.options.scratchParent label shop.tree = .ok (scratch, created))
      (written : scratch.materialize fileName text created = (.ok input, filled))
      (failed : pipeline.toolchain input (pipeline.context scratch fileName) ⟨filled, shop.tools⟩ =
        (.error error, ended)) :
      Judges label fileName text shop (actionable (analyze text) error.message)
        ⟨(scratch.remove ended.tree).1, ended.tools⟩
  | compiled {scratch : Scratch} {created filled : FileTree} {input : String}
      {output : CompileOutput} {ended : Workshop σ} (valid : (analyze text).isValid = true)
      (missed : pipeline.kept? fileName text shop.tree = none)
      (made : Scratch.create pipeline.options.scratchParent label shop.tree = .ok (scratch, created))
      (written : scratch.materialize fileName text created = (.ok input, filled))
      (done : pipeline.toolchain input (pipeline.context scratch fileName) ⟨filled, shop.tools⟩ =
        (.ok output, ended)) :
      Judges label fileName text shop (pipeline.tested scratch fileName text output ended).1
        ⟨(scratch.remove (pipeline.tested scratch fileName text output ended).2.tree).1,
          (pipeline.tested scratch fileName text output ended).2.tools⟩

theorem smokeTest_eq (scratch : Scratch) (executable : Option String) (verdict : Verdict)
    (shop : Workshop σ) :
    pipeline.smokeTest scratch executable verdict shop =
      match pipeline.options.smokeTimeout, executable, verdict.status with
      | some timeout, some path, .succeeded =>
          let launched := pipeline.launcher.launch [path] (some scratch.path) timeout shop.tree
          ({ verdict with smokeTest := some (smokeTestOf launched.1) }, ⟨launched.2, shop.tools⟩)
      | _, _, _ => (verdict, shop) := by
  unfold smokeTest
  cases pipeline.options.smokeTimeout with
  | none => rfl
  | some timeout =>
      cases executable with
      | none => rfl
      | some path => cases verdict.status <;> rfl

theorem compileIn_eq (scratch : Scratch) (fileName text : String) (shop : Workshop σ) :
    pipeline.compileIn scratch fileName text (analyze text) shop =
      match scratch.materialize fileName text shop.tree with
      | (.error reason, filled) =>
          (actionable (analyze text) s!"variant could not be written: {reason}",
            ⟨filled, shop.tools⟩)
      | (.ok input, filled) =>
          match pipeline.toolchain input (pipeline.context scratch fileName)
            ⟨filled, shop.tools⟩ with
          | (.error error, ended) => (actionable (analyze text) error.message, ended)
          | (.ok output, ended) => pipeline.tested scratch fileName text output ended := by
  simp only [compileIn, bind, StateT.bind, get, getThe, MonadStateOf.get, StateT.get, pure]
  rcases scratch.materialize fileName text shop.tree with ⟨reason | input, filled⟩
  · rfl
  · have placed : (set (Workshop.mk filled shop.tools) : StateM (Workshop σ) PUnit) shop =
        (⟨⟩, ⟨filled, shop.tools⟩) := rfl
    simp only [bind, StateT.bind, context, placed]
    rcases pipeline.toolchain input _ ⟨filled, shop.tools⟩ with ⟨error | output, ended⟩ <;> rfl

theorem compile_eq (label fileName text : String) (shop : Workshop σ) :
    pipeline.compile label fileName text (analyze text) shop =
      match pipeline.kept? fileName text shop.tree with
      | some result => ((pipeline.classified (analyze text) result, []), shop)
      | none =>
          match Scratch.create pipeline.options.scratchParent label shop.tree with
          | .error (_, reason) =>
              ((actionable (analyze text) s!"scratch directory unavailable: {reason}", []), shop)
          | .ok (scratch, created) =>
              let (verdict, ended) := pipeline.compileIn scratch fileName text (analyze text)
                ⟨created, shop.tools⟩
              let (cleared, events) := scratch.remove ended.tree
              ((verdict, events), ⟨cleared, ended.tools⟩) := by
  simp only [compile, bind, StateT.bind, get, getThe, MonadStateOf.get, StateT.get, pure]
  cases pipeline.kept? fileName text shop.tree with
  | some => rfl
  | none => cases Scratch.create pipeline.options.scratchParent label shop.tree <;> rfl

theorem validateText_eq (label fileName text : String) (shop : Workshop σ) :
    pipeline.validateText label fileName text shop =
      if (analyze text).isValid then pipeline.compile label fileName text (analyze text) shop
      else ((.malformed (analyze text).issues, []), shop) := by
  unfold validateText
  cases (analyze text).isValid <;> rfl

/-- The validation of a text ends in one of these ways. -/
theorem judges (label fileName text : String) (shop : Workshop σ) :
    pipeline.Judges label fileName text shop (pipeline.validateText label fileName text shop).1.1
      (pipeline.validateText label fileName text shop).2 := by
  rw [validateText_eq]
  cases valid : (analyze text).isValid with
  | false => exact .malformed valid
  | true =>
      rw [if_pos rfl, compile_eq]
      cases found : pipeline.kept? fileName text shop.tree with
      | some result => exact .kept valid found
      | none =>
          cases made : Scratch.create pipeline.options.scratchParent label shop.tree with
          | error failure => exact .noScratch valid found made
          | ok created =>
              obtain ⟨scratch, created⟩ := created
              simp only [compileIn_eq]
              rcases written : scratch.materialize fileName text created with
                ⟨reason | input, filled⟩
              · exact .notWritten valid found made written
              · simp only []
                rcases done : pipeline.toolchain input (pipeline.context scratch fileName)
                  ⟨filled, shop.tools⟩ with ⟨error | output, ended⟩
                · exact .notCompiled valid found made written done
                · exact .compiled valid found made written done

/-- A run of the program that was built is noted in the verdict and changes nothing else in it. -/
theorem tested_fst (scratch : Scratch) (fileName text : String) (output : CompileOutput)
    (ended : Workshop σ) : ∃ smokeTest, (pipeline.tested scratch fileName text output ended).1 =
      { pipeline.classified (analyze text) output.kept with smokeTest } := by
  rw [tested, smokeTest_eq]
  split
  · exact ⟨_, rfl⟩
  · exact ⟨none, rfl⟩

variable {pipeline} in
theorem Judges.consistent {label fileName text : String} {shop after : Workshop σ}
    {verdict : Verdict} (h : pipeline.Judges label fileName text shop verdict after) :
    verdict.Consistent := by
  have attempted (result : CompileResult) (smokeTest : Option SmokeTest) :
      { pipeline.classified (analyze text) result with smokeTest }.Consistent :=
    iff_of_false nofun (EnvironmentRules.classify_ne_notAttempted _ _ _)
  cases h with
  | malformed => exact iff_of_true rfl rfl
  | kept => exact attempted _ none
  | compiled =>
      obtain ⟨smokeTest, same⟩ := pipeline.tested_fst _ fileName text _ _
      rw [same]
      exact attempted _ smokeTest
  | noScratch => exact iff_of_false nofun nofun
  | notWritten => exact iff_of_false nofun nofun
  | notCompiled => exact iff_of_false nofun nofun

/-- A verdict of the pipeline is consistent. -/
theorem consistent_of_validateText (label fileName text : String) (shop : Workshop σ) :
    (pipeline.validateText label fileName text shop).1.1.Consistent :=
  (pipeline.judges label fileName text shop).consistent

end Pipeline

end Graft
