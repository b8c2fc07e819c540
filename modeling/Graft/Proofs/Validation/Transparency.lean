import Graft.Proofs.Compiler.Cache
import Graft.Proofs.Validation.Pipeline
import Mathlib.Algebra.GroupWithZero.Nat

/-!
Validation with results that are kept, next to validation without. Where the toolchain and the programs
that it builds go by the name and the text of a file alone, a verdict is what `Behaviour.verdict` says,
and it makes no difference whether results are kept. `Pipeline.moves` says what one call leaves in the
cache; `Behaviour.Sound` is the invariant that it preserves, and `History` a sequence of calls.
-/

namespace Graft

open Code Compiler Hash Pipeline

/-- A call for a verdict, with what may change from call to call. -/
structure ValidationCall where
  label : String
  fileName : String
  text : String
  rules : EnvironmentRules
  smokeTimeout : Option Nat

/-- How the toolchain ends for a file and its text, and whether it built a program; and how that program
runs for at most so many milliseconds. -/
structure Behaviour where
  compiles : String → String → Except ToolchainError (ProcessOutput × Bool)
  runs : String → String → Nat → Except ToolchainError ProcessOutput

def Verdict.withRun (verdict : Verdict) (timeout : Option Nat) (built : Bool)
    (run : Nat → Except ToolchainError ProcessOutput) : Verdict :=
  match timeout, built, verdict.status with
  | some timeout, true, .succeeded => { verdict with smokeTest := some (smokeTestOf (run timeout)) }
  | _, _, _ => verdict

def Behaviour.verdict (behaviour : Behaviour) (call : ValidationCall) : Verdict :=
  let analysis := analyze call.text
  if analysis.isValid then
    match behaviour.compiles call.fileName call.text with
    | .error error => actionable analysis error.message
    | .ok (result, built) =>
        let status := call.rules.classify result.exitCode result.combined
        (verdictOf analysis status result.combined).withRun call.smokeTimeout built
          (behaviour.runs call.fileName call.text)
  else .malformed analysis.issues

/-- That every result that is kept is the one of a compilation of a file that ended. -/
def Behaviour.Sound (behaviour : Behaviour) (cache : CompileCache) (files : String → String → Prop)
    (tree : FileTree) : Prop :=
  ∀ key result, cache.get? key tree = some result → ∃ fileName text output built,
    files fileName text ∧ text ≠ "" ∧ cache.key fileName text = key ∧
      behaviour.compiles fileName text = .ok (output, built) ∧
      result = ⟨output.exitCode, output.combined⟩

def Behaviour.InRange (behaviour : Behaviour) : Prop :=
  ∀ {fileName text output built}, behaviour.compiles fileName text = .ok (output, built) →
    CompileResult.InRange ⟨output.exitCode, output.combined⟩

/-- That a count of the compilations that ended is kept in the state of a toolchain. -/
def Toolchain.CountedBy {σ : Type} (toolchain : Toolchain σ) (count : σ → Nat) : Prop :=
  ∀ input context shop, count (toolchain input context shop).2.tools =
    count shop.tools + if (toolchain input context shop).1.toOption.isSome then 1 else 0

instance : DecidableEq FileTree := fun a b =>
  decidable_of_iff (a.nodes = b.nodes ∧ a.current = b.current) (by cases a; cases b; simp)

namespace Pipeline

variable {σ : Type} (pipeline : Pipeline σ)

/-- The pipeline with the rules and the smoke test of a call. -/
def serving (call : ValidationCall) : Pipeline σ :=
  { pipeline with
    options := { pipeline.options with rules := call.rules, smokeTimeout := call.smokeTimeout } }

def uncached : Pipeline σ := { pipeline with options := { pipeline.options with cache := none } }

/-- The verdict of a call, and the workshop after it. -/
def judge (call : ValidationCall) (shop : Workshop σ) : Verdict × Workshop σ :=
  let run := (pipeline.serving call).validateText call.label call.fileName call.text shop
  (run.1.1, run.2)

/-- That a call can come to the compiler: a scratch directory can be made, and the text can be written
there unless it is empty. -/
def Compilable (call : ValidationCall) (shop : Workshop σ) : Prop :=
  ∃ scratch created,
    Scratch.create pipeline.options.scratchParent call.label shop.tree = .ok (scratch, created) ∧
      (call.text ≠ "" → ∃ input filled,
        scratch.materialize call.fileName call.text created = (.ok input, filled))

/-- That a call can come to the compiler, and that the toolchain and the program that it builds go by
the name and the text of the file alone. -/
structure Follows (behaviour : Behaviour) (call : ValidationCall) (shop : Workshop σ) : Prop where
  compilable : pipeline.Compilable call shop
  compiles {scratch : Scratch} {created filled : FileTree} {input : String}
    (made : Scratch.create pipeline.options.scratchParent call.label shop.tree =
      .ok (scratch, created))
    (written : scratch.materialize call.fileName call.text created = (.ok input, filled)) :
    (pipeline.toolchain input (pipeline.context scratch call.fileName) ⟨filled, shop.tools⟩).1 =
      (behaviour.compiles call.fileName call.text).map fun (result, built) =>
        ⟨result, if built then some (executablePath scratch call.fileName) else none⟩
  runs {scratch : Scratch} {created filled : FileTree} {input path : String}
    {output : CompileOutput} {ended : Workshop σ} {timeout : Nat}
    (made : Scratch.create pipeline.options.scratchParent call.label shop.tree =
      .ok (scratch, created))
    (written : scratch.materialize call.fileName call.text created = (.ok input, filled))
    (done : pipeline.toolchain input (pipeline.context scratch call.fileName) ⟨filled, shop.tools⟩ =
      (.ok output, ended))
    (built : output.executable = some path) (wanted : call.smokeTimeout = some timeout) :
    (pipeline.launcher.launch [path] (some scratch.path) timeout
      (pipeline.keep call.fileName call.text output.kept ended.tree)).1 =
        behaviour.runs call.fileName call.text timeout

/-- That a call that comes to the compiler can keep the result, and that nothing else that it does is
to the results that are kept. -/
structure Spares (cache : CompileCache) (place : Location) (call : ValidationCall)
    (shop : Workshop σ) : Prop where
  refused {scratch : Scratch} {created filled : FileTree} {reason : String}
    (made : Scratch.create pipeline.options.scratchParent call.label shop.tree =
      .ok (scratch, created))
    (refused : scratch.materialize call.fileName call.text created = (.error reason, filled)) :
    cache.Spared place shop.tree (scratch.remove filled).1
  failed {scratch : Scratch} {created filled : FileTree} {input : String} {error : ToolchainError}
    {ended : Workshop σ}
    (made : Scratch.create pipeline.options.scratchParent call.label shop.tree =
      .ok (scratch, created))
    (written : scratch.materialize call.fileName call.text created = (.ok input, filled))
    (failed : pipeline.toolchain input (pipeline.context scratch call.fileName)
      ⟨filled, shop.tools⟩ = (.error error, ended)) :
    cache.Spared place shop.tree (scratch.remove ended.tree).1
  compiled {scratch : Scratch} {created filled : FileTree} {input : String} {output : CompileOutput}
    {ended : Workshop σ}
    (made : Scratch.create pipeline.options.scratchParent call.label shop.tree =
      .ok (scratch, created))
    (written : scratch.materialize call.fileName call.text created = (.ok input, filled))
    (done : pipeline.toolchain input (pipeline.context scratch call.fileName) ⟨filled, shop.tools⟩ =
      (.ok output, ended)) :
    cache.Spared place shop.tree ended.tree ∧
      cache.Keeps place (cache.key call.fileName call.text) output.kept ended.tree ∧
      cache.Spared place (pipeline.keep call.fileName call.text output.kept ended.tree)
        (scratch.remove ((pipeline.serving call).tested scratch call.fileName call.text output
          ended).2.tree).1

/-- A sequence of calls, each with the workshop before it. Between two calls anything may happen that
spares the results that are kept. -/
inductive History (behaviour : Behaviour) (cache : CompileCache) (place : Location) :
    FileTree → List (ValidationCall × Workshop σ) → Prop
  | nil (tree : FileTree) : History behaviour cache place tree []
  | cons {tree : FileTree} {call : ValidationCall} {shop : Workshop σ}
      {rest : List (ValidationCall × Workshop σ)} (linked : cache.Spared place tree shop.tree)
      (regular : (analyze call.text).isValid = true →
        (pipeline.serving call).kept? call.fileName call.text shop.tree = none →
        pipeline.Follows behaviour call shop ∧ pipeline.Spares cache place call shop)
      (goesOn : History behaviour cache place (pipeline.judge call shop).2.tree rest) :
      History behaviour cache place tree ((call, shop) :: rest)

variable {pipeline} {behaviour : Behaviour} {cache : CompileCache} {place : Location}
  {call : ValidationCall} {shop : Workshop σ}

/-- An empty text is never written for a compiler. -/
theorem materialize_empty (scratch : Scratch) (fileName : String) (tree : FileTree) :
    ∃ reason filled, scratch.materialize fileName "" tree = (.error reason, filled) := by
  unfold Scratch.materialize
  dsimp only
  cases tree.writeText (Path.join scratch.path fileName) "" with
  | error error => exact ⟨_, _, rfl⟩
  | ok written => exact ⟨_, _, rfl⟩

/-- A result stands for a compilation when there is one, and no program is missed with it. -/
theorem kept?_eq_some_iff (caches : pipeline.options.cache = some cache) {fileName text : String}
    {tree : FileTree} {result : CompileResult} :
    pipeline.kept? fileName text tree = some result ↔
      cache.get? (cache.key fileName text) tree = some result ∧
        (result.exitCode ≠ 0 ∨ pipeline.options.smokeTimeout = none) := by
  simp only [kept?, caches, Option.bind_eq_bind, Option.bind_some, Option.bind_eq_some_iff]
  constructor
  · rintro ⟨found, there, taken⟩
    split at taken
    · next fits =>
        obtain rfl := Option.some.inj taken
        exact ⟨there, by simpa using fits⟩
    · cases taken
  · rintro ⟨there, fits⟩
    exact ⟨result, there, if_pos (by simpa using fits)⟩

theorem kept?_serving_iff (caches : pipeline.options.cache = some cache) {fileName text : String}
    {tree : FileTree} {result : CompileResult} :
    (pipeline.serving call).kept? fileName text tree = some result ↔
      cache.get? (cache.key fileName text) tree = some result ∧
        (result.exitCode ≠ 0 ∨ call.smokeTimeout = none) := by
  have own : (pipeline.serving call).options.cache = some cache := caches
  exact kept?_eq_some_iff own

theorem smokeTest_fst (shop : Workshop σ) {scratch : Scratch} {executable : Option String}
    {verdict : Verdict}
    {run : Nat → Except ToolchainError ProcessOutput}
    (launched : ∀ timeout path, pipeline.options.smokeTimeout = some timeout →
      executable = some path →
      (pipeline.launcher.launch [path] (some scratch.path) timeout shop.tree).1 = run timeout) :
    (pipeline.smokeTest scratch executable verdict shop).1 =
      verdict.withRun pipeline.options.smokeTimeout executable.isSome run := by
  rw [smokeTest_eq]
  cases wanted : pipeline.options.smokeTimeout with
  | none => rfl
  | some timeout =>
      cases executable with
      | none => rfl
      | some path =>
          simp only [Verdict.withRun, Option.isSome_some]
          cases verdict.status <;> simp only [launched timeout path wanted rfl]

namespace Follows

variable {scratch : Scratch} {input : String} {created filled : FileTree} {output : CompileOutput}
  {ended : Workshop σ}

theorem of_done (h : pipeline.Follows behaviour call shop)
    (made : Scratch.create pipeline.options.scratchParent call.label shop.tree =
      .ok (scratch, created))
    (written : scratch.materialize call.fileName call.text created = (.ok input, filled))
    (done : pipeline.toolchain input (pipeline.context scratch call.fileName) ⟨filled, shop.tools⟩ =
      (.ok output, ended)) :
    ∃ built, behaviour.compiles call.fileName call.text = .ok (output.result, built) ∧
      output.executable = if built then some (executablePath scratch call.fileName) else none := by
  have answer := h.compiles made written
  rw [done] at answer
  cases compiled : behaviour.compiles call.fileName call.text with
  | error error => simp [compiled, Except.map] at answer
  | ok outcome =>
      obtain ⟨result, built⟩ := outcome
      simp only [compiled, Except.map, Except.ok.injEq] at answer
      exact ⟨built, by rw [answer], by rw [answer]⟩

theorem of_failed (h : pipeline.Follows behaviour call shop) {error : ToolchainError}
    (made : Scratch.create pipeline.options.scratchParent call.label shop.tree =
      .ok (scratch, created))
    (written : scratch.materialize call.fileName call.text created = (.ok input, filled))
    (failed : pipeline.toolchain input (pipeline.context scratch call.fileName)
      ⟨filled, shop.tools⟩ = (.error error, ended)) :
    behaviour.compiles call.fileName call.text = .error error := by
  have answer := h.compiles made written
  rw [failed] at answer
  cases compiled : behaviour.compiles call.fileName call.text with
  | error other =>
      simp only [compiled, Except.map, Except.error.injEq] at answer
      rw [answer]
  | ok outcome => simp [compiled, Except.map] at answer

/-- A compilation that ended gives the verdict. -/
theorem tested (h : pipeline.Follows behaviour call shop) (valid : (analyze call.text).isValid = true)
    (made : Scratch.create pipeline.options.scratchParent call.label shop.tree =
      .ok (scratch, created))
    (written : scratch.materialize call.fileName call.text created = (.ok input, filled))
    (done : pipeline.toolchain input (pipeline.context scratch call.fileName) ⟨filled, shop.tools⟩ =
      (.ok output, ended)) :
    ((pipeline.serving call).tested scratch call.fileName call.text output ended).1 =
      behaviour.verdict call := by
  obtain ⟨built, compiled, executable⟩ := h.of_done made written done
  have isBuilt : output.executable.isSome = built := by
    rw [executable]
    cases built <;> rfl
  let kept := (pipeline.serving call).keep call.fileName call.text output.kept ended.tree
  have run (timeout : Nat) (path : String)
      (wanted : (pipeline.serving call).options.smokeTimeout = some timeout)
      (there : output.executable = some path) :
      ((pipeline.serving call).launcher.launch [path] (some scratch.path) timeout kept).1 =
        behaviour.runs call.fileName call.text timeout :=
    h.runs made written done there wanted
  rw [Pipeline.tested, smokeTest_fst ⟨kept, ended.tools⟩ run, isBuilt]
  simp only [Behaviour.verdict, valid, compiled, if_true]
  rfl

end Follows

/-! Verdicts -/

theorem judge_judges (call : ValidationCall) (shop : Workshop σ) :
    (pipeline.serving call).Judges call.label call.fileName call.text shop
      (pipeline.judge call shop).1 (pipeline.judge call shop).2 :=
  (pipeline.serving call).judges call.label call.fileName call.text shop

/-- A call that finds no result gives the verdict. -/
theorem verdict_of_missed (filled : call.text ≠ "")
    (follows : (analyze call.text).isValid = true → pipeline.Follows behaviour call shop)
    (missed : (pipeline.serving call).kept? call.fileName call.text shop.tree = none) :
    (pipeline.judge call shop).1 = behaviour.verdict call := by
  have course := pipeline.judge_judges call shop
  generalize pipeline.judge call shop = after at course
  obtain ⟨verdict, after⟩ := after
  cases course with
  | malformed invalid =>
      have verdict : behaviour.verdict call = .malformed (analyze call.text).issues := by
        simp [Behaviour.verdict, invalid]
      exact verdict.symm
  | kept valid found => cases missed.symm.trans found
  | noScratch valid missed failed =>
      obtain ⟨scratch, created, made, -⟩ := (follows valid).compilable
      cases made.symm.trans failed
  | notWritten valid missed made refused =>
      obtain ⟨scratch, created, made', writes⟩ := (follows valid).compilable
      cases made'.symm.trans made
      obtain ⟨input, filled, written⟩ := writes filled
      cases written.symm.trans refused
  | @notCompiled scratch created filled input error ended valid missed made written failed =>
      have verdict : behaviour.verdict call = actionable (analyze call.text) error.message := by
        simp [Behaviour.verdict, valid, (follows valid).of_failed made written failed]
      exact verdict.symm
  | compiled valid missed made written done =>
      exact (follows valid).tested valid made written done

/-- A result that was kept for a call gives the verdict, whatever the rules of the call. -/
theorem verdict_of_kept {result : CompileResult} {output : ProcessOutput} {built : Bool}
    (compiled : behaviour.compiles call.fileName call.text = .ok (output, built))
    (same : result = ⟨output.exitCode, output.combined⟩)
    (stands : result.exitCode ≠ 0 ∨ call.smokeTimeout = none)
    (valid : (analyze call.text).isValid = true) :
    (pipeline.serving call).classified (analyze call.text) result = behaviour.verdict call := by
  subst same
  simp only [Behaviour.verdict, valid, compiled, if_true, Verdict.withRun]
  rcases stands with failed | off
  · split
    · next succeeded =>
        exact absurd ((EnvironmentRules.classify_eq_succeeded_iff _ _ _).1 succeeded) failed
    · rfl
  · rw [off]
    rfl

/-- The verdict on an empty text does not depend on the results that are kept. -/
theorem verdict_of_empty (empty : call.text = "")
    (missed : (pipeline.serving call).kept? call.fileName call.text shop.tree = none) :
    (pipeline.judge call shop).1 = (pipeline.uncached.judge call shop).1 := by
  have none : (pipeline.uncached.serving call).kept? call.fileName call.text shop.tree = none := rfl
  have same : (pipeline.uncached.serving call).options.scratchParent =
      (pipeline.serving call).options.scratchParent := rfl
  simp only [judge, validateText_eq]
  split
  · simp only [compile_eq, missed, none, same]
    cases Scratch.create (pipeline.serving call).options.scratchParent call.label shop.tree with
    | error failure => rfl
    | ok created =>
        obtain ⟨scratch, created⟩ := created
        obtain ⟨reason, filled, refused⟩ := materialize_empty scratch call.fileName created
        simp only [compileIn_eq, empty, refused]
  · rfl

/-! What a call leaves -/

theorem tested_tools (scratch : Scratch) (fileName text : String) (output : CompileOutput)
    (ended : Workshop σ) :
    (pipeline.tested scratch fileName text output ended).2.tools = ended.tools := by
  rw [tested, smokeTest_eq]
  split <;> rfl

/-- What a call leaves: the results that were there, or with them the one of its own compilation. -/
inductive Moves (pipeline : Pipeline σ) (behaviour : Behaviour) (cache : CompileCache)
    (place : Location) (call : ValidationCall) (shop after : Workshop σ) : Prop
  | rested (tools : after.tools = shop.tools) (at_ : cache.At place after.tree)
      (kept : ∀ key, cache.get? key after.tree = cache.get? key shop.tree)
  | failed {input : String} {context : BuildContext} {filled : FileTree} {error : ToolchainError}
      {ended : Workshop σ}
      (called : pipeline.toolchain input context ⟨filled, shop.tools⟩ = (.error error, ended))
      (tools : after.tools = ended.tools) (at_ : cache.At place after.tree)
      (kept : ∀ key, cache.get? key after.tree = cache.get? key shop.tree)
  | finished {input : String} {context : BuildContext} {filled : FileTree} {output : CompileOutput}
      {built : Bool} {ended : Workshop σ}
      (called : pipeline.toolchain input context ⟨filled, shop.tools⟩ = (.ok output, ended))
      (tools : after.tools = ended.tools) (at_ : cache.At place after.tree)
      (written : call.text ≠ "")
      (compiled : behaviour.compiles call.fileName call.text = .ok (output.result, built))
      (found : cache.get? (cache.key call.fileName call.text) after.tree = some output.kept)
      (kept : ∀ key ≠ cache.key call.fileName call.text,
        cache.get? key after.tree = cache.get? key shop.tree)

theorem moves (caches : pipeline.options.cache = some cache) (inRange : behaviour.InRange)
    (at_ : cache.At place shop.tree)
    (regular : (analyze call.text).isValid = true →
      (pipeline.serving call).kept? call.fileName call.text shop.tree = none →
      pipeline.Follows behaviour call shop ∧ pipeline.Spares cache place call shop) :
    pipeline.Moves behaviour cache place call shop (pipeline.judge call shop).2 := by
  have course := pipeline.judge_judges call shop
  generalize pipeline.judge call shop = after at course
  obtain ⟨verdict, after⟩ := after
  cases course with
  | malformed => exact .rested rfl at_ fun _ => rfl
  | kept => exact .rested rfl at_ fun _ => rfl
  | noScratch valid missed failed => exact .rested rfl at_ fun _ => rfl
  | notWritten valid missed made refused =>
      obtain ⟨at_, kept⟩ := (regular valid missed).2.refused made refused at_
      exact .rested rfl at_ kept
  | notCompiled valid missed made written failed =>
      obtain ⟨at_, kept⟩ := (regular valid missed).2.failed made written failed at_
      exact .failed failed rfl at_ kept
  | @compiled scratch created filled input output ended valid missed made written done =>
      obtain ⟨follows, spares⟩ := regular valid missed
      obtain ⟨built, compiled, -⟩ := follows.of_done made written done
      obtain ⟨before, keeps, cleared⟩ := spares.compiled made written done
      have fits : output.kept.InRange := inRange compiled
      obtain ⟨at_, same⟩ := before at_
      obtain ⟨at_, found, others⟩ := at_.put fits keeps
      have kept : pipeline.keep call.fileName call.text output.kept ended.tree =
          cache.put (cache.key call.fileName call.text) output.kept ended.tree := by
        simp only [keep, caches]
      rw [kept] at cleared
      obtain ⟨at_, after⟩ := cleared at_
      refine .finished done (tested_tools ..) at_ ?_ compiled ?_ ?_
      · rintro empty
        obtain ⟨reason, _, refused⟩ := materialize_empty scratch call.fileName created
        rw [empty, refused] at written
        cases written
      · exact (after _).trans found
      · intro key differs
        rw [after, ← same]
        exact others key differs

namespace Moves

variable {after : Workshop σ} {files : String → String → Prop}

theorem at_ (h : pipeline.Moves behaviour cache place call shop after) : cache.At place after.tree := by
  cases h with
  | rested _ at_ | failed _ _ at_ | finished _ _ at_ => exact at_

/-- What is kept stays the results of compilations that ended. -/
theorem sound (h : pipeline.Moves behaviour cache place call shop after)
    (covers : files call.fileName call.text) (sound : behaviour.Sound cache files shop.tree) :
    behaviour.Sound cache files after.tree := by
  cases h with
  | rested _ _ kept | failed _ _ _ kept =>
      intro key result found
      exact sound key result ((kept key).symm.trans found)
  | @finished _ _ _ output built _ _ _ _ written compiled there kept =>
      intro key result found
      by_cases own : key = cache.key call.fileName call.text
      · subst own
        obtain rfl := Option.some.inj (there.symm.trans found)
        exact ⟨_, _, _, _, covers, written, rfl, compiled, rfl⟩
      · exact sound key result ((kept key own).symm.trans found)

/-- A result that was kept stays. -/
theorem isSome (h : pipeline.Moves behaviour cache place call shop after) {key : Digest}
    (there : (cache.get? key shop.tree).isSome) : (cache.get? key after.tree).isSome := by
  cases h with
  | rested _ _ kept | failed _ _ _ kept =>
      rw [kept]
      exact there
  | finished _ _ _ _ _ found kept =>
      by_cases own : key = cache.key call.fileName call.text
      · rw [own, found]
        rfl
      · rw [kept key own]
        exact there

/-- A call counts for nothing, or for one compilation whose result is kept. -/
theorem count (h : pipeline.Moves behaviour cache place call shop after) {count : σ → Nat}
    (counted : pipeline.toolchain.CountedBy count) :
    count after.tools = count shop.tools ∨ count after.tools = count shop.tools + 1 ∧
      (cache.get? (cache.key call.fileName call.text) after.tree).isSome := by
  cases h with
  | rested tools => exact .inl (by rw [tools])
  | @failed input context filled error ended called tools =>
      have step := counted input context ⟨filled, shop.tools⟩
      rw [called] at step
      exact .inl (by rw [tools]; exact step)
  | @finished input context filled output built ended called tools _ _ _ found _ =>
      have step := counted input context ⟨filled, shop.tools⟩
      rw [called] at step
      refine .inr ⟨by rw [tools]; exact step, ?_⟩
      rw [found]
      rfl

end Moves

/-- A call whose result was kept leaves the workshop alone, unless a program is to be run. -/
theorem judge_of_isSome (caches : pipeline.options.cache = some cache) (off : call.smokeTimeout = none)
    (there : (cache.get? (cache.key call.fileName call.text) shop.tree).isSome) :
    (pipeline.judge call shop).2 = shop := by
  obtain ⟨result, there⟩ := Option.isSome_iff_exists.1 there
  have found := (kept?_serving_iff caches).2 ⟨there, .inr off⟩
  have course := pipeline.judge_judges call shop
  generalize pipeline.judge call shop = after at course
  obtain ⟨verdict, after⟩ := after
  cases course with
  | malformed => rfl
  | kept => rfl
  | noScratch _ missed | notWritten _ missed | notCompiled _ missed | compiled _ missed =>
      cases missed.symm.trans found

/-- A result that is kept for a file is the one of its compilation. -/
theorem of_found {files : String → String → Prop}
    (identifies : ∀ {fileName text name content}, files fileName text → files name content →
      cache.key fileName text = cache.key name content → fileName = name ∧ text = content)
    {tree : FileTree} (sound : behaviour.Sound cache files tree) {fileName text : String}
    (within : files fileName text) {result : CompileResult}
    (found : cache.get? (cache.key fileName text) tree = some result) :
    text ≠ "" ∧ ∃ output built, behaviour.compiles fileName text = .ok (output, built) ∧
      result = ⟨output.exitCode, output.combined⟩ := by
  obtain ⟨name, content, output, built, other, filled, key, compiled, same⟩ := sound _ _ found
  obtain ⟨rfl, rfl⟩ := identifies other within key
  exact ⟨filled, output, built, compiled, same⟩

/-- Where every result that is kept is sound, a call gives the verdict. -/
theorem verdict_of_sound (caches : pipeline.options.cache = some cache) {files : String → String → Prop}
    (identifies : ∀ {fileName text name content}, files fileName text → files name content →
      cache.key fileName text = cache.key name content → fileName = name ∧ text = content)
    (covers : files call.fileName call.text) (sound : behaviour.Sound cache files shop.tree)
    (filled : call.text ≠ "")
    (follows : (analyze call.text).isValid = true →
      (pipeline.serving call).kept? call.fileName call.text shop.tree = none →
      pipeline.Follows behaviour call shop) :
    (pipeline.judge call shop).1 = behaviour.verdict call := by
  cases found : (pipeline.serving call).kept? call.fileName call.text shop.tree with
  | none => exact verdict_of_missed filled (fun valid => follows valid found) found
  | some result =>
      obtain ⟨there, stands⟩ := (kept?_serving_iff caches).1 found
      obtain ⟨-, output, built, compiled, same⟩ := of_found identifies sound covers there
      have course := pipeline.judge_judges call shop
      generalize pipeline.judge call shop = after at course
      obtain ⟨verdict, after⟩ := after
      cases course with
      | malformed invalid =>
          have verdict : behaviour.verdict call = .malformed (analyze call.text).issues := by
            simp [Behaviour.verdict, invalid]
          exact verdict.symm
      | kept valid again =>
          obtain rfl := Option.some.inj (found.symm.trans again)
          exact verdict_of_kept compiled same stands valid
      | noScratch _ missed | notWritten _ missed | notCompiled _ missed | compiled _ missed =>
          cases missed.symm.trans found

/-! Sequences of calls -/

namespace History

variable {files : String → String → Prop} {tree : FileTree}
  {steps : List (ValidationCall × Workshop σ)}

/-- Before and after each call of a sequence every result that is kept is sound. -/
theorem sound (h : pipeline.History behaviour cache place tree steps)
    (caches : pipeline.options.cache = some cache) (inRange : behaviour.InRange)
    (at_ : cache.At place tree) (sound : behaviour.Sound cache files tree)
    (covers : ∀ step ∈ steps, files step.1.fileName step.1.text) :
    ∀ step ∈ steps, behaviour.Sound cache files step.2.tree ∧
      behaviour.Sound cache files (pipeline.judge step.1 step.2).2.tree ∧
      ((analyze step.1.text).isValid = true →
        (pipeline.serving step.1).kept? step.1.fileName step.1.text step.2.tree = none →
        pipeline.Follows behaviour step.1 step.2) := by
  induction h with
  | nil => exact nofun
  | @cons tree call shop rest linked regular _ ih =>
      obtain ⟨own, others⟩ := List.forall_mem_cons.1 covers
      obtain ⟨at_, same⟩ := linked at_
      have before : behaviour.Sound cache files shop.tree := fun key result found =>
        sound key result ((same key).symm.trans found)
      have moves := moves caches inRange at_ regular
      have after := moves.sound own before
      exact List.forall_mem_cons.2 ⟨⟨before, after, fun valid missed => (regular valid missed).1⟩,
        ih moves.at_ after others⟩

/-- How many compilations of a file ended in the calls of a sequence, by a count in the state of the
toolchain. -/
def compilations (pipeline : Pipeline σ) (count : σ → Nat) (fileName text : String)
    (steps : List (ValidationCall × Workshop σ)) : Nat :=
  (steps.map fun (call, shop) =>
    if call.fileName = fileName ∧ call.text = text then
      count (pipeline.judge call shop).2.tools - count shop.tools
    else 0).sum

/-- Where no programs are to be run, at most one compilation of a file ends, and none when its result
was kept before. -/
theorem compilations_le (h : pipeline.History behaviour cache place tree steps)
    (caches : pipeline.options.cache = some cache) (inRange : behaviour.InRange)
    (at_ : cache.At place tree) {count : σ → Nat} (counted : pipeline.toolchain.CountedBy count)
    (off : ∀ step ∈ steps, step.1.smokeTimeout = none) (fileName text : String) :
    compilations pipeline count fileName text steps ≤ 1 ∧
      ((cache.get? (cache.key fileName text) tree).isSome →
        compilations pipeline count fileName text steps = 0) := by
  induction h with
  | nil => exact ⟨Nat.zero_le 1, fun _ => rfl⟩
  | @cons tree call shop rest linked regular _ ih =>
      obtain ⟨own, others⟩ := List.forall_mem_cons.1 off
      obtain ⟨at_, same⟩ := linked at_
      have moves := moves caches inRange at_ regular
      obtain ⟨few, none⟩ := ih moves.at_ others
      have stays : (cache.get? (cache.key fileName text) tree).isSome →
          (cache.get? (cache.key fileName text) (pipeline.judge call shop).2.tree).isSome := by
        intro there
        rw [← same] at there
        exact moves.isSome there
      have whole : compilations pipeline count fileName text ((call, shop) :: rest) =
          (if call.fileName = fileName ∧ call.text = text then
            count (pipeline.judge call shop).2.tools - count shop.tools else 0) +
          compilations pipeline count fileName text rest := rfl
      rw [whole]
      split
      · next file =>
          obtain ⟨rfl, rfl⟩ := file
          constructor
          · rcases moves.count counted with rests | ⟨ends, found⟩
            · omega
            · have rest := none found
              omega
          · intro there
            have rests := none (stays there)
            rw [← same] at there
            rw [judge_of_isSome caches own there]
            omega
      · rw [Nat.zero_add]
        exact ⟨few, fun there => none (stays there)⟩

end History

/-- Keeping results makes no difference. In a sequence of calls that share a cache, whatever their rules
and whether programs are to be run, every verdict is the one that the pipeline without a cache gives in
the same workshop, and unless the text is empty, in any other one. Whatever call has been made, nothing
is found for a file whose compilation does not end. Where no programs are to be run, the toolchain ends
at most once for a file. -/
theorem verdicts_of_cached {files : String → String → Prop} {tree : FileTree}
    {steps : List (ValidationCall × Workshop σ)} (caches : pipeline.options.cache = some cache)
    (inRange : behaviour.InRange)
    (named : ∀ {fileName text}, files fileName text → '\x00' ∉ fileName.toList)
    (apart : ∀ {fileName text name content}, files fileName text → files name content →
      cache.key fileName text = cache.key name content →
      Digest.separated [cache.fingerprint, fileName, text] =
        Digest.separated [cache.fingerprint, name, content])
    (at_ : cache.At place tree) (sound : behaviour.Sound cache files tree)
    (history : pipeline.History behaviour cache place tree steps)
    (covers : ∀ step ∈ steps, files step.1.fileName step.1.text) :
    (∀ step ∈ steps, ∀ shop, shop = step.2 ∨ step.1.text ≠ "" →
      ((analyze step.1.text).isValid = true → pipeline.uncached.Follows behaviour step.1 shop) →
      (pipeline.judge step.1 step.2).1 = (pipeline.uncached.judge step.1 shop).1) ∧
    (∀ step ∈ steps, ∀ fileName text error, files fileName text →
      behaviour.compiles fileName text = .error error →
      cache.get? (cache.key fileName text) (pipeline.judge step.1 step.2).2.tree = none) ∧
    (∀ count, pipeline.toolchain.CountedBy count → (∀ step ∈ steps, step.1.smokeTimeout = none) →
      ∀ fileName text, History.compilations pipeline count fileName text steps ≤ 1) := by
  have identifies {fileName text name content : String} (first : files fileName text)
      (second : files name content) (same : cache.key fileName text = cache.key name content) :
      fileName = name ∧ text = content :=
    CompileCache.key_inj (named first) (named second) (apart first second) same
  have always := history.sound caches inRange at_ sound covers
  refine ⟨fun step mem other comparable plain => ?_, fun step mem fileName text error within fails => ?_,
    fun count counted off fileName text =>
      (history.compilations_le caches inRange at_ counted off fileName text).1⟩
  · obtain ⟨call, shop⟩ := step
    obtain ⟨before, -, follows⟩ := always _ mem
    have missed : (pipeline.uncached.serving call).kept? call.fileName call.text other.tree = none :=
      rfl
    by_cases filled : call.text = ""
    · obtain rfl := comparable.resolve_right fun other => other filled
      apply verdict_of_empty filled
      cases found : (pipeline.serving call).kept? call.fileName call.text other.tree with
      | none => rfl
      | some result =>
          have there := (kept?_serving_iff caches).1 found
          exact absurd filled (of_found identifies before (covers _ mem) there.1).1
    · have verdict := verdict_of_sound caches identifies (covers _ mem) before filled follows
      exact verdict.trans (verdict_of_missed filled plain missed).symm
  · obtain ⟨-, after, -⟩ := always _ mem
    cases found : cache.get? (cache.key fileName text) (pipeline.judge step.1 step.2).2.tree with
    | none => rfl
    | some result =>
        obtain ⟨-, output, built, compiled, -⟩ := of_found identifies after within found
        cases fails.symm.trans compiled

section Compiled

variable {scratch : Scratch} {created filled : FileTree} {input : String} {output : CompileOutput}
  {ended : Workshop σ}
  (made : Scratch.create pipeline.options.scratchParent call.label shop.tree =
    .ok (scratch, created))
  (written : scratch.materialize call.fileName call.text created = (.ok input, filled))
  (done : pipeline.toolchain input (pipeline.context scratch call.fileName) ⟨filled, shop.tools⟩ =
    (.ok output, ended))

include made written done

theorem Follows.of_compiled {built : Bool}
    (compiled : behaviour.compiles call.fileName call.text = .ok (output.result, built))
    (executable :
      output.executable = if built then some (executablePath scratch call.fileName) else none)
    (runs : ∀ timeout path, call.smokeTimeout = some timeout → output.executable = some path →
      (pipeline.launcher.launch [path] (some scratch.path) timeout
        (pipeline.keep call.fileName call.text output.kept ended.tree)).1 =
          behaviour.runs call.fileName call.text timeout) :
    pipeline.Follows behaviour call shop where
  compilable := ⟨scratch, created, made, fun _ => ⟨input, filled, written⟩⟩
  compiles made' written' := by
    cases made.symm.trans made'
    cases written.symm.trans written'
    simp only [done, compiled, Except.map, ← executable]
  runs made' written' done' there wanted := by
    cases made.symm.trans made'
    cases written.symm.trans written'
    cases done.symm.trans done'
    exact runs _ _ wanted there

theorem Spares.of_compiled (before : cache.Spared place shop.tree ended.tree)
    (keeps : cache.Keeps place (cache.key call.fileName call.text) output.kept ended.tree)
    (cleared : cache.Spared place (pipeline.keep call.fileName call.text output.kept ended.tree)
      (scratch.remove ((pipeline.serving call).tested scratch call.fileName call.text output
        ended).2.tree).1) :
    pipeline.Spares cache place call shop where
  refused made' refused := by
    cases made.symm.trans made'
    cases written.symm.trans refused
  failed made' written' failed := by
    cases made.symm.trans made'
    cases written.symm.trans written'
    cases done.symm.trans failed
  compiled made' written' done' := by
    cases made.symm.trans made'
    cases written.symm.trans written'
    cases done.symm.trans done'
    exact ⟨before, keeps, cleared⟩

end Compiled

end Pipeline

/-! A toolchain that builds whatever it is given -/

namespace Pipeline.Sample

def cache : CompileCache := ⟨"/cache", "\x7b\x7d"⟩

def builder : Pipeline Nat where
  options := ⟨⟨[], []⟩, [], none, none, none, some cache⟩
  toolchain _ context := fun shop =>
    (.ok ⟨⟨0, "", "built"⟩, some context.output⟩, ⟨shop.tree, shop.tools + 1⟩)
  launcher _ tree _ := .ok ⟨tree, Text.encode "ok", [], .exited 0, 1⟩

def behaviour : Behaviour :=
  ⟨fun _ _ => .ok (⟨0, "", "built"⟩, true), fun _ _ _ => .ok ⟨0, "ok", ""⟩⟩

def text : String := "int f(void) { return 1; }\n"

def request (header : String) (timeout : Option Nat) : ValidationCall :=
  ⟨"u", "u.c", text, ⟨[], [header]⟩, timeout⟩

def start : FileTree :=
  ⟨[(["tmp"], .directory), (["cache"], .directory),
    (["cache", "notes"], .file (Text.encode "?") false)], []⟩

def scratch : Scratch := ⟨"/tmp/splice-u-000000"⟩

def created (tree : FileTree) : FileTree := tree.set ["tmp", "splice-u-000000"] .directory

def filled (tree : FileTree) : FileTree :=
  (created tree).set ["tmp", "splice-u-000000", "u.c"] (.file (Text.encode text) false)

def output : CompileOutput := ⟨⟨0, "", "built"⟩, some "/tmp/splice-u-000000/u.out"⟩

def entry : String := "1817696e3b145d176141daf4bbcc79253cc796c68f897c884b76cc3ccaf96a13.json"

def entered (tree : FileTree) : FileTree :=
  tree.set ["cache", entry] (.file (Text.encode output.kept.toJson.compact) false)

def removed (tree : FileTree) : FileTree := (scratch.remove (entered (filled tree))).1

def trees : List FileTree := [start, entered start]

/-- The steps of a compilation, from the tree before it. -/
theorem steps : (analyze text).isValid = true ∧
    CompileCache.entryName (cache.key "u.c" text) = entry ∧
    executablePath scratch "u.c" = "/tmp/splice-u-000000/u.out" ∧ removed start = entered start ∧
    ∀ tree ∈ trees,
      Scratch.create none "u" tree = .ok (scratch, created tree) ∧
      scratch.materialize "u.c" text (created tree) =
        (.ok "/tmp/splice-u-000000/u.c", filled tree) ∧
      (∀ before ∈ [filled tree, entered (filled tree)],
        builder.launcher.launch ["/tmp/splice-u-000000/u.out"] (some scratch.path) 1000 before =
          (.ok ⟨0, "ok", ""⟩, before)) ∧
      (filled tree).planDirectory cache.directory = .ok (["cache"], []) ∧
      (filled tree).carryOut ((filled tree).draft ["cache"])
        (FileTree.replaceSteps ((filled tree).draft ["cache"]) ["cache", entry]
          (Text.encode output.kept.toJson.compact)) = (entered (filled tree), none) ∧
      (filled tree).nodes.filter (·.1.dropLast = ["cache"]) =
        tree.nodes.filter (·.1.dropLast = ["cache"]) ∧
      (removed tree).nodes.filter (·.1.dropLast = ["cache"]) =
        (entered (filled tree)).nodes.filter (·.1.dropLast = ["cache"]) := by
  decide +kernel

theorem entryName_key : CompileCache.entryName (cache.key "u.c" text) = entry := steps.2.1

theorem path : executablePath scratch "u.c" = "/tmp/splice-u-000000/u.out" := steps.2.2.1

theorem executable :
    output.executable = if true then some (executablePath scratch "u.c") else none :=
  congrArg some path.symm

section Steps

variable {tree : FileTree} (mem : tree ∈ trees)

include mem

theorem made : Scratch.create none "u" tree = .ok (scratch, created tree) :=
  (steps.2.2.2.2 tree mem).1

theorem written : scratch.materialize "u.c" text (created tree) =
    (.ok "/tmp/splice-u-000000/u.c", filled tree) :=
  (steps.2.2.2.2 tree mem).2.1

theorem launched {before : FileTree} (reached : before ∈ [filled tree, entered (filled tree)])
    {timeout : Option Nat} (brief : timeout ∈ [none, some 1000]) {limit : Nat} {path : String}
    (wanted : timeout = some limit) (built : output.executable = some path) :
    builder.launcher.launch [path] (some scratch.path) limit before =
      (.ok ⟨0, "ok", ""⟩, before) := by
  obtain rfl : limit = 1000 := by simpa [wanted] using brief
  obtain rfl := Option.some.inj built
  exact (steps.2.2.2.2 tree mem).2.2.1 before reached

theorem keeps : cache.Keeps ["cache"] (cache.key "u.c" text) output.kept (filled tree) ∧
    builder.keep "u.c" text output.kept (filled tree) = entered (filled tree) := by
  obtain ⟨-, -, -, planned, carried, -⟩ := steps.2.2.2.2 tree mem
  apply CompileCache.Keeps.of_done planned
  rw [entryName_key]
  exact carried

end Steps

theorem done (tree : FileTree) (count : Nat) :
    builder.toolchain "/tmp/splice-u-000000/u.c" (builder.context scratch "u.c") ⟨tree, count⟩ =
      (.ok output, ⟨tree, count + 1⟩) := by
  simp only [builder, context, path]
  rfl

theorem stands : ∀ tree ∈ trees ++ trees.map filled ++ trees.map removed,
    cache.At ["cache"] tree := by
  have whole : ∀ tree ∈ trees ++ trees.map filled ++ trees.map removed,
      tree.node? tree.current = some .directory ∧
      (∀ entry ∈ tree.nodes, tree.node? entry.1.dropLast = some .directory) ∧
      (tree.nodes.map (·.1)).Nodup ∧
      tree.follow (tree.start "/cache") (FileTree.names "/cache") = .ok ["cache"] ∧
      tree.node? ["cache"] = some .directory := by
    decide +kernel
  intro tree mem
  obtain ⟨current, parents, unique, followed, there⟩ := whole tree mem
  exact .of_nodes current parents unique (by decide) followed there

theorem spared {tree : FileTree} (mem : tree ∈ trees) : cache.Spared ["cache"] tree (filled tree) ∧
    cache.Spared ["cache"] (entered (filled tree)) (removed tree) := by
  obtain ⟨-, -, -, -, -, before, after⟩ := steps.2.2.2.2 tree mem
  have within : filled tree ∈ trees ++ trees.map filled :=
    List.mem_append_right _ (List.mem_map_of_mem mem)
  exact ⟨.of_nodes (stands _ (List.mem_append_left _ within)) before,
    .of_nodes (stands _ (List.mem_append_right _ (List.mem_map_of_mem mem))) after⟩

theorem tested (header : String) {timeout : Option Nat} (brief : timeout ∈ [none, some 1000])
    {tree : FileTree} (mem : tree ∈ trees) (count : Nat) :
    ((builder.serving (request header timeout)).tested scratch "u.c" text output
      ⟨filled tree, count⟩).2 = ⟨entered (filled tree), count⟩ := by
  have kept : (builder.serving (request header timeout)).keep "u.c" text output.kept (filled tree) =
      entered (filled tree) := (keeps mem).2
  rw [Pipeline.tested, smokeTest_eq]
  dsimp only
  rw [kept]
  split
  · next wanted built _ =>
      have ran := launched mem (List.mem_cons_of_mem _ List.mem_cons_self) brief wanted built
      exact congrArg (fun result => Workshop.mk (Prod.snd result) count) ran
  · rfl

/-- A call that comes to the compiler goes well. -/
theorem regular (header : String) {timeout : Option Nat} (brief : timeout ∈ [none, some 1000])
    {shop : Workshop Nat} (mem : shop.tree ∈ trees) :
    builder.Follows behaviour (request header timeout) shop ∧
      builder.Spares cache ["cache"] (request header timeout) shop := by
  have compiled := done (filled shop.tree) shop.tools
  constructor
  · refine .of_compiled (made mem) (written mem) compiled rfl executable ?_
    intro limit path wanted built
    have kept : builder.keep (request header timeout).fileName (request header timeout).text
        output.kept (filled shop.tree) = entered (filled shop.tree) := (keeps mem).2
    rw [kept]
    have ran := launched mem (List.mem_cons_of_mem _ List.mem_cons_self) brief wanted built
    exact congrArg Prod.fst ran
  · refine .of_compiled (made mem) (written mem) compiled (spared mem).1 (keeps mem).1 ?_
    have kept : builder.keep (request header timeout).fileName (request header timeout).text
        output.kept (filled shop.tree) = entered (filled shop.tree) := (keeps mem).2
    have after : ((builder.serving (request header timeout)).tested scratch
        (request header timeout).fileName (request header timeout).text output
        ⟨filled shop.tree, shop.tools + 1⟩).2.tree = entered (filled shop.tree) :=
      congrArg Workshop.tree (tested header brief mem (shop.tools + 1))
    rw [kept, after]
    exact (spared mem).2

theorem plain (header : String) {timeout : Option Nat} (brief : timeout ∈ [none, some 1000])
    {shop : Workshop Nat} (mem : shop.tree ∈ trees) :
    builder.uncached.Follows behaviour (request header timeout) shop := by
  refine .of_compiled (made mem) (written mem) (done (filled shop.tree) shop.tools) rfl executable
    fun limit path wanted built => ?_
  exact congrArg Prod.fst (launched mem List.mem_cons_self brief wanted built)

theorem get?_start (key : Digest) : cache.get? key start = none := by
  have free (name : String) : entryOf (start.node? (["cache"] ++ [name])) = none := by
    by_cases garbage : name = "notes"
    · subst garbage
      decide +kernel
    · have differs : (name == "notes") = false := by simpa using garbage
      have none : start.node? (["cache"] ++ [name]) = none := by
        simp [FileTree.node?, start, List.lookup_cons, differs]
      rw [none]
      rfl
  rw [(stands start (by simp [trees])).get?_eq, free]

theorem sound (files : String → String → Prop) : behaviour.Sound cache files start := by
  intro key result found
  rw [get?_start] at found
  cases found

def kept : Workshop Nat := ⟨entered start, 1⟩

theorem judge_start (header : String) : (builder.judge (request header none) ⟨start, 0⟩).2 = kept := by
  have here : start ∈ trees := List.mem_cons_self
  obtain ⟨valid, -, -, cleared, -⟩ := steps
  have course := builder.judge_judges (request header none) ⟨start, 0⟩
  generalize builder.judge (request header none) ⟨start, 0⟩ = after at course ⊢
  obtain ⟨verdict, after⟩ := after
  cases course with
  | malformed invalid => cases valid.symm.trans invalid
  | kept _ found =>
      obtain ⟨found, -⟩ := (kept?_serving_iff rfl).1 found
      rw [get?_start] at found
      cases found
  | noScratch _ _ failed => cases (made here).symm.trans failed
  | notWritten _ _ made' refused =>
      cases (made here).symm.trans made'
      cases (written here).symm.trans refused
  | notCompiled _ _ made' written' failed =>
      cases (made here).symm.trans made'
      cases (written here).symm.trans written'
      cases (done (filled start) 0).symm.trans failed
  | compiled _ _ made' written' done' =>
      cases (made here).symm.trans made'
      cases (written here).symm.trans written'
      cases (done (filled start) 0).symm.trans done'
      have rest : ((builder.serving (request header none)).tested scratch
          (request header none).fileName (request header none).text output
          ⟨filled start, 0 + 1⟩).2 = ⟨entered (filled start), 1⟩ :=
        tested header List.mem_cons_self here 1
      rw [rest]
      exact congrArg (Workshop.mk · 1) cleared

theorem judge_kept (header : String) : (builder.judge (request header none) kept).2 = kept := by
  have found : (cache.get? (cache.key "u.c" text) kept.tree).isSome := by
    rw [kept, (stands (entered start) (by simp [trees])).get?_eq, entryName_key]
    decide +kernel
  exact judge_of_isSome rfl rfl found

/-- A file is compiled and judged again by other rules. -/
theorem history {rest : List (ValidationCall × Workshop Nat)}
    (further : builder.History behaviour cache ["cache"] (entered start) rest) :
    builder.History behaviour cache ["cache"] start
      ((request "x.h" none, ⟨start, 0⟩) :: (request "y.h" none, kept) :: rest) := by
  have here : start ∈ trees := List.mem_cons_self
  have there : kept.tree ∈ trees := List.mem_cons_of_mem _ List.mem_cons_self
  have refl (tree : FileTree) : cache.Spared ["cache"] tree tree := fun at_ => ⟨at_, fun _ => rfl⟩
  refine .cons (refl _) (fun _ _ => regular "x.h" List.mem_cons_self here) ?_
  rw [judge_start]
  refine .cons (refl _) (fun _ _ => regular "y.h" List.mem_cons_self there) ?_
  rw [judge_kept]
  exact further

/-- A file is compiled, judged again by other rules, and then run. -/
theorem verdicts_of_cached_file :
    let first := request "x.h" none
    let again := request "y.h" none
    let tried := request "x.h" (some 1000)
    let shop : Workshop Nat := ⟨start, 0⟩
    let kept := (builder.judge first shop).2
    (builder.judge again kept).1 = (builder.uncached.judge again shop).1 ∧
      (builder.judge tried kept).1 = (builder.uncached.judge tried shop).1 ∧
      History.compilations builder id "u.c" text [(first, shop), (again, kept)] ≤ 1 := by
  intro first again tried shop after
  have here : shop.tree ∈ trees := List.mem_cons_self
  have there : kept.tree ∈ trees := List.mem_cons_of_mem _ List.mem_cons_self
  have left : after = kept := judge_start "x.h"
  rw [left]
  have short : builder.History behaviour cache ["cache"] start [(first, shop), (again, kept)] :=
    history (.nil _)
  have long : builder.History behaviour cache ["cache"] start
      [(first, shop), (again, kept), (tried, kept)] :=
    history (.cons (fun at_ => ⟨at_, fun _ => rfl⟩)
      (fun _ _ => regular "x.h" (List.mem_cons_of_mem _ List.mem_cons_self) there) (.nil _))
  let files (fileName content : String) : Prop := fileName = "u.c" ∧ content = text
  have inRange : behaviour.InRange := by
    intro _ _ output built compiled
    obtain ⟨rfl, -⟩ := Prod.mk.inj (Except.ok.inj compiled)
    exact ⟨by decide, by decide⟩
  have named {fileName content : String} (within : files fileName content) :
      '\x00' ∉ fileName.toList := by
    rw [within.1]
    decide
  have apart {fileName content name other : String} (one : files fileName content)
      (two : files name other) (_ : cache.key fileName content = cache.key name other) :
      Digest.separated [cache.fingerprint, fileName, content] =
        Digest.separated [cache.fingerprint, name, other] := by
    rw [one.1, one.2, two.1, two.2]
  have at_ := stands start (by simp [trees])
  obtain ⟨same, -, -⟩ := verdicts_of_cached rfl inRange named apart at_ (sound files) long
    (by simp [files, first, again, tried, request])
  obtain ⟨-, -, once⟩ := verdicts_of_cached rfl inRange named apart at_ (sound files) short
    (by simp [files, first, again, request])
  exact ⟨same (again, kept) (by simp) shop (.inr (by decide)) fun _ =>
      plain "y.h" List.mem_cons_self here,
    same (tried, kept) (by simp) shop (.inr (by decide)) fun _ =>
      plain "x.h" (List.mem_cons_of_mem _ List.mem_cons_self) here,
    once id (fun _ _ _ => rfl) (by simp [first, again, request]) "u.c" text⟩

end Pipeline.Sample

end Graft
