import Graft.Proofs.Run.Reports
import Graft.Proofs.Variant.Name
import Graft.Proofs.Work.Lineage

/-!
The variants of a unit in the tree of files. A variant that is written stands in a directory under its
own name (`FileTree.Stored`), and writing others leaves it there, as long as they have other names
(`FileTree.KeepsBut`). So what a unit leaves are the texts of all its windows
(`Batch.stored_of_writeVariants`).
-/

namespace Graft

open Code Hash Text Work

namespace FileTree

variable {tree now after : FileTree} {location : Location} {path name text : String}
  {names others : List String} {content : Bytes}

/-- That a tree has the nodes of another one, except for files with some names. -/
structure KeepsBut (names : List String) (tree after : FileTree) : Prop where
  current : after.current = tree.current
  kept : ∀ {location node}, tree.node? location = some node →
    node = .directory ∨ (∀ name ∈ names, location.getLast? ≠ some name) →
      after.node? location = some node

namespace KeepsBut

theorem refl (names : List String) (tree : FileTree) : KeepsBut names tree tree :=
  ⟨rfl, fun found _ => found⟩

theorem of_subset (h : KeepsBut names tree after) (part : names ⊆ others) :
    KeepsBut others tree after :=
  ⟨h.current, fun found spared =>
    h.kept found (spared.imp_right fun apart name listed => apart name (part listed))⟩

theorem trans (first : KeepsBut names tree now) (second : KeepsBut names now after) :
    KeepsBut names tree after :=
  ⟨second.current.trans first.current, fun found spared =>
    second.kept (first.kept found spared) spared⟩

theorem of_extends (grown : tree.Extends after) (names : List String) : KeepsBut names tree after :=
  ⟨grown.current, fun found _ => grown.kept found⟩

theorem of_placed {node : FileNode} (placed : tree.Placed (location ++ [name]) node after)
    (free : tree.node? (location ++ [name]) ≠ some .directory) : KeepsBut [name] tree after where
  current := placed.current
  kept {other found} there spared := by
    rw [placed.node]
    split
    · next same =>
        subst same
        obtain rfl | apart := spared
        · exact absurd there free
        · simp at apart
    · exact there

end KeepsBut

def Stored (tree : FileTree) (path name text : String) : Prop :=
  ∃ location executable, tree.LeadsTo path location ∧ tree.node? location = some .directory ∧
    tree.node? (location ++ [name]) = some (.file (encode text) executable)

theorem Stored.readText (h : tree.Stored path name text) (wf : tree.WellFormed)
    (plain : Path.IsName name) : tree.readText (Path.join path name) = .ok text := by
  obtain ⟨location, executable, leads, there, found⟩ := h
  have free : ∀ content executable, tree.node? location ≠ some (.file content executable) := by
    rw [there]
    exact nofun
  rw [leads.readText_join wf free plain, found, textOf_encode]

theorem Stored.keepsBut (h : tree.Stored path name text) (keeps : KeepsBut names tree after)
    (apart : name ∉ names) : after.Stored path name text := by
  obtain ⟨location, executable, leads, there, found⟩ := h
  refine ⟨location, executable, ?_, keeps.kept there (.inl rfl), keeps.kept found (.inr ?_)⟩
  · exact leads.mono there keeps.current fun found => keeps.kept found (.inl rfl)
  · rintro other listed same
    rw [List.getLast?_concat] at same
    exact apart (Option.some.inj same ▸ listed)

theorem zero_of_writeText (slash : '/' ∉ name.toList)
    (wrote : tree.writeText (Path.join path name) text = .ok after) : '\x00' ∉ name.toList := by
  intro member
  have zero : '\x00' ∈ (Path.join path name).toList :=
    (Path.mem_toList_join slash (by decide)).2 (.inr member)
  have refused : checkPath (Path.join path name) ≠ .ok () := by
    have contains : (Path.join path name).toList.contains '\x00' = true := by simpa using zero
    unfold checkPath
    rw [contains]
    split
    · exact nofun
    · exact nofun
  cases checked : checkPath (Path.join path name) with
  | ok => exact refused checked
  | error error =>
      simp only [writeText, write, resolveFile, checked, bind, Except.bind] at wrote
      cases wrote

/-- A text that could be written into a directory that was made for it stands there, and other files are
as they were. -/
theorem stored_of_writeText (wf : tree.WellFormed) (plain : Path.IsName name)
    (made : tree.makeDirectories path = .ok now)
    (wrote : now.writeText (Path.join path name) text = .ok after) :
    after.WellFormed ∧ KeepsBut [name] tree after ∧ after.Stored path name text := by
  cases planned : tree.planDirectory path with
  | error error =>
      rw [makeDirectories, planned] at made
      cases made
  | ok plan =>
      obtain ⟨location, steps⟩ := plan
      obtain ⟨grown, done, grows, wf', leads, there⟩ := perform_planDirectory wf planned
      obtain rfl : grown = now := by
        simpa [makeDirectories, planned, done, bind, Except.bind, pure, Except.pure] using made
      have free : grown.node? (location ++ [name]) ≠ some .directory := by
        intro found
        have occupied : grown.isDirectory (location ++ [name]) = true := by
          simpa [isDirectory] using found
        simp only [writeText, write, leads.resolveFile_join there plain, occupied, if_true, bind,
          Except.bind] at wrote
        cases wrote
      obtain ⟨executable, same⟩ := leads.write_join there plain free (encode text)
      rw [writeText, same] at wrote
      obtain rfl := Except.ok.inj wrote
      have parent : grown.node? (location ++ [name]).dropLast = some .directory := by
        rwa [List.dropLast_concat]
      have placed := placed_set wf' (by simp) parent free (.file (encode text) executable)
      refine ⟨placed.wellFormed, (KeepsBut.of_extends grows [name]).trans (.of_placed placed free), ?_⟩
      refine ⟨location, executable, ?_, placed.keeps free there, by rw [placed.node, if_pos rfl]⟩
      exact leads.mono there placed.current fun found => placed.keeps free found

end FileTree

/-- That the variants of some windows come from selections of their own. -/
structure Separate (unit : SourceUnit) (windows : List WindowOutcome) : Prop where
  comes : ∀ window ∈ windows, Variant.ComesFrom unit window.variant.provenance window.variant
  apart : windows.Pairwise fun a b => a.variant.provenance ≠ b.variant.provenance

theorem Separate.fileNames {unit : SourceUnit} {windows : List WindowOutcome}
    (h : Separate unit windows) :
    windows.Pairwise fun a b => a.variant.fileName unit ≠ b.variant.fileName unit := by
  refine h.apart.imp_of_mem fun {first second} hfirst hsecond differ same => differ ?_
  exact ((h.comes first hfirst).fileName_inj (h.comes second hsecond)).1 same

namespace Work

variable {settings : WorkSettings} {unit : SourceUnit} {spans : List Span}
  {happenings : List Happening} {previous : Option Checkpoint} {log : CandidateLog}

/-- The invariant of growing: the windows come one behind the other, none behind the last one, and each
is unchanged or was made by a selection that is as long as it. -/
structure Rising (unit : SourceUnit) (last : Nat) (windows : List WindowOutcome) : Prop where
  within : ∀ window ∈ windows, window.window ≤ last
  ascending : windows.Pairwise fun a b => a.window < b.window
  comes : ∀ window ∈ windows, Variant.ComesFrom unit window.variant.provenance window.variant
  named : ∀ window ∈ windows,
    OrdinalMap.keys window.variant.provenance = List.range' 1 window.window

namespace Rising

variable {last : Nat} {windows : List WindowOutcome} {added : WindowOutcome}

theorem nil (unit : SourceUnit) : Rising unit 0 [] :=
  ⟨List.forall_mem_nil _, .nil, List.forall_mem_nil _, List.forall_mem_nil _⟩

theorem unchanged (unit : SourceUnit) (verdict : Verdict) :
    Rising unit 0 [⟨0, .unchanged unit, verdict⟩] where
  within _ listed := by
    obtain rfl := List.mem_singleton.1 listed
    exact Nat.le_refl 0
  ascending := List.pairwise_singleton _ _
  comes _ listed := by
    obtain rfl := List.mem_singleton.1 listed
    exact .unchanged
  named _ listed := by
    obtain rfl := List.mem_singleton.1 listed
    rfl

theorem succ (h : Rising unit last windows) : Rising unit (last + 1) windows :=
  { h with within := fun window listed => Nat.le_succ_of_le (h.within window listed) }

theorem concat (h : Rising unit last windows) (own : added.window = last + 1)
    (comes : Variant.ComesFrom unit added.variant.provenance added.variant)
    (named : OrdinalMap.keys added.variant.provenance = List.range' 1 added.window) :
    Rising unit (last + 1) (windows ++ [added]) where
  within := List.forall_mem_append.2
    ⟨h.succ.within, List.forall_mem_singleton.2 (Nat.le_of_eq own)⟩
  ascending := by
    refine List.pairwise_append.2 ⟨h.ascending, List.pairwise_singleton _ _, ?_⟩
    intro earlier listed window final
    obtain rfl := List.mem_singleton.1 final
    have low := h.within earlier listed
    omega
  comes := List.forall_mem_append.2 ⟨h.comes, List.forall_mem_singleton.2 comes⟩
  named := List.forall_mem_append.2 ⟨h.named, List.forall_mem_singleton.2 named⟩

theorem separate (h : Rising unit last windows) : Separate unit windows where
  comes := h.comes
  apart := by
    refine h.ascending.imp_of_mem fun {first second} hfirst hsecond lower same => ?_
    have keys := congrArg OrdinalMap.keys same
    rw [h.named first hfirst, h.named second hsecond] at keys
    have lengths := congrArg List.length keys
    rw [List.length_range', List.length_range'] at lengths
    omega

end Rising

/-- A window preserves the invariant. -/
theorem rising_of_window {last : Nat} {progress after : Progress}
    (window : Window settings unit spans previous (last + 1) progress happenings (.ok after))
    (hprevious : Numbered previous) (reached : Reached last progress)
    (bornOut : BornOut log happenings) (rising : Rising unit last progress.windows) :
    Rising unit (last + 1) after.windows := by
  cases window with
  | noAttempt =>
      exact rising.succ
  | settled attempts settles =>
      have numbered := numbered_of_firstAttempt attempts hprevious reached.numbered
      have further := ((concerns_of_windowSettles settles reached.selected numbered).2 after rfl).1
      obtain ⟨-, added, hwindows, own, provenance, made⟩ := made_of_windowSettles settles
        reached.selected numbered (bornOut.of_subset (List.subset_append_right _ _))
      rw [hwindows]
      exact rising.concat own (.merged made) (by rw [provenance, own, further.selected])

/-- The windows of a run come from selections of their own. -/
theorem separate_of_course {mergeBack : Nat} {archive after : Archive} {outcome : UnitOutcome}
    (numbered : Numbered (archive.checkpoints unit.id))
    (course : Course (onUnit settings unit mergeBack) happenings (.ok outcome))
    (steps : Archive.Steps Archive.Step archive happenings after) : Separate unit outcome.windows := by
  have bornOut := Archive.bornOut_of_steps steps (.refl after)
  obtain ⟨_, _, _, _, windows, growing, progress, _, -, loads, opens, grows, -, rfl, rfl⟩ :=
    stages_of_course course
  have hprevious := Archive.numbered_of_restored numbered (previous_of_loads loads steps)
  have read : BornOut after.log growing := bornOut.of_subset fun _ member => by simp [member]
  have opened : Rising unit 0 windows := by
    cases opens with
    | none => exact .nil unit
    | unchanged none verdict => exact .unchanged unit verdict
  obtain ⟨last, rising⟩ : ∃ last, Rising unit last progress.windows :=
    invariant_of_grows (fun last progress _ => Rising unit last progress.windows) [] grows
      hprevious (reached_zero windows) (fun window part reached =>
        rising_of_window window hprevious reached (read.of_subset part)) opened
  exact rising.separate

end Work

namespace Batch

variable {config : RunConfig} {unit : SourceUnit} {bench after : Bench} {doing path text : String}
  {directory : String} {windows : List WindowOutcome} {paths : List (Nat × String)}

theorem files_eq_ok {operation : FileTree → Except FileError FileTree} {done : Unit} :
    files doing operation bench = (.ok done, after) ↔
      ∃ tree, operation bench.tree = .ok tree ∧ after = { bench with tree } := by
  simp only [files, bind_eq_ok, get_eq_ok]
  constructor
  · rintro ⟨_, _, ⟨rfl, rfl⟩, h⟩
    cases result : operation bench.tree with
    | error error =>
        rw [result] at h
        exact absurd h throw_ne_ok
    | ok tree =>
        rw [result] at h
        exact ⟨tree, rfl, ((Prod.mk.inj h).2).symm⟩
  · rintro ⟨tree, result, rfl⟩
    refine ⟨_, _, ⟨rfl, rfl⟩, ?_⟩
    rw [result]
    rfl

theorem exists_ok_of_isSome {α : Type} {change : Batch α}
    (done : (change bench).1.toOption.isSome = true) :
    ∃ value after, change bench = (.ok value, after) := by
  generalize change bench = result at done
  obtain ⟨_ | value, after⟩ := result
  · cases done
  · exact ⟨value, after, rfl⟩

/-- What the windows of a unit leave in the tree, if their variants have different names. -/
theorem stored_of_writeVariants (wf : bench.tree.WellFormed)
    (apart : windows.Pairwise fun a b => a.variant.fileName unit ≠ b.variant.fileName unit)
    (written : writeVariants unit directory windows bench = (.ok paths, after)) :
    after.tree.WellFormed ∧
      FileTree.KeepsBut (windows.map fun window => window.variant.fileName unit) bench.tree after.tree ∧
      ∀ window ∈ windows, Path.IsName (window.variant.fileName unit) ∧
        after.tree.Stored (Path.join directory (toString window.window))
          (window.variant.fileName unit) window.variant.text := by
  induction windows generalizing bench paths with
  | nil =>
      obtain ⟨-, rfl⟩ := pure_eq_ok.1 written
      exact ⟨wf, .refl _ _, List.forall_mem_nil _⟩
  | cons window rest ih =>
      rw [List.pairwise_cons] at apart
      simp only [writeVariants, makeDirectory, write, bind_eq_ok, pure_eq_ok, files_eq_ok] at written
      obtain ⟨_, _, ⟨now, made, rfl⟩, _, _, ⟨tree, wrote, rfl⟩, _, _, others, -, rfl⟩ := written
      have plain : Path.IsName (window.variant.fileName unit) :=
        Variant.isName_fileName (FileTree.zero_of_writeText (Variant.slash_fileName _ _) wrote)
      obtain ⟨wf', keeps, stored⟩ := FileTree.stored_of_writeText wf plain made wrote
      obtain ⟨wf'', further, later⟩ := ih wf' apart.2 others
      have absent : window.variant.fileName unit ∉
          rest.map fun window => window.variant.fileName unit := by
        intro member
        obtain ⟨other, listed, same⟩ := List.mem_map.1 member
        exact apart.1 other listed same.symm
      refine ⟨wf'', ?_, ?_⟩
      · rw [List.map_cons]
        exact (keeps.of_subset (by simp)).trans (further.of_subset (List.subset_cons_self _ _))
      · exact List.forall_mem_cons.2 ⟨⟨plain, stored.keepsBut further absent⟩, later⟩

/-- Whatever the path, the functions and the trial of a unit are, file names of variants that are merged
from selections, or unchanged, are the same exactly if the selections are; and so what a cache makes the
key of a variant's result of, its name and its text, tells the selection. No variant is written in the place
of another one: behind variants from selections of their own, each file holds the text of its variant, and
so does a file that was written before for a selection which is none of these. Of this kind are the windows
of every run over an archive that earlier runs of the unit left. -/
theorem written_variants_apart (unit : SourceUnit) :
    (∀ {selection other : Selection} {first second : Variant},
      first.ComesFrom unit selection → second.ComesFrom unit other →
        (first.fileName unit = second.fileName unit ↔ selection = other) ∧
        ∀ cache : Compiler.CompileCache,
          (cache.key (first.fileName unit) first.text = cache.key (second.fileName unit) second.text →
            Digest.separated [cache.fingerprint, first.fileName unit, first.text] =
              Digest.separated [cache.fingerprint, second.fileName unit, second.text]) →
          cache.key (first.fileName unit) first.text = cache.key (second.fileName unit) second.text →
            selection = other ∧ first.text = second.text) ∧
    (∀ {config : RunConfig} {windows : List WindowOutcome} {bench after : Bench}
      {paths : List (Nat × String)}, Separate unit windows → bench.tree.WellFormed →
        writeVariants unit (Path.join config.outputDirectory unit.id.name) windows bench =
          (.ok paths, after) →
        (∀ window ∈ windows,
          after.tree.readText (config.outputFile unit window) = .ok window.variant.text) ∧
        ∀ {selection : Selection} {variant : Variant} {path : String},
          variant.ComesFrom unit selection → (∀ window ∈ windows, window.variant.provenance ≠ selection) →
          bench.tree.Stored path (variant.fileName unit) variant.text →
            after.tree.Stored path (variant.fileName unit) variant.text) ∧
    ∀ {settings : WorkSettings} {mergeBack : Nat} {archive later : Archive} {outcome : UnitOutcome}
      {happenings : List Happening}, History unit archive →
        Course (onUnit settings unit mergeBack) happenings (.ok outcome) →
        Archive.Steps Archive.Step archive happenings later → Separate unit outcome.windows := by
  refine ⟨fun h h' => ⟨h.fileName_inj h', fun cache apart same => h.key_inj h' apart same⟩, ?_, ?_⟩
  · intro config windows bench after paths separate wf written
    obtain ⟨wf', keeps, stored⟩ := stored_of_writeVariants wf separate.fileNames written
    refine ⟨fun window listed => ?_, fun {selection variant path} comes other before => ?_⟩
    · obtain ⟨plain, there⟩ := stored window listed
      exact there.readText wf' plain
    · have absent : variant.fileName unit ∉ windows.map fun window => window.variant.fileName unit := by
        intro member
        obtain ⟨window, listed, same⟩ := List.mem_map.1 member
        exact other window listed (((separate.comes window listed).fileName_inj comes).1 same)
      exact before.keepsBut keeps absent
  · intro settings mergeBack archive later outcome happenings history course steps
    exact separate_of_course history.sound.numbered course steps

/-- Two windows are accepted with their first candidates; each file holds its own variant then, and no cache
takes the result for one of them for the other's. -/
theorem written_variants_apart_of_two_windows :
    let unit : SourceUnit :=
      ⟨"a/f.v2.c", "int f(void) { return 1; }\nint g(void) { return 2; }\n", ["f", "g"], 1⟩
    let config : RunConfig := {}
    ∃ archive happenings outcome later paths after, History unit archive ∧
      Course (onUnit ⟨⟨1, true, 30⟩, false, false⟩ unit 2) happenings (.ok outcome) ∧
      Archive.Steps Archive.Step archive happenings later ∧
      writeVariants unit (Path.join config.outputDirectory unit.id.name) outcome.windows
        { (default : Bench) with tree := .empty [] } = (.ok paths, after) ∧
      outcome.windows.map (fun window => window.variant.fileName unit) =
        ["f.v2_2_trial_1_merge_1_a1.c", "f.v2_2_trial_1_merge_2_a1-1.c"] ∧
      (∀ window ∈ outcome.windows,
        after.tree.readText (config.outputFile unit window) = .ok window.variant.text) ∧
      outcome.windows.Pairwise fun a b => ∀ cache : Compiler.CompileCache,
        Digest.separated [cache.fingerprint, a.variant.fileName unit, a.variant.text] ≠
          Digest.separated [cache.fingerprint, b.variant.fileName unit, b.variant.text] := by
  intro _ config
  let unit : SourceUnit := Sample.pair "a/f.v2.c"
  let spans : List Span := Sample.pairSpans
  let settings : WorkSettings := ⟨⟨1, true, 30⟩, false, false⟩
  let one : Selection := Sample.selection 1
  let first : Variant := .assemble unit spans one [(1, "x")]
  let second : Variant := .assemble unit spans (Sample.both 1 1) [(1, "x"), (2, "y")]
  let verdict : Verdict := .compiled [] [] .zero .succeeded ""
  let windows : List WindowOutcome := [⟨1, first, verdict⟩, ⟨2, second, verdict⟩]
  let start : Archive := ⟨.empty, fun _ => none⟩
  have good : verdict.isAccepted = true := rfl
  have answered (text : String) : settings.policy.taken (.answer (.ok text)) = .ok text := rfl
  have unrepaired (ordinal : Nat) : Settles unit ordinal 1 (∅ : OrdinalMap RepairState) [] ∅ :=
    .untouched fun _ found => nomatch found
  have settlesOne : WindowSettles settings unit spans 1 1 ⟨∅, ∅, [], none⟩ _ (.ok _) :=
    .accepted (Sample.merges_first "a/f.v2.c" 1 "x") good (unrepaired 1)
  have settlesTwo : WindowSettles settings unit spans 2 1 ⟨one, ∅, [⟨1, first, verdict⟩], none⟩ _
      (.ok _) := .accepted (Sample.merges_both "a/f.v2.c" 1 1 "x" "y") good (unrepaired 2)
  have grows : Grows settings unit spans none [1, 2] ⟨∅, ∅, [], none⟩ _ (.ok _) :=
    .further (.settled (.uncached ⟨.ok (.stored 1), .stored 1 (answered "x"), rfl⟩) settlesOne) rfl
      (.further (.settled (.uncached ⟨.ok (.stored 1), .stored 1 (answered "y"), rfl⟩) settlesTwo)
        rfl (.done _))
  obtain ⟨hasX, hasY, putX, onlyX, putY, keepsX, onlyY⟩ :=
    start.exists_puts_of_two unit.id "x" "y" Nat.one_ne_zero Nat.one_lt_two fun _ => rfl
  have readX : CandidateLog.store.get unit.id 1 1 hasX.log = .ok "x" := by
    simp [CandidateLog.store, onlyX]
  have readY : CandidateLog.store.get unit.id 2 1 hasY.log = .ok "y" := by
    simp [CandidateLog.store, onlyY]
  have againX : CandidateLog.store.get unit.id 1 1 hasY.log = .ok "x" := by
    simp [CandidateLog.store, keepsX]
  obtain ⟨happenings, outcome, same, course, later, steps⟩ : ∃ happenings outcome,
      outcome.windows = windows ∧ Course (onUnit settings unit 2) happenings (.ok outcome) ∧
      ∃ later, Archive.Steps Archive.Step start happenings later := by
    refine ⟨_, _, ?_, Runs.course (.loaded (Sample.located_pair "a/f.v2.c") (.unused rfl)
      (.none (Nat.succ_ne_zero 1)) grows
      (.finished (.unkept rfl) rfl)), ?_⟩
    · rfl
    · exact ⟨_, .cons (.inl (.tell _)) <| .cons (.inl (.ask _ _)) <| .cons putX <|
        .cons (.inl (.tell _)) <| .cons (Archive.reads readX) <| .cons (.inl (.validate _ _ _)) <|
        .cons (.inl (.tell _)) <| .cons (.inl (.ask _ _)) <| .cons putY <| .cons (.inl (.tell _)) <|
        .cons (Archive.reads againX) <| .cons (Archive.reads readY) <|
        .cons (.inl (.validate _ _ _)) <| .cons (.inl (.tell _)) <| .cons (.inl (.tell _)) <| .nil _⟩
  have history : History unit start := .start start rfl
  let bench : Bench := { (default : Bench) with tree := .empty [] }
  let directory := Path.join config.outputDirectory unit.id.name
  have done : (writeVariants unit directory windows bench).1.toOption.isSome = true := by
    decide +kernel
  obtain ⟨paths, after, written⟩ := exists_ok_of_isSome done
  obtain ⟨names, files, runs⟩ := written_variants_apart unit
  have separate := runs history course steps
  have held := (files separate (FileTree.wellFormed_empty []) (same ▸ written)).1
  refine ⟨start, happenings, outcome, later, paths, after, history, course, steps, same ▸ written, ?_,
    held, separate.apart.imp_of_mem fun {a b} ha hb differ cache whole => differ ?_⟩
  · rw [same]
    decide +kernel
  · exact ((names (separate.comes a ha) (separate.comes b hb)).2 cache (fun _ => whole)
      (congrArg Digest.compute whole)).1

end Batch

end Graft
