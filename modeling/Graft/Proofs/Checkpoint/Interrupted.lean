import Graft.Proofs.Checkpoint.Saved
import Graft.Proofs.Files.Cut

/-!
Saving that stops on the way. Each of the two files is replaced in whole, but not both at once:
between the two moves the new data stands beside the old digest. `Checkpoint.load_of_cut` says that
this is the only moment at which what is kept for a unit cannot be loaded.
-/

namespace Graft

open Text Hash

/-- That a file of a name has been moved to its place. -/
def Puts (name : String) (done : List FileStep) : Prop :=
  ∃ draft directory, FileStep.move draft (directory ++ [name]) ∈ done

theorem not_puts_of_drafts {draft : Location} {done : List FileStep}
    (h : ∀ step ∈ done, step.Drafts draft) (name : String) : ¬Puts name done := by
  rintro ⟨source, directory, mem⟩
  exact h _ mem

theorem puts_append {name : String} {first second : List FileStep} :
    Puts name (first ++ second) ↔ Puts name first ∨ Puts name second := by
  simp only [Puts, List.mem_append, exists_or]

theorem puts_replaceSteps {name other : String} {draft directory : Location} {content : Bytes} :
    Puts name (FileTree.replaceSteps draft (directory ++ [other]) content) ↔ name = other := by
  simp only [Puts, FileTree.replaceSteps, FileTree.placeSteps, List.mem_cons, List.not_mem_nil,
    or_false, reduceCtorEq, false_or, FileStep.move.injEq]
  constructor
  · rintro ⟨source, place, -, same⟩
    exact (List.append_inj' same rfl).2 |> List.singleton_inj.1
  · rintro rfl
    exact ⟨draft, directory, rfl, rfl⟩

namespace Checkpoint

variable {base : String} {unit : UnitId} {checkpoint : Checkpoint} {directory draft : Location}
  {tree reached after : FileTree}

/-- That new data stands beside a digest, as it was read before, that is not its own. -/
def Exposed (checkpoint : Checkpoint) (beside : Except FileError String) (done : List FileStep) :
    Prop :=
  Puts dataName done ∧ ¬Puts digestName done ∧
    ∀ written, beside = .ok written →
      trimmed written ≠ (Digest.compute (encode checkpoint.render)).toHex

theorem exposed_append {beside : Except FileError String} {first second : List FileStep}
    (h : ∀ name, ¬Puts name first) :
    Exposed checkpoint beside (first ++ second) ↔ Exposed checkpoint beside second := by
  simp only [Exposed, puts_append, h, false_or]

/-- What is loaded when new data stands beside a digest. -/
theorem judgeNodes_of_data (fits : checkpoint.InRange) (digest : Option FileNode) :
    ((∀ written, FileTree.textOf digest = .ok written →
        trimmed written ≠ (Digest.compute (encode checkpoint.render)).toHex) →
      ∃ failure, judgeNodes (some checkpoint.dataNode) digest = .error failure) ∧
    ((¬∀ written, FileTree.textOf digest = .ok written →
        trimmed written ≠ (Digest.compute (encode checkpoint.render)).toHex) →
      judgeNodes (some checkpoint.dataNode) digest = .ok (some checkpoint)) := by
  simp only [judgeNodes, dataNode, FileTree.contentOf]
  cases FileTree.textOf digest with
  | error error =>
      constructor
      · intro _
        exact ⟨_, rfl⟩
      · intro readable
        exfalso
        apply readable
        intro written same
        cases same
  | ok written =>
      constructor
      · intro differ
        exact ⟨_, judge_of_ne (differ written rfl)⟩
      · intro same
        apply judge_render fits
        by_contra differ
        apply same
        rintro _ ⟨⟩
        exact differ

/-- While a file is drafted, what is loaded stays, also when the draft is removed. -/
theorem Kept.load_of_drafts (h : Kept base unit directory tree) {name : String}
    {done : List FileStep} (there : tree.node? directory = some .directory)
    (data : dataName ≠ name) (digest : digestName ≠ name)
    (leaf : tree.node? (directory ++ [name]) ≠ some .directory)
    (drafts : ∀ step ∈ done, step.Drafts (directory ++ [name]))
    (performed : tree.perform done = (reached, none))
    (stopped : after = reached ∨ after = reached.erase (directory ++ [name])) :
    Checkpoint.load base unit after = judgeNodes (tree.node? (directory ++ [dataName]))
      (tree.node? (directory ++ [digestName])) := by
  have drafting : FileTree.Drafting (directory ++ [name]) tree after := by
    have first := FileTree.perform_of_drafts h.wellFormed leaf drafts performed
    obtain rfl | rfl := stopped
    · exact first
    · exact first.trans (FileTree.drafting_erase first.wellFormed first.leaf)
  have kept {location : Location} (found : tree.node? location = some .directory) :
      after.node? location = some .directory := by
    rw [drafting.others, found]
    rintro rfl
    exact leaf found
  have still : Kept base unit directory after := by
    refine ⟨drafting.wellFormed, h.leads.mono there drafting.current kept, ?_⟩
    rw [kept there]
    exact nofun
  rw [still.load, drafting.others _ (by simpa using data), drafting.others _ (by simpa using digest)]

/-- While the directories on the way to a unit are being made, the way there is free. -/
theorem kept_of_makes {made : List FileStep} {now : FileTree} (wf : tree.WellFormed)
    (zero : '\x00' ∉ (directoryOf base unit).toList)
    (makes : tree.Makes (tree.start (directoryOf base unit))
      (FileTree.names (directoryOf base unit)) directory made)
    (each : ∀ step ∈ made, ∃ location, step = .makeDirectory location ∧ location <+: directory)
    (grown : tree.Extends now) (wf' : now.WellFormed) : Kept base unit directory now := by
  have start : now.start (directoryOf base unit) = tree.start (directoryOf base unit) := by
    rw [FileTree.start, FileTree.start, grown.current]
  have free : ∀ content executable, now.node? directory ≠ some (.file content executable) := by
    intro content executable found
    obtain ⟨whole, -, more, -, last, -⟩ := makes.perform wf (.refl tree) (wf.start _)
    rw [more.kept (grown.file found)] at last
    cases last
  refine ⟨wf', ⟨zero, ?_⟩, free⟩
  rw [start]
  obtain followed | ⟨missing, location, mem, gone⟩ :=
    makes.follow_or grown wf' (grown.kept (wf.start _))
  · exact .inl followed
  · obtain ⟨other, same, rest, rfl⟩ := each _ mem
    obtain rfl := FileStep.makeDirectory.inj same
    exact .inr ⟨missing, wf'.none_below gone rest⟩

theorem not_puts_of_makes {made : List FileStep}
    (each : ∀ step ∈ made, ∃ location, step = .makeDirectory location ∧ location <+: directory)
    (name : String) : ¬Puts name made := by
  rintro ⟨source, place, mem⟩
  obtain ⟨location, same, -⟩ := each _ mem
  cases same

/-- Saving that stops before the last directory has been made. -/
theorem load_of_cut_directories {made done : List FileStep} (wf : tree.WellFormed)
    (makes : tree.Makes (tree.start (directoryOf base unit))
      (FileTree.names (directoryOf base unit)) directory made)
    (each : ∀ step ∈ made, ∃ location, step = .makeDirectory location ∧ location <+: directory)
    (keptOf : ∀ {now : FileTree}, tree.Extends now → now.WellFormed → Kept base unit directory now)
    (front : done <+: made) (performed : tree.perform done = (reached, none))
    (stopped : after = reached ∨ after = reached.erase (tree.draft directory)) :
    load base unit after = load base unit tree := by
  obtain ⟨names, last, part⟩ := makes.front front
  obtain ⟨now, finished, grown, wf', -, -⟩ := part.perform wf (.refl tree) (wf.start _)
  obtain ⟨rfl, -⟩ := Prod.mk.inj (finished.symm.trans performed)
  have nodes (name : String) : now.node? (directory ++ [name]) = tree.node? (directory ++ [name]) :=
    FileTree.node?_of_makes_below (fun step mem => each step (front.subset mem)) finished (by simp)
  have whole : after = now := by
    obtain rfl | rfl := stopped
    · rfl
    · apply FileTree.erase_of_none
      obtain ⟨rest, named⟩ := FileTree.exists_draft tree directory
      have free := FileTree.node?_draft wf.unique directory
      rw [named] at free ⊢
      rw [nodes, free]
  rw [whole, (keptOf grown wf').load, (keptOf (.refl tree) wf).load, nodes, nodes]

/-- Saving that stops when the directory is there. -/
theorem load_of_cut_files {previous : Option Checkpoint} {name : String} {done : List FileStep}
    (fits : checkpoint.InRange) (kept : Kept base unit directory tree)
    (there : tree.node? directory = some .directory) (data : dataName ≠ name)
    (digest : digestName ≠ name) (leaf : tree.node? (directory ++ [name]) ≠ some .directory)
    (accepted : load base unit tree = .ok previous)
    (cut : Cut
      (FileTree.replaceSteps (directory ++ [name]) (directory ++ [dataName])
          (encode checkpoint.render) ++
        FileTree.replaceSteps (directory ++ [name]) (directory ++ [digestName])
          (encode (Digest.compute (encode checkpoint.render)).toHex)) done)
    (performed : tree.perform done = (reached, none))
    (stopped : after = reached ∨ after = reached.erase (directory ++ [name])) :
    (Exposed checkpoint (FileTree.textOf (tree.node? (directory ++ [digestName]))) done →
      ∃ failure, load base unit after = .error failure) ∧
    (¬Exposed checkpoint (FileTree.textOf (tree.node? (directory ++ [digestName]))) done →
      load base unit after = .ok previous ∨ load base unit after = .ok (some checkpoint)) := by
  obtain drafts | ⟨later, rfl, second⟩ := FileTree.cut_replaceSteps_append cut
  · -- the data is being drafted
    have loaded := kept.load_of_drafts there data digest leaf drafts performed stopped
    rw [← kept.load, accepted] at loaded
    exact ⟨fun exposed => absurd exposed.1 (not_puts_of_drafts drafts dataName),
      fun _ => .inl loaded⟩
  · have apart := digestPlace_ne_dataPlace directory
    obtain ⟨middle, first, performed⟩ := FileTree.exists_middle_of_perform performed
    obtain ⟨kept, there, placed⟩ := kept.replaced there (by simpa using data) first
    have written : middle.node? (directory ++ [dataName]) = some checkpoint.dataNode := by
      rw [placed.node, if_pos rfl, dataNode]
    have leaf : middle.node? (directory ++ [name]) ≠ some .directory := by
      rw [placed.node, if_neg (by simpa using data.symm)]
      exact leaf
    obtain rfl | drafts := FileTree.cut_replaceSteps second
    · -- the digest is in its place as well
      obtain ⟨kept, there, placed'⟩ := kept.replaced there (by simpa using digest) performed
      have leaf : reached.node? (directory ++ [name]) ≠ some .directory := by
        rw [placed'.node, if_neg (by simpa using digest.symm)]
        exact leaf
      have loaded := kept.load_of_drafts there data digest leaf (List.forall_mem_nil _) rfl stopped
      rw [placed'.node, placed'.node, if_neg apart.symm, if_pos rfl, written] at loaded
      have complete := loaded.trans (judgeNodes_of_saved fits)
      refine ⟨fun exposed => absurd ?_ exposed.2.1, fun _ => .inr complete⟩
      exact puts_append.2 (.inr (puts_replaceSteps.2 rfl))
    · -- the new data stands beside the old digest
      have loaded := kept.load_of_drafts there data digest leaf drafts performed stopped
      rw [written, placed.node, if_neg apart] at loaded
      obtain ⟨fails, holds⟩ := judgeNodes_of_data fits (tree.node? (directory ++ [digestName]))
      rw [loaded]
      refine ⟨fun exposed => fails exposed.2.2, fun safe => .inr (holds fun differ => ?_)⟩
      apply safe
      refine ⟨puts_append.2 (.inl (puts_replaceSteps.2 rfl)), ?_, differ⟩
      rw [puts_append, puts_replaceSteps]
      rintro (same | late)
      · simp [dataName, digestName] at same
      · exact not_puts_of_drafts drafts digestName late

/-- A path that never goes up makes no directories but those on the way to the draft. -/
theorem onTheWay_of_plan {steps : List FileStep}
    (plain : ".." ∉ FileTree.names (directoryOf base checkpoint.unitId))
    (planned : plan base checkpoint tree = .ok (draft, steps)) {location : Location}
    (mem : .makeDirectory location ∈ steps) : location <+: draft.dropLast := by
  obtain ⟨directory, made, directories, rfl, rfl⟩ := plan_eq_ok planned
  obtain ⟨-, makes⟩ := FileTree.planDirectory_eq_ok directories
  obtain ⟨rest, named⟩ := FileTree.exists_draft tree directory
  have inMade : .makeDirectory location ∈ made := by
    simpa [FileTree.replaceSteps, FileTree.placeSteps] using mem
  obtain ⟨other, same, within⟩ := (makes.of_plain plain).2 _ inMade
  obtain rfl := FileStep.makeDirectory.inj same
  rwa [named, List.dropLast_concat]

/-- Saving that stops on the way leaves what was loaded before or what was being saved, unless it
stops between the two moves and the old digest is not that of the new data: then nothing can be
loaded. Only a path that goes up from a directory that is missing makes others than those on the
way to the draft. -/
theorem load_of_cut {previous : Option Checkpoint} {steps done : List FileStep}
    (wf : tree.WellFormed) (fits : checkpoint.InRange)
    (accepted : load base checkpoint.unitId tree = .ok previous)
    (planned : plan base checkpoint tree = .ok (draft, steps))
    (onTheWay : ∀ location, .makeDirectory location ∈ steps → location <+: draft.dropLast)
    (cut : Cut steps done) (performed : tree.perform done = (reached, none))
    (stopped : after = reached ∨ after = reached.erase draft) :
    let beside := tree.readText (Path.join (directoryOf base checkpoint.unitId) digestName)
    (Exposed checkpoint beside done →
      ∃ failure, load base checkpoint.unitId after = .error failure) ∧
    (¬Exposed checkpoint beside done →
      load base checkpoint.unitId after = .ok previous ∨
        load base checkpoint.unitId after = .ok (some checkpoint)) := by
  intro beside
  obtain ⟨directory, made, directories, rfl, rfl⟩ := plan_eq_ok planned
  obtain ⟨zero, makes⟩ := FileTree.planDirectory_eq_ok directories
  obtain ⟨rest, named⟩ := FileTree.exists_draft tree directory
  have each : ∀ step ∈ made, ∃ location, step = .makeDirectory location ∧ location <+: directory := by
    intro step mem
    obtain ⟨location, rfl⟩ := makes.isMakeDirectory mem
    have within := onTheWay location (List.mem_append_left _ mem)
    rw [named, List.dropLast_concat] at within
    exact ⟨location, rfl, within⟩
  have keptOf {now : FileTree} (grown : tree.Extends now) (wf' : now.WellFormed) :
      Kept base checkpoint.unitId directory now :=
    kept_of_makes wf zero makes each grown wf'
  have kept := keptOf (.refl tree) wf
  have read : beside = FileTree.textOf (tree.node? (directory ++ [digestName])) :=
    kept.leads.readText_join kept.wellFormed kept.free isName_digestName
  obtain within | ⟨later, rfl, behind⟩ := cut.of_append
  · -- not all directories have been made
    have front : done <+: made := by
      apply within.isPrefix
      intro location content mem
      obtain ⟨other, same, -⟩ := each _ mem
      cases same
    have nothing : ¬Puts dataName done := fun ⟨source, place, mem⟩ =>
      not_puts_of_makes each dataName ⟨source, place, front.subset mem⟩
    have loaded := load_of_cut_directories wf makes each keptOf front performed stopped
    exact ⟨fun exposed => absurd exposed.1 nothing, fun _ => .inl (loaded.trans accepted)⟩
  · -- the directory is there, and the files are being replaced
    obtain ⟨grown, finished, more, wf', -, there⟩ := FileTree.perform_planDirectory wf directories
    have nodes (name : String) :
        grown.node? (directory ++ [name]) = tree.node? (directory ++ [name]) :=
      FileTree.node?_of_makes_below each finished (by simp)
    have still : load base checkpoint.unitId grown = .ok previous := by
      rw [(keptOf more wf').load, nodes, nodes, ← kept.load, accepted]
    rw [FileTree.perform_append_of_done finished] at performed
    have free := FileTree.node?_draft wf.unique directory
    rw [named] at free stopped behind
    have leaf : grown.node? (directory ++ [".tmp" ++ rest]) ≠ some .directory := by
      rw [nodes, free]
      exact nofun
    rw [exposed_append (not_puts_of_makes each), read, ← nodes]
    exact load_of_cut_files fits (keptOf more wf') there (dataName_ne rest) (digestName_ne rest) leaf
      still behind performed stopped

def firstSteps : List FileStep :=
  [.makeDirectory ["kept"], .makeDirectory ["kept", "f-0123456789ab-t1"]] ++
    (FileTree.replaceSteps ["kept", "f-0123456789ab-t1", ".tmp000000"]
        ["kept", "f-0123456789ab-t1", dataName] (encode ofTwoFunctions.render) ++
      FileTree.replaceSteps ["kept", "f-0123456789ab-t1", ".tmp000000"]
        ["kept", "f-0123456789ab-t1", digestName]
        (encode (Digest.compute (encode ofTwoFunctions.render)).toHex))

theorem plan_ofTwoFunctions : plan "kept" ofTwoFunctions (.empty []) =
    .ok (["kept", "f-0123456789ab-t1", ".tmp000000"], firstSteps) := by
  have made : (FileTree.empty []).planDirectory (directoryOf "kept" ofTwoFunctions.unitId) =
      .ok (["kept", "f-0123456789ab-t1"],
        [.makeDirectory ["kept"], .makeDirectory ["kept", "f-0123456789ab-t1"]]) := by rfl
  have named : (FileTree.empty []).draft ["kept", "f-0123456789ab-t1"] =
      ["kept", "f-0123456789ab-t1", ".tmp000000"] := by rfl
  unfold plan firstSteps
  rw [made]
  simp only [bind, Except.bind, named, List.append_assoc]
  rfl

/-- The state between the two moves. -/
theorem perform_firstSteps : (FileTree.empty []).perform (firstSteps.take 6) =
    (((FileTree.empty []).perform (firstSteps.take 6)).1, none) := by
  apply Prod.ext
  · rfl
  · rfl

theorem load_empty : load "kept" ofTwoFunctions.unitId (.empty []) = .ok none := by
  rfl

theorem load_of_cut_of_two_functions :
    Exposed ofTwoFunctions ((FileTree.empty []).readText
        (Path.join (directoryOf "kept" ofTwoFunctions.unitId) digestName)) (firstSteps.take 6) ∧
      ∃ failure, load "kept" ofTwoFunctions.unitId
        ((FileTree.empty []).perform (firstSteps.take 6)).1 = .error failure := by
  have exposed : Exposed ofTwoFunctions ((FileTree.empty []).readText
      (Path.join (directoryOf "kept" ofTwoFunctions.unitId) digestName)) (firstSteps.take 6) := by
    refine ⟨⟨["kept", "f-0123456789ab-t1", ".tmp000000"], ["kept", "f-0123456789ab-t1"], ?_⟩, ?_, ?_⟩
    · simp [firstSteps, FileTree.replaceSteps, FileTree.placeSteps]
    · rintro ⟨source, place, mem⟩
      simp only [firstSteps, FileTree.replaceSteps, FileTree.placeSteps, List.cons_append,
        List.nil_append, List.take_succ_cons, List.take_zero, List.mem_cons, List.not_mem_nil,
        reduceCtorEq, FileStep.move.injEq, false_or, or_false] at mem
      have last := congrArg List.getLast? mem.2
      simp [dataName, digestName] at last
    · intro written read
      cases read
  have onTheWay : ∀ location, .makeDirectory location ∈ firstSteps →
      location <+: List.dropLast ["kept", "f-0123456789ab-t1", ".tmp000000"] :=
    fun location => onTheWay_of_plan (by decide) plan_ofTwoFunctions
  exact ⟨exposed, (load_of_cut (FileTree.wellFormed_empty []) inRange_ofTwoFunctions load_empty
    plan_ofTwoFunctions onTheWay (.take _ 6) perform_firstSteps (.inl rfl)).1 exposed⟩

/-- The first save of a unit may stop where nothing can be loaded. -/
theorem not_loaded_after_first_move :
    ¬∀ (base : String) (checkpoint : Checkpoint) (previous : Option Checkpoint)
      (tree reached : FileTree) (draft : Location) (steps done : List FileStep),
      tree.WellFormed → checkpoint.InRange → load base checkpoint.unitId tree = .ok previous →
      plan base checkpoint tree = .ok (draft, steps) → Cut steps done →
      tree.perform done = (reached, none) →
      load base checkpoint.unitId reached = .ok previous ∨
        load base checkpoint.unitId reached = .ok (some checkpoint) := by
  intro claimed
  have outcome := claimed "kept" ofTwoFunctions none (.empty []) _ _ firstSteps (firstSteps.take 6)
    (FileTree.wellFormed_empty []) inRange_ofTwoFunctions load_empty plan_ofTwoFunctions
    (.take _ 6) perform_firstSteps
  have missing : load "kept" ofTwoFunctions.unitId
      ((FileTree.empty []).perform (firstSteps.take 6)).1 = .error (.ofFiles .notFound) := by
    rfl
  rw [missing] at outcome
  obtain same | same := outcome
  · cases same
  · cases same

end Checkpoint

end Graft
