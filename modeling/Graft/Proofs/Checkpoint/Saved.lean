import Graft.Proofs.Checkpoint.Codec
import Graft.Proofs.Files.Step

/-!
A checkpoint that was saved is loaded again as it was, whatever the files were before, and data that
was changed since is refused (`Checkpoint.load_of_save`). What is loaded is read off the two files
of the unit alone (`Checkpoint.Kept.load`).
-/

namespace Graft

open Text Hash

theorem Hash.isBlank_of_mem_hexOf {bytes : Bytes} {c : Char} (h : c ∈ hexOf bytes) :
    isBlank c = false := by
  obtain ⟨n, rfl⟩ := exists_of_mem_hexOf h
  clear h
  revert n
  decide

theorem Hash.Digest.trimmed_toHex (digest : Digest) : trimmed digest.toHex = digest.toHex := by
  have solid : trim digest.toHex.toList = digest.toHex.toList := by
    apply trim_of_solid
    intro c mem
    rw [Digest.toHex, String.toList_ofList] at mem
    exact isBlank_of_mem_hexOf mem
  rw [trimmed, solid, String.ofList_toList]

namespace Checkpoint

variable {base : String} {unit : UnitId} {tree : FileTree} {directory : Location}

theorem isName_dataName : Path.IsName dataName := by
  constructor <;> decide

theorem isName_digestName : Path.IsName digestName := by
  constructor <;> decide

def judge (content : Bytes) (written : String) : Except Failure (Option Checkpoint) :=
  let expected := trimmed written
  let actual := (Digest.compute content).toHex
  if expected ≠ actual then .error (.digestMismatch expected actual)
  else
    match (decode? content).bind read? with
    | some checkpoint => .ok (some checkpoint)
    | none => .error .malformedData

theorem judge_render {checkpoint : Checkpoint} (h : checkpoint.InRange) {written : String}
    (same : trimmed written = (Digest.compute (encode checkpoint.render)).toHex) :
    judge (encode checkpoint.render) written = .ok (some checkpoint) := by
  simp [judge, same, decode?_encode, read?_render h]

theorem judge_of_ne {content : Bytes} {written : String}
    (differ : trimmed written ≠ (Digest.compute content).toHex) :
    judge content written =
      .error (.digestMismatch (trimmed written) (Digest.compute content).toHex) := by
  simp [judge, differ]

def judgeNodes (data digest : Option FileNode) : Except Failure (Option Checkpoint) :=
  match FileTree.contentOf data with
  | .error .notFound => .ok none
  | .error error => .error (.ofFiles error)
  | .ok content =>
      match FileTree.textOf digest with
      | .error error => .error (.ofFiles error)
      | .ok written => judge content written

/-- That the path of a unit leads to a directory, or to where one may be made. -/
structure Kept (base : String) (unit : UnitId) (directory : Location) (tree : FileTree) : Prop where
  wellFormed : tree.WellFormed
  leads : tree.LeadsTo (directoryOf base unit) directory
  free : ∀ content executable, tree.node? directory ≠ some (.file content executable)

theorem Kept.load (h : Kept base unit directory tree) :
    load base unit tree = judgeNodes (tree.node? (directory ++ [dataName]))
      (tree.node? (directory ++ [digestName])) := by
  have data := h.leads.read_join h.wellFormed h.free isName_dataName
  have digest := h.leads.readText_join h.wellFormed h.free isName_digestName
  unfold Checkpoint.load judgeNodes
  dsimp only
  rw [data, digest]
  generalize FileTree.contentOf (tree.node? (directory ++ [dataName])) = found
  generalize FileTree.textOf (tree.node? (directory ++ [digestName])) = beside
  cases found with
  | error error => cases error <;> rfl
  | ok content => cases beside <;> rfl

def dataNode (checkpoint : Checkpoint) : FileNode := .file (encode checkpoint.render) false

def digestNode (checkpoint : Checkpoint) : FileNode :=
  .file (encode (Digest.compute (encode checkpoint.render)).toHex) false

theorem judgeNodes_of_saved {checkpoint : Checkpoint} (h : checkpoint.InRange) :
    judgeNodes (some checkpoint.dataNode) (some checkpoint.digestNode) = .ok (some checkpoint) := by
  simp only [judgeNodes, dataNode, digestNode, FileTree.contentOf, FileTree.textOf_encode]
  exact judge_render h (Digest.trimmed_toHex _)

/-- Data of another digest is refused. -/
theorem judgeNodes_of_changed {checkpoint : Checkpoint} {content : Bytes} {executable : Bool}
    (h : Digest.compute content ≠ Digest.compute (encode checkpoint.render)) :
    judgeNodes (some (.file content executable)) (some checkpoint.digestNode) =
      .error (.digestMismatch (Digest.compute (encode checkpoint.render)).toHex
        (Digest.compute content).toHex) := by
  have differ : (Digest.compute (encode checkpoint.render)).toHex ≠ (Digest.compute content).toHex :=
    fun same => h (Digest.toHex_injective same).symm
  simp only [judgeNodes, digestNode, FileTree.contentOf, FileTree.textOf_encode]
  rw [judge_of_ne (by rwa [Digest.trimmed_toHex]), Digest.trimmed_toHex]

theorem plan_eq_ok {checkpoint : Checkpoint} {draft : Location} {steps : List FileStep}
    (h : plan base checkpoint tree = .ok (draft, steps)) :
    ∃ directory made, tree.planDirectory (directoryOf base checkpoint.unitId) = .ok (directory, made) ∧
      draft = tree.draft directory ∧
      steps = made ++
        (FileTree.replaceSteps draft (directory ++ [dataName]) (encode checkpoint.render) ++
          FileTree.replaceSteps draft (directory ++ [digestName])
            (encode (Digest.compute (encode checkpoint.render)).toHex)) := by
  unfold plan at h
  cases planned : tree.planDirectory (directoryOf base checkpoint.unitId) with
  | error error =>
      rw [planned] at h
      cases h
  | ok found =>
      obtain ⟨directory, made⟩ := found
      rw [planned] at h
      obtain ⟨rfl, rfl⟩ := Prod.mk.inj (Except.ok.inj h)
      exact ⟨directory, made, rfl, rfl, List.append_assoc ..⟩

theorem dataName_ne (rest : String) : dataName ≠ ".tmp" ++ rest := by
  intro same
  simpa [dataName] using congrArg String.toList same

theorem digestName_ne (rest : String) : digestName ≠ ".tmp" ++ rest := by
  intro same
  simpa [digestName] using congrArg String.toList same

theorem digestPlace_ne_dataPlace (directory : Location) :
    directory ++ [digestName] ≠ directory ++ [dataName] := by
  simp [dataName, digestName]

/-- A file that is put into the directory of a unit leaves the way there as it is. -/
theorem Kept.placed (h : Kept base unit directory tree) {name : String} {node : FileNode}
    {after : FileTree} (there : tree.node? directory = some .directory)
    (free : tree.node? (directory ++ [name]) ≠ some .directory)
    (placed : tree.Placed (directory ++ [name]) node after) :
    Kept base unit directory after ∧ after.node? directory = some .directory := by
  have stays := placed.keeps free there
  refine ⟨⟨placed.wellFormed, ?_, ?_⟩, stays⟩
  · exact h.leads.mono there placed.current fun found => placed.keeps free found
  · rw [stays]
    exact nofun

theorem Kept.replaced (h : Kept base unit directory tree) {name : String} {content : Bytes}
    {draft : Location} {after : FileTree} (there : tree.node? directory = some .directory)
    (apart : directory ++ [name] ≠ draft)
    (done : tree.perform (FileTree.replaceSteps draft (directory ++ [name]) content) =
      (after, none)) :
    Kept base unit directory after ∧ after.node? directory = some .directory ∧
      tree.Placed (directory ++ [name]) (.file content false) after := by
  have inside : directory ++ [name] ≠ [] := by simp
  have sibling : tree.node? (directory ++ [name]).dropLast = some .directory := by
    rwa [List.dropLast_concat]
  obtain ⟨free, placed⟩ := FileTree.placed_of_perform h.wellFormed inside sibling apart done
  obtain ⟨kept, stays⟩ := h.placed there free placed
  exact ⟨kept, stays, placed⟩

/-- The files after a checkpoint was saved. -/
theorem kept_of_save {checkpoint : Checkpoint} {after : FileTree} {path : String}
    (wf : tree.WellFormed) (saved : save base checkpoint tree = (.ok path, after)) :
    ∃ directory, path = Path.join (directoryOf base checkpoint.unitId) dataName ∧
      Kept base checkpoint.unitId directory after ∧ after.node? directory = some .directory ∧
      after.node? (directory ++ [dataName]) = some checkpoint.dataNode ∧
      after.node? (directory ++ [digestName]) = some checkpoint.digestNode := by
  unfold save at saved
  split at saved
  · cases saved
  · next draft steps planned =>
    split at saved
    · cases saved
    · next carried =>
        obtain ⟨answered, rfl⟩ := Prod.mk.inj saved
        have performed := FileTree.perform_of_carryOut carried
        obtain ⟨directory, made, directories, rfl, rfl⟩ := plan_eq_ok planned
        obtain ⟨grown, done, -, wf', leads, there⟩ := FileTree.perform_planDirectory wf directories
        have kept : Kept base checkpoint.unitId directory grown :=
          ⟨wf', leads, by rw [there]; exact nofun⟩
        rw [FileTree.perform_append_of_done done] at performed
        obtain ⟨middle, first, second⟩ := FileTree.exists_middle_of_perform performed
        obtain ⟨kept, there, placed⟩ :=
          kept.replaced there (FileTree.append_ne_draft _ _ dataName_ne) first
        obtain ⟨kept', there', placed'⟩ :=
          kept.replaced there (FileTree.append_ne_draft _ _ digestName_ne) second
        have apart := digestPlace_ne_dataPlace directory
        refine ⟨directory, (Except.ok.inj answered).symm, kept', there', ?_, ?_⟩
        · rw [placed'.node, if_neg apart.symm, placed.node, if_pos rfl, dataNode]
        · rw [placed'.node, if_pos rfl, digestNode]

/-- A saved checkpoint is loaded as it was, and no other data in its place is taken for it. -/
theorem load_of_save {checkpoint : Checkpoint} {after : FileTree} {path : String}
    (wf : tree.WellFormed) (fits : checkpoint.InRange)
    (saved : save base checkpoint tree = (.ok path, after)) :
    load base checkpoint.unitId after = .ok (some checkpoint) ∧
      ∀ content, content ≠ encode checkpoint.render →
        (Digest.compute content = Digest.compute (encode checkpoint.render) →
          content = encode checkpoint.render) →
        ∃ tampered, after.write path content = .ok tampered ∧
          load base checkpoint.unitId tampered =
            .error (.digestMismatch (Digest.compute (encode checkpoint.render)).toHex
              (Digest.compute content).toHex) := by
  obtain ⟨directory, rfl, kept, there, data, digest⟩ := kept_of_save wf saved
  constructor
  · rw [kept.load, data, digest, judgeNodes_of_saved fits]
  · intro content other noCollision
    have differ := fun same => other (noCollision same)
    have free : after.node? (directory ++ [dataName]) ≠ some .directory := by
      rw [data]
      exact nofun
    obtain ⟨executable, written⟩ :=
      kept.leads.write_join there isName_dataName free content
    refine ⟨_, written, ?_⟩
    have placed : after.Placed (directory ++ [dataName]) (.file content executable)
        (after.set (directory ++ [dataName]) (.file content executable)) := by
      apply FileTree.placed_set kept.wellFormed (by simp) _ free
      rwa [List.dropLast_concat]
    rw [(kept.placed there free placed).1.load, placed.node, placed.node, if_pos rfl,
      if_neg (digestPlace_ne_dataPlace directory), digest, judgeNodes_of_changed differ]

def ofTwoFunctions : Checkpoint where
  unitId := ⟨"f-0123456789ab-t1"⟩
  selection := ⟨[(1, 2)], by decide⟩
  repairs := ⟨[(1, ⟨1, .repaired, 2, 3, 2, none,
      [⟨1, .stillFailing 1 "line 1\n\t\"f\" \u2717"⟩, ⟨2, .accepted 2⟩]⟩),
    (2, ⟨2, .exhausted, 2, 3, 0, some "no",
      [⟨1, .serviceError "down"⟩, ⟨2, .rejected "no"⟩]⟩)], by decide⟩
  updatedAt := ⟨1700000000, 250000000⟩

theorem inRange_ofTwoFunctions : ofTwoFunctions.InRange := by
  refine ⟨by decide, ?_, ⟨by decide, .inl (by decide)⟩⟩
  intro entry mem
  simp only [ofTwoFunctions, List.mem_cons, List.not_mem_nil, or_false] at mem
  obtain rfl | rfl := mem
  · refine ⟨by decide, by decide, by decide, by decide, by decide, ?_⟩
    intro step mem
    simp only [List.mem_cons, List.not_mem_nil, or_false] at mem
    obtain rfl | rfl := mem
    · exact ⟨by decide, show 1 ≤ maxUnsigned 32 by decide⟩
    · exact ⟨by decide, show 2 ≤ maxUnsigned 32 by decide⟩
  · refine ⟨by decide, by decide, by decide, by decide, by decide, ?_⟩
    intro step mem
    simp only [List.mem_cons, List.not_mem_nil, or_false] at mem
    obtain rfl | rfl := mem
    · exact ⟨by decide, trivial⟩
    · exact ⟨by decide, trivial⟩

theorem load_of_save_of_two_functions :
    (FileTree.empty []).WellFormed ∧ ofTwoFunctions.InRange ∧
      ∃ after, save "kept" ofTwoFunctions (.empty []) =
          (.ok "kept/f-0123456789ab-t1/checkpoint.json", after) ∧
        load "kept" ofTwoFunctions.unitId after = .ok (some ofTwoFunctions) := by
  have wf := FileTree.wellFormed_empty []
  have fits := inRange_ofTwoFunctions
  have saved : save "kept" ofTwoFunctions (.empty []) =
      (.ok "kept/f-0123456789ab-t1/checkpoint.json",
        (save "kept" ofTwoFunctions (.empty [])).2) := by
    apply Prod.ext
    · rfl
    · rfl
  exact ⟨wf, fits, _, saved, (load_of_save wf fits saved).1⟩

end Checkpoint

end Graft
