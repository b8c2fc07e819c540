import Mathlib.Data.List.Sort
import Graft.Proofs.Files.Cut
import Graft.Proofs.Store.Listing

/-!
What the answers of the store in files depend on. A file in the place of a directory on the way to a
function makes every request fail; otherwise the names in the directory say which attempts there are
(`CandidateFiles.attempts_of_clear`), and the nodes in it what they hold. So trees that differ in
drafts and in empty directories alone answer every request alike (`CandidateFiles.Alike.answers`).
-/

namespace Graft

open Text

namespace CandidateFiles

variable {base : String} {tree next after : FileTree} {root : Location} {unit : UnitId}
  {ordinal : Nat}

structure IsOpen (base : String) (root : Location) (tree : FileTree) : Prop where
  wellFormed : tree.WellFormed
  leads : tree.LeadsTo base root
  there : tree.node? root = some .directory

theorem append_name (root : Location) (unit place name : String) :
    root ++ [unit, place] ++ [name] = root ++ [unit, place, name] := by
  simp

theorem isName_ordinal (ordinal : Nat) : Path.IsName (toString ordinal) := Path.isName_repr ordinal

theorem clear_directoryOf (there : tree.node? root = some .directory)
    (first : ∀ content executable,
      tree.node? (root ++ [unit.name]) ≠ some (.file content executable))
    (second : ∀ content executable,
      tree.node? (root ++ [unit.name, toString ordinal]) ≠ some (.file content executable)) :
    tree.Clear root [unit.name, toString ordinal] := by
  apply FileTree.Clear.cons (by rw [there]; exact nofun)
  apply FileTree.Clear.cons first
  rw [List.append_assoc]
  exact FileTree.clear_nil second

theorem node?_of_clear (clear : tree.Clear root [unit.name, toString ordinal]) (content : Bytes)
    (executable : Bool) :
    tree.node? (root ++ [unit.name, toString ordinal]) ≠ some (.file content executable) := by
  have second := clear.tail.tail.here content executable
  rwa [List.append_assoc] at second

theorem leadsTo_directoryOf (opened : IsOpen base root tree) (plain : Path.IsName unit.name)
    (clear : tree.Clear root [unit.name, toString ordinal]) :
    tree.LeadsTo (directoryOf base unit ordinal) (root ++ [unit.name, toString ordinal]) := by
  have first := opened.leads.join opened.wellFormed clear.here plain
  have second := first.join opened.wellFormed clear.tail.here (isName_ordinal ordinal)
  rwa [List.append_assoc] at second

/-- The directories on the way to a function can be made where no file is in their place. -/
theorem exists_plan_of_clear (opened : IsOpen base root tree) (plain : Path.IsName unit.name)
    (clear : tree.Clear root [unit.name, toString ordinal]) :
    ∃ made, tree.planDirectory (directoryOf base unit ordinal) =
        .ok (root ++ [unit.name, toString ordinal], made) ∧
      tree.Prepares (root ++ [unit.name, toString ordinal]) made := by
  have number := isName_ordinal ordinal
  have names : ∀ name ∈ [unit.name, toString ordinal], Path.IsName name := by
    intro name mem
    obtain rfl | mem := List.mem_cons.1 mem
    · exact plain
    · obtain rfl := List.mem_singleton.1 mem
      exact number
  obtain ⟨made, makes⟩ := FileTree.exists_makes names clear
  have along := FileTree.makes_of_follow (opened.leads.follow opened.there) opened.there
  have whole : tree.Makes (tree.start (directoryOf base unit ordinal))
      (FileTree.names (directoryOf base unit ordinal)) (root ++ [unit.name, toString ordinal])
      made := by
    rw [← FileTree.makes_filter_iff]
    change tree.Makes _ (Path.parts (directoryOf base unit ordinal)) _ _
    rw [directoryOf, FileTree.start_join _ _ number.slash, FileTree.start_join _ _ plain.slash,
      FileTree.parts_join _ number, FileTree.parts_join _ plain, List.append_assoc]
    exact (FileTree.makes_filter_iff.2 along).append makes
  have up : ".." ∉ [unit.name, toString ordinal] := fun mem => (names _ mem).dots rfl
  have zero := (leadsTo_directoryOf opened plain clear).zero
  exact ⟨made, FileTree.planDirectory_of_makes zero whole,
    ⟨_, _, opened.wellFormed.start _, whole⟩, (makes.of_plain up).2⟩

/-! Answers where no file is in the way -/

/-- Nothing is in a directory that is not there. -/
theorem childNames_of_missing (wf : tree.WellFormed) {location : Location}
    (missing : tree.node? location = none) : tree.childNames location = [] := by
  apply List.eq_nil_iff_forall_not_mem.2
  intro name mem
  obtain ⟨node, found⟩ := (FileTree.mem_childNames_iff wf.unique).1 mem
  rw [wf.none_below missing] at found
  cases found

theorem attempts_of_clear (opened : IsOpen base root tree) (plain : Path.IsName unit.name)
    (clear : tree.Clear root [unit.name, toString ordinal]) :
    attempts base unit ordinal tree =
      .ok (attemptsAmong (tree.childNames (root ++ [unit.name, toString ordinal]))) := by
  have led := leadsTo_directoryOf opened plain clear
  cases found : tree.node? (root ++ [unit.name, toString ordinal]) with
  | some node =>
      cases node with
      | directory => exact attempts_of_there led found
      | file content executable => exact absurd found (node?_of_clear clear content executable)
  | none =>
      unfold attempts
      rw [led.list (checkPath_directoryOf led), found,
        childNames_of_missing opened.wellFormed found]
      simp [attemptsAmong]

theorem get_of_clear (opened : IsOpen base root tree) (plain : Path.IsName unit.name)
    (clear : tree.Clear root [unit.name, toString ordinal]) (attempt : Nat) :
    get base unit ordinal attempt tree =
      match FileTree.textOf
        (tree.node? (root ++ [unit.name, toString ordinal] ++ [nameOf attempt])) with
      | .ok text => .ok text
      | .error .notFound => .error (.notFound unit ordinal attempt)
      | .error error => .error (failed error) :=
  get_eq opened.wellFormed (leadsTo_directoryOf opened plain clear) (node?_of_clear clear) attempt

/-! Answers where a file is in the way -/

theorem follow_directoryOf (opened : IsOpen base root tree) (plain : Path.IsName unit.name) :
    tree.follow (tree.start (directoryOf base unit ordinal))
        (FileTree.names (directoryOf base unit ordinal)) =
      tree.follow (root ++ [unit.name]) [toString ordinal] := by
  rw [directoryOf, FileTree.follow_join _ _ (isName_ordinal ordinal),
    FileTree.follow_join _ _ plain, opened.leads.follow opened.there]
  simp only [Except.bind, FileTree.follow_name _ _ plain, opened.there]

/-- A file in the place of a directory on the way is no directory to go on in. -/
theorem follow_of_blocked (opened : IsOpen base root tree) (plain : Path.IsName unit.name)
    (blocked : ¬tree.Clear root [unit.name, toString ordinal]) :
    tree.follow (tree.start (directoryOf base unit ordinal))
        (FileTree.names (directoryOf base unit ordinal)) = .error .notDirectory ∨
      tree.follow (tree.start (directoryOf base unit ordinal))
          (FileTree.names (directoryOf base unit ordinal)) =
        .ok (root ++ [unit.name, toString ordinal]) ∧
      ∃ content executable,
        tree.node? (root ++ [unit.name, toString ordinal]) = some (.file content executable) := by
  rw [follow_directoryOf opened plain, FileTree.follow_name _ _ (isName_ordinal ordinal)]
  by_cases first : ∃ content executable,
      tree.node? (root ++ [unit.name]) = some (.file content executable)
  · obtain ⟨content, executable, found⟩ := first
    left
    rw [found]
  · right
    by_cases second : ∃ content executable,
        tree.node? (root ++ [unit.name, toString ordinal]) = some (.file content executable)
    · obtain ⟨content, executable, found⟩ := second
      have above : tree.node? (root ++ [unit.name]) = some .directory := by
        have parent := opened.wellFormed.parents found
        rwa [List.append_cons, List.dropLast_concat] at parent
      rw [above, List.append_assoc]
      exact ⟨rfl, content, executable, found⟩
    · exact absurd (clear_directoryOf opened.there
        (fun content executable found => first ⟨content, executable, found⟩)
        fun content executable found => second ⟨content, executable, found⟩) blocked

theorem attempts_of_blocked (opened : IsOpen base root tree) (plain : Path.IsName unit.name)
    (blocked : ¬tree.Clear root [unit.name, toString ordinal]) :
    attempts base unit ordinal tree = .error (failed .notDirectory) := by
  have zero : '\x00' ∉ (Path.join base unit.name).toList := by
    rw [Path.mem_toList_join plain.slash (by decide)]
    exact not_or.2 ⟨opened.leads.zero, plain.zero⟩
  have checked : FileTree.checkPath (directoryOf base unit ordinal) = .ok () :=
    FileTree.checkPath_join zero (isName_ordinal ordinal)
  have refused : tree.list (directoryOf base unit ordinal) = .error .notDirectory := by
    simp only [FileTree.list, FileTree.resolve, checked]
    obtain stopped | ⟨reached, content, executable, found⟩ :=
      follow_of_blocked opened plain blocked
    · simp only [stopped, bind, Except.bind]
    · simp only [reached, found, bind, Except.bind]
      rfl
  unfold attempts
  rw [refused]

theorem get_of_blocked (opened : IsOpen base root tree) (plain : Path.IsName unit.name)
    (blocked : ¬tree.Clear root [unit.name, toString ordinal]) (attempt : Nat) :
    get base unit ordinal attempt tree = .error (failed .notDirectory) := by
  have zero : '\x00' ∉ (directoryOf base unit ordinal).toList := by
    rw [directoryOf, Path.mem_toList_join (isName_ordinal ordinal).slash (by decide),
      Path.mem_toList_join plain.slash (by decide)]
    exact not_or.2 ⟨not_or.2 ⟨opened.leads.zero, plain.zero⟩, (isName_ordinal ordinal).zero⟩
  have checked := FileTree.checkPath_join zero (isName_nameOf attempt)
  have stopped : tree.follow
      (tree.start (Path.join (directoryOf base unit ordinal) (nameOf attempt)))
      (FileTree.names (Path.join (directoryOf base unit ordinal) (nameOf attempt))) =
        .error .notDirectory := by
    rw [FileTree.follow_join _ _ (isName_nameOf attempt)]
    obtain stopped | ⟨reached, content, executable, found⟩ :=
      follow_of_blocked opened plain blocked
    · rw [stopped]
      rfl
    · rw [reached]
      simp only [Except.bind, FileTree.follow_name _ _ (isName_nameOf attempt), found]
  have refused : tree.readText (Path.join (directoryOf base unit ordinal) (nameOf attempt)) =
      .error .notDirectory := by
    simp only [FileTree.readText, FileTree.read, FileTree.lookUp, FileTree.resolve, checked, stopped,
      bind, Except.bind]
  unfold get
  rw [refused]

/-! Trees that answer alike -/

/-- The name of a draft stands for no attempt. -/
theorem attempt?_draft (rest : String) : attempt? (".tmp" ++ rest) = none := by
  have start : (".tmp" ++ rest).toList = '.' :: ("tmp".toList ++ rest.toList) := by simp
  unfold attempt? Path.cutName
  rw [start, cutLast?]
  cases cutLast? '.' ("tmp".toList ++ rest.toList) with
  | none => rfl
  | some cut =>
      obtain ⟨before, behind⟩ := cut
      -- what stands before the extension starts with the dot
      simp only [List.take_succ_cons]
      split
      · next same =>
          obtain ⟨rfl, -⟩ := Prod.mk.inj same
          exact readNat?_of_head (String.toList_ofList ..) (by decide) rfl
      · rfl

/-- Only the names that stand for attempts count. -/
theorem attemptsAmong_congr {names others : List String} (first : names.Nodup)
    (second : others.Nodup) (same : ∀ name, attempt? name ≠ none → (name ∈ names ↔ name ∈ others)) :
    attemptsAmong names = attemptsAmong others := by
  let stands (name : String) : Bool := (attempt? name).isSome
  have kept (list : List String) : list.filterMap attempt? = (list.filter stands).filterMap attempt? := by
    rw [List.filterMap_filter]
    apply List.filterMap_congr
    intro name _
    cases found : attempt? name <;> simp [stands, found]
  have perm : (names.filter stands).Perm (others.filter stands) := by
    rw [List.perm_ext_iff_of_nodup (first.filter _) (second.filter _)]
    intro name
    rw [List.mem_filter, List.mem_filter]
    constructor
    · rintro ⟨mem, found⟩
      exact ⟨(same name (Option.isSome_iff_ne_none.1 found)).1 mem, found⟩
    · rintro ⟨mem, found⟩
      exact ⟨(same name (Option.isSome_iff_ne_none.1 found)).2 mem, found⟩
  have listed : (names.filterMap attempt?).Perm (others.filterMap attempt?) := by
    rw [kept names, kept others]
    exact perm.filterMap attempt?
  have total : ((attemptsAmong names).Perm (attemptsAmong others)) :=
    ((List.mergeSort_perm _ _).trans listed).trans (List.mergeSort_perm _ _).symm
  exact total.eq_of_pairwise (fun a b _ _ => Nat.le_antisymm) (sorted_attemptsAmong names)
    (sorted_attemptsAmong others)

/-- That two trees differ below a directory in drafts and in directories on the way to functions
alone. -/
structure Alike (root : Location) (tree after : FileTree) : Prop where
  wellFormed : after.WellFormed
  current : after.current = tree.current
  kept : ∀ {location}, tree.node? location = some .directory →
    after.node? location = some .directory
  above : ∀ {location : Location}, location.length ≤ root.length + 2 →
    after.node? location = tree.node? location ∨
      tree.node? location = none ∧ after.node? location = some .directory
  below : ∀ {location : Location} {name : String}, location.length = root.length + 2 →
    (∀ rest, name ≠ ".tmp" ++ rest) →
    after.node? (location ++ [name]) = tree.node? (location ++ [name])

namespace Alike

theorem trans (first : Alike root tree next) (second : Alike root next after) :
    Alike root tree after where
  wellFormed := second.wellFormed
  current := second.current.trans first.current
  kept there := second.kept (first.kept there)
  above {location} short := by
    obtain same | ⟨missing, made⟩ := second.above short
    · rw [same]
      exact first.above short
    · obtain before | ⟨-, there⟩ := first.above short
      · exact .inr ⟨before ▸ missing, made⟩
      · rw [there] at missing
        cases missing
  below long other := (second.below long other).trans (first.below long other)

theorem file_iff (h : Alike root tree after) {location : Location}
    (short : location.length ≤ root.length + 2) {content : Bytes} {executable : Bool} :
    after.node? location = some (.file content executable) ↔
      tree.node? location = some (.file content executable) := by
  obtain same | ⟨missing, made⟩ := h.above short
  · rw [same]
  · rw [missing, made]
    simp

theorem clear_iff (h : Alike root tree after) :
    after.Clear root [unit.name, toString ordinal] ↔
      tree.Clear root [unit.name, toString ordinal] := by
  have each {front : List String} (within : front <+: [unit.name, toString ordinal])
      {content : Bytes} {executable : Bool} :
      after.node? (root ++ front) = some (.file content executable) ↔
        tree.node? (root ++ front) = some (.file content executable) := by
    apply h.file_iff
    have := within.length_le
    simp only [List.length_cons, List.length_nil] at this
    rw [List.length_append]
    omega
  constructor
  · intro clear front within content executable found
    exact clear front within content executable ((each within).2 found)
  · intro clear front within content executable found
    exact clear front within content executable ((each within).1 found)

theorem isOpen (h : Alike root tree after) (opened : IsOpen base root tree) :
    IsOpen base root after :=
  ⟨h.wellFormed, opened.leads.mono opened.there h.current h.kept, h.kept opened.there⟩

end Alike

/-- That two trees answer every request about candidates alike. -/
def AnswersAlike (base : String) (tree after : FileTree) : Prop :=
  ∀ (unit : UnitId) (ordinal : Nat), Path.IsName unit.name →
    attempts base unit ordinal after = attempts base unit ordinal tree ∧
      (store base).latest unit ordinal after = (store base).latest unit ordinal tree ∧
      ∀ attempt, get base unit ordinal attempt after = get base unit ordinal attempt tree

theorem Alike.answers (h : Alike root tree after) (opened : IsOpen base root tree) :
    AnswersAlike base tree after := by
  intro unit ordinal plain
  have wf := opened.wellFormed
  have opened' := h.isOpen opened
  have listed : attempts base unit ordinal after = attempts base unit ordinal tree := by
    by_cases clear : tree.Clear root [unit.name, toString ordinal]
    · rw [attempts_of_clear opened plain clear,
        attempts_of_clear opened' plain (h.clear_iff.2 clear)]
      congr 1
      apply attemptsAmong_congr (FileTree.nodup_childNames h.wellFormed.unique _)
        (FileTree.nodup_childNames wf.unique _)
      intro name stands
      rw [FileTree.mem_childNames_iff h.wellFormed.unique, FileTree.mem_childNames_iff wf.unique,
        h.below (by simp)]
      rintro rest rfl
      exact stands (attempt?_draft rest)
    · rw [attempts_of_blocked opened plain clear,
        attempts_of_blocked opened' plain (mt h.clear_iff.1 clear)]
  refine ⟨listed, ?_, fun attempt => ?_⟩
  · unfold CandidateStore.latest
    simp only [store, listed]
  · by_cases clear : tree.Clear root [unit.name, toString ordinal]
    · rw [get_of_clear opened plain clear,
        get_of_clear opened' plain (h.clear_iff.2 clear),
        h.below (by simp) (nameOf_ne attempt)]
    · rw [get_of_blocked opened plain clear,
        get_of_blocked opened' plain (mt h.clear_iff.1 clear)]

end CandidateFiles

end Graft
