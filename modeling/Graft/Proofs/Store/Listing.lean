import Mathlib.Data.List.Pairwise
import Graft.Proofs.Files.Tree
import Graft.Store.Files

/-!
Which attempts the store in files lists. The name of an attempt stands for that attempt
(`attempt?_nameOf`), but other names stand for it as well, and a directory may have such a name.
`CandidateFiles.tellsOneStory_iff` says that the attempts that are listed are those that can be read
exactly when no such entry is there.
-/

namespace Graft

open Text

namespace Path

theorem cutName_append {stem extension : String} (filled : stem ≠ "")
    (h : '.' ∉ extension.toList) : cutName (stem ++ "." ++ extension) = (stem, some extension) := by
  have chars : (stem ++ "." ++ extension).toList = stem.toList ++ '.' :: extension.toList := by simp
  cases first : stem.toList with
  | nil => exact absurd (String.toList_eq_nil_iff.1 first) filled
  | cons c rest =>
      have whole : stem = String.ofList (c :: rest) := by rw [← first, String.ofList_toList]
      rw [cutName, chars, cutLast?_append _ h, first]
      simp [whole]

end Path

namespace CandidateFiles

variable {base : String} {unit : UnitId} {ordinal : Nat} {tree : FileTree} {directory : Location}

theorem nameOf_eq (attempt : Nat) : nameOf attempt = attempt.repr ++ "." ++ "txt" := by
  simp [nameOf, String.append_assoc, toString]

theorem nameOf_injective {a b : Nat} (h : nameOf a = nameOf b) : a = b := by
  rw [nameOf_eq, nameOf_eq, String.append_left_inj, String.append_left_inj] at h
  exact repr_injective h

theorem isName_nameOf (attempt : Nat) : Path.IsName (nameOf attempt) := by
  apply Path.isName_of_mem (c := 't')
  · intro c mem
    simp only [nameOf_eq, String.toList_append, List.mem_append] at mem
    obtain (digit | dot) | letter := mem
    · have := isDigit_of_mem_repr digit
      constructor <;> rintro rfl <;> cases this
    · obtain rfl : c = '.' := by simpa using dot
      decide
    · obtain rfl | rfl | rfl : c = 't' ∨ c = 'x' ∨ c = 't' := by simpa using letter
      all_goals decide
  · simp [nameOf_eq]
  · decide

theorem nameOf_ne (attempt : Nat) (rest : String) : nameOf attempt ≠ ".tmp" ++ rest := by
  intro same
  obtain ⟨first, digits, chars, digit, -⟩ := exists_toList_repr attempt
  have start := congrArg (List.head? ∘ String.toList) same
  simp only [nameOf_eq, Function.comp, String.toList_append, chars, List.cons_append,
    List.head?_cons] at start
  obtain rfl : first = '.' := by simpa using start
  cases digit

/-- The name of an attempt stands for it. -/
theorem attempt?_nameOf {attempt : Nat} (h : attempt ≤ maxUnsigned 32) :
    attempt? (nameOf attempt) = some attempt := by
  have filled : attempt.repr ≠ "" := by
    intro empty
    exact toList_repr_ne_nil attempt (by rw [empty]; rfl)
  rw [attempt?, nameOf_eq, Path.cutName_append filled (by decide)]
  exact readNat?_repr h

theorem le_of_attempt? {name : String} {attempt : Nat} (h : attempt? name = some attempt) :
    attempt ≤ maxUnsigned 32 := by
  unfold attempt? at h
  split at h
  · exact le_of_readNat? h
  · cases h

theorem mem_attemptsAmong_iff {names : List String} {attempt : Nat} :
    attempt ∈ attemptsAmong names ↔ ∃ name ∈ names, attempt? name = some attempt := by
  rw [attemptsAmong, List.mem_mergeSort, List.mem_filterMap]

theorem sorted_attemptsAmong (names : List String) : (attemptsAmong names).Pairwise (· ≤ ·) := by
  have order : (attemptsAmong names).Pairwise (fun a b => decide (a ≤ b) = true) := by
    apply List.pairwise_mergeSort
    · intro a b c
      simpa using Nat.le_trans
    · intro a b
      simpa using Nat.le_total a b
  exact order.imp of_decide_eq_true

/-- When no two names stand for one attempt, every attempt is listed once. -/
theorem pairwise_attemptsAmong {names : List String}
    (distinct : names.Pairwise fun a b => ∀ n, attempt? a = some n → attempt? b ≠ some n) :
    (attemptsAmong names).Pairwise (· < ·) := by
  have once : (attemptsAmong names).Nodup := by
    rw [attemptsAmong, (List.mergeSort_perm _ _).nodup_iff, List.Nodup, List.pairwise_filterMap]
    refine distinct.imp ?_
    rintro a b apart n first m second rfl
    exact apart n first second
  exact ((sorted_attemptsAmong names).and once).imp fun both => Nat.lt_of_le_of_ne both.1 both.2

/-- Two names that stand for one attempt, when it is listed once, are the same. -/
theorem eq_of_attempt? {names : List String} (ascending : (attemptsAmong names).Pairwise (· < ·))
    {a b : String} {n : Nat} (first : a ∈ names) (second : b ∈ names)
    (one : attempt? a = some n) (other : attempt? b = some n) : a = b := by
  have once : (names.filterMap attempt?).Nodup := by
    rw [← (List.mergeSort_perm (names.filterMap attempt?) _).nodup_iff]
    exact ascending.imp Nat.ne_of_lt
  rw [List.Nodup, List.pairwise_filterMap] at once
  by_contra differ
  have symmetric : Std.Symm fun x y => ∀ p, attempt? x = some p → ∀ q, attempt? y = some q → p ≠ q :=
    ⟨fun x y apart p left q right same => apart q right p left same.symm⟩
  exact once.forall first second differ n one n other rfl

/-! What the store answers about a directory that is there -/

/-- That a candidate is found: there is a file, whatever is in it. -/
def Finds (base : String) (unit : UnitId) (ordinal attempt : Nat) (tree : FileTree) : Prop :=
  get base unit ordinal attempt tree ≠ .error (.notFound unit ordinal attempt) ∧
    get base unit ordinal attempt tree ≠ .error (failed .isDirectory)

/-- That the answers about one function agree: every attempt is listed once, in ascending order from
one on, and is listed exactly when it is found. -/
structure TellsOneStory (base : String) (unit : UnitId) (ordinal : Nat) (tree : FileTree)
    (listed : List Nat) : Prop where
  attempts : attempts base unit ordinal tree = .ok listed
  ascending : listed.Pairwise (· < ·)
  positive : ∀ n ∈ listed, 1 ≤ n
  found : ∀ n ≤ maxUnsigned 32, n ∈ listed ↔ Finds base unit ordinal n tree
  stored : ∀ n, (store base).isStored unit ordinal n tree = .ok (decide (n ∈ listed))

/-- What getting an attempt answers about the node that has its name. -/
theorem get_eq (wf : tree.WellFormed)
    (leads : tree.LeadsTo (directoryOf base unit ordinal) directory)
    (free : ∀ content executable, tree.node? directory ≠ some (.file content executable))
    (attempt : Nat) :
    get base unit ordinal attempt tree =
      match FileTree.textOf (tree.node? (directory ++ [nameOf attempt])) with
      | .ok text => .ok text
      | .error .notFound => .error (.notFound unit ordinal attempt)
      | .error error => .error (failed error) := by
  have found := leads.readText_join wf free (isName_nameOf attempt)
  unfold get
  cases read : FileTree.textOf (tree.node? (directory ++ [nameOf attempt])) with
  | ok text => simp only [found, read]
  | error error => cases error <;> simp only [found, read]

theorem checkPath_directoryOf (leads : tree.LeadsTo (directoryOf base unit ordinal) directory) :
    FileTree.checkPath (directoryOf base unit ordinal) = .ok () := by
  have plain := Path.isName_repr ordinal
  refine FileTree.checkPath_join ?_ plain
  intro mem
  exact leads.zero ((Path.mem_toList_join plain.slash (by decide)).2 (.inl mem))

theorem attempts_of_there (leads : tree.LeadsTo (directoryOf base unit ordinal) directory)
    (there : tree.node? directory = some .directory) :
    attempts base unit ordinal tree = .ok (attemptsAmong (tree.childNames directory)) := by
  unfold attempts
  rw [leads.list (checkPath_directoryOf leads), there]

theorem finds_iff (wf : tree.WellFormed)
    (leads : tree.LeadsTo (directoryOf base unit ordinal) directory)
    (there : tree.node? directory = some .directory) {attempt : Nat} :
    Finds base unit ordinal attempt tree ↔
      ∃ content executable,
        tree.node? (directory ++ [nameOf attempt]) = some (.file content executable) := by
  rw [Finds, get_eq wf leads (by rw [there]; exact nofun)]
  cases found : tree.node? (directory ++ [nameOf attempt]) with
  | none => simp [FileTree.textOf, FileTree.contentOf, bind, Except.bind]
  | some node =>
      cases node with
      | directory => simp [FileTree.textOf, FileTree.contentOf, bind, Except.bind]
      | file content executable =>
          cases text : decode? content with
          | none => simp [FileTree.textOf, FileTree.contentOf, bind, Except.bind, text, failed,
              FileError.message, throw, throwThe, MonadExceptOf.throw]
          | some text => simp [FileTree.textOf, FileTree.contentOf, bind, Except.bind, text, pure,
              Except.pure]

/-- The answers agree exactly when every entry whose name stands for an attempt is a file, and has
the name of that attempt. -/
theorem tellsOneStory_iff (wf : tree.WellFormed)
    (leads : tree.LeadsTo (directoryOf base unit ordinal) directory)
    (there : tree.node? directory = some .directory) :
    (∃ listed, TellsOneStory base unit ordinal tree listed) ↔
      ∀ name node n, tree.node? (directory ++ [name]) = some node → attempt? name = some n →
        1 ≤ n ∧ name = nameOf n ∧ node ≠ .directory := by
  have answered := attempts_of_there leads there
  have entry {name : String} {node : FileNode}
      (found : tree.node? (directory ++ [name]) = some node) : name ∈ tree.childNames directory :=
    (FileTree.mem_childNames_iff wf.unique).2 ⟨node, found⟩
  constructor
  · rintro ⟨listed, story⟩ name node n found stands
    obtain rfl := Except.ok.inj (answered.symm.trans story.attempts)
    have isListed : n ∈ attemptsAmong (tree.childNames directory) :=
      mem_attemptsAmong_iff.2 ⟨name, entry found, stands⟩
    have small := le_of_attempt? stands
    obtain ⟨content, executable, file⟩ :=
      (finds_iff wf leads there).1 ((story.found n small).1 isListed)
    have same : name = nameOf n :=
      eq_of_attempt? story.ascending (entry found) (entry file) stands (attempt?_nameOf small)
    refine ⟨story.positive n isListed, same, ?_⟩
    rw [← same, found] at file
    rw [Option.some.inj file]
    exact nofun
  · intro tidy
    have tidyNames : ∀ name ∈ tree.childNames directory, ∀ n, attempt? name = some n →
        1 ≤ n ∧ name = nameOf n := by
      intro name mem n stands
      obtain ⟨node, found⟩ := (FileTree.mem_childNames_iff wf.unique).1 mem
      obtain ⟨positive, same, -⟩ := tidy name node n found stands
      exact ⟨positive, same⟩
    refine ⟨attemptsAmong (tree.childNames directory), answered, ?_, ?_, ?_, ?_⟩
    · apply pairwise_attemptsAmong
      refine List.Pairwise.imp_of_mem ?_ (FileTree.nodup_childNames wf.unique directory)
      intro a b first second differ n one other
      exact differ ((tidyNames a first n one).2.trans (tidyNames b second n other).2.symm)
    · intro n mem
      obtain ⟨name, mem, stands⟩ := mem_attemptsAmong_iff.1 mem
      exact (tidyNames name mem n stands).1
    · intro n small
      rw [mem_attemptsAmong_iff, finds_iff wf leads there]
      constructor
      · rintro ⟨name, mem, stands⟩
        obtain ⟨node, found⟩ := (FileTree.mem_childNames_iff wf.unique).1 mem
        obtain ⟨-, rfl, file⟩ := tidy name node n found stands
        cases node with
        | directory => exact absurd rfl file
        | file content executable => exact ⟨content, executable, found⟩
      · rintro ⟨content, executable, found⟩
        exact ⟨nameOf n, entry found, attempt?_nameOf small⟩
    · intro n
      simp [CandidateStore.isStored, store, answered, bind, Except.bind, pure, Except.pure]

/-- A store in which one file of a name lies among the candidates for a function. -/
def strayTree (name : String) : FileTree :=
  ((((FileTree.empty []).set ["c"] .directory).set ["c", "u"] .directory).set ["c", "u", "1"]
    .directory).set ["c", "u", "1", name] (.file [] false)

theorem node?_strayTree (stray name : String) :
    (strayTree stray).node? (["c", "u", "1"] ++ [name]) =
      if name = stray then some (.file [] false) else none := by
  have inside : ["c", "u", "1"] ++ [name] ≠ [] := by simp
  simp only [strayTree, FileTree.node?_set _ _ _ _ inside]
  simp [FileTree.node?, FileTree.empty]

theorem wellFormed_strayTree (stray : String) : (strayTree stray).WellFormed := by
  apply FileTree.WellFormed.set _ (by simp) (by rfl) (by intro there; cases there)
  apply FileTree.WellFormed.set _ (by simp) (by rfl) (fun _ => rfl)
  apply FileTree.WellFormed.set _ (by simp) (by rfl) (fun _ => rfl)
  apply FileTree.WellFormed.set _ (by simp) (by rfl) (fun _ => rfl)
  exact FileTree.wellFormed_empty []

theorem leadsTo_strayTree (stray : String) :
    (strayTree stray).LeadsTo (directoryOf "c" ⟨"u"⟩ 1) ["c", "u", "1"] :=
  ⟨by decide, .inl rfl⟩

theorem tellsOneStory_of_one_file : (strayTree "1.txt").WellFormed ∧
    (strayTree "1.txt").LeadsTo (directoryOf "c" ⟨"u"⟩ 1) ["c", "u", "1"] ∧
    (strayTree "1.txt").node? ["c", "u", "1"] = some .directory ∧
    ∃ listed, TellsOneStory "c" ⟨"u"⟩ 1 (strayTree "1.txt") listed := by
  have wf := wellFormed_strayTree "1.txt"
  have leads := leadsTo_strayTree "1.txt"
  refine ⟨wf, leads, rfl, (tellsOneStory_iff wf leads rfl).2 ?_⟩
  intro name node n found stands
  rw [node?_strayTree] at found
  split at found
  · next same =>
      subst same
      obtain rfl := Option.some.inj found
      have one : attempt? "1.txt" = some 1 := by rfl
      obtain rfl := Option.some.inj (one.symm.trans stands)
      exact ⟨Nat.le_refl 1, rfl, nofun⟩
  · cases found

/-- A file whose name only reads as the number of an attempt is listed and cannot be got. -/
theorem not_always_one_story :
    ¬∀ (base : String) (unit : UnitId) (ordinal : Nat) (tree : FileTree) (directory : Location),
      tree.WellFormed → tree.LeadsTo (directoryOf base unit ordinal) directory →
      tree.node? directory = some .directory →
      ∃ listed, TellsOneStory base unit ordinal tree listed := by
  intro claimed
  have wf := wellFormed_strayTree "+5.txt"
  have leads := leadsTo_strayTree "+5.txt"
  obtain ⟨listed, story⟩ := claimed "c" ⟨"u"⟩ 1 (strayTree "+5.txt") ["c", "u", "1"] wf leads rfl
  obtain rfl := Except.ok.inj ((attempts_of_there leads rfl).symm.trans story.attempts)
  have isListed : 5 ∈ attemptsAmong ((strayTree "+5.txt").childNames ["c", "u", "1"]) := by
    rw [mem_attemptsAmong_iff]
    refine ⟨"+5.txt", ?_, by rfl⟩
    rw [FileTree.mem_childNames_iff wf.unique]
    exact ⟨_, by rw [node?_strayTree, if_pos rfl]⟩
  obtain ⟨content, executable, found⟩ :=
    (finds_iff wf leads rfl).1 ((story.found 5 (by decide)).1 isListed)
  rw [node?_strayTree, if_neg (by decide)] at found
  cases found

end CandidateFiles

end Graft
