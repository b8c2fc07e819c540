import Graft.Proofs.Store.Answers

/-!
What putting a candidate into the store in files does, whatever lies among the candidates. Until the
highest attempt is listed, the one that comes next is behind all that are, so nothing has its name, and
the text becomes one file more (`CandidateFiles.put_of_clear`). It is refused only where a file is in
the place of a directory, and never because an attempt is there already
(`CandidateFiles.put_adds_one_file`).
-/

namespace Graft

open Text

namespace CandidateFiles

variable {base : String} {tree grown after : FileTree} {root directory : Location} {unit : UnitId}
  {ordinal : Nat} {made : List FileStep}

/-! The attempt that comes next -/

theorem getLast?_of_sorted {listed : List Nat} (sorted : listed.Pairwise (· ≤ ·)) :
    listed.getLast? = listed.max? := by
  obtain rfl | ⟨front, last, rfl⟩ := listed.eq_nil_or_concat
  · rfl
  · rw [List.concat_eq_append] at sorted ⊢
    rw [List.getLast?_concat, eq_comm, List.max?_eq_some_iff]
    refine ⟨List.mem_concat_self, ?_⟩
    intro n mem
    obtain before | same := List.mem_append.1 mem
    · exact (List.pairwise_append.1 sorted).2.2 n before last List.mem_cons_self
    · exact Nat.le_of_eq (List.mem_singleton.1 same)

theorem nextOf_of_lt {listed : List Nat} (room : listed.getLast?.getD 0 < maxUnsigned 32) :
    nextOf listed = listed.getLast?.getD 0 + 1 :=
  Nat.mod_eq_of_lt (Nat.succ_lt_succ room)

/-- Until the highest attempt is listed, the next one is behind all that are. -/
theorem nextOf_eq {names : List String} (room : ∀ n ∈ attemptsAmong names, n < maxUnsigned 32) :
    nextOf (attemptsAmong names) = (attemptsAmong names).max?.getD 0 + 1 := by
  rw [← getLast?_of_sorted (sorted_attemptsAmong names)]
  apply nextOf_of_lt
  cases last : (attemptsAmong names).getLast? with
  | none => decide
  | some n => exact room n (List.mem_of_getLast? last)

/-- Behind the highest attempt comes zero. -/
theorem nextOf_of_highest {names : List String} (full : maxUnsigned 32 ∈ attemptsAmong names) :
    nextOf (attemptsAmong names) = 0 := by
  have highest : (attemptsAmong names).max? = some (maxUnsigned 32) := by
    refine List.max?_eq_some_iff.2 ⟨full, ?_⟩
    intro n listed
    obtain ⟨name, -, stands⟩ := mem_attemptsAmong_iff.1 listed
    exact le_of_attempt? stands
  rw [nextOf, getLast?_of_sorted (sorted_attemptsAmong names), highest]
  rfl

theorem nextOf_le (listed : List Nat) : nextOf listed ≤ maxUnsigned 32 :=
  Nat.le_of_lt_succ (Nat.mod_lt _ (by decide))

theorem lt_nextOf {names : List String} (room : ∀ n ∈ attemptsAmong names, n < maxUnsigned 32)
    {n : Nat} (listed : n ∈ attemptsAmong names) : n < nextOf (attemptsAmong names) := by
  rw [nextOf_eq room]
  cases highest : (attemptsAmong names).max? with
  | none =>
      rw [List.max?_eq_none_iff.1 highest] at listed
      cases listed
  | some last => exact Nat.lt_succ_of_le ((List.max?_eq_some_iff.1 highest).2 n listed)

/-- Nothing has the name of the attempt that comes next. -/
theorem node?_next (unique : (tree.nodes.map (·.1)).Nodup) (directory : Location)
    (room : ∀ n ∈ attemptsAmong (tree.childNames directory), n < maxUnsigned 32) :
    tree.node? (directory ++ [nameOf (nextOf (attemptsAmong (tree.childNames directory)))]) =
      none := by
  by_contra there
  have named := (FileTree.mem_childNames_iff unique).2 (Option.ne_none_iff_exists'.1 there)
  have listed := mem_attemptsAmong_iff.2 ⟨_, named, attempt?_nameOf (nextOf_le _)⟩
  exact Nat.lt_irrefl _ (lt_nextOf room listed)

/-- An attempt behind all that are listed is listed last. -/
theorem attemptsAmong_concat {names : List String} {name : String} {attempt : Nat}
    (stands : attempt? name = some attempt) (last : ∀ n ∈ attemptsAmong names, n ≤ attempt) :
    attemptsAmong (names ++ [name]) = attemptsAmong names ++ [attempt] := by
  have sorted : (attemptsAmong names ++ [attempt]).Pairwise (· ≤ ·) := by
    rw [List.pairwise_append]
    refine ⟨sorted_attemptsAmong names, List.pairwise_singleton _ _, ?_⟩
    intro n listed other mem
    obtain rfl := List.mem_singleton.1 mem
    exact last n listed
  have perm : (attemptsAmong (names ++ [name])).Perm (attemptsAmong names ++ [attempt]) := by
    have listed : (names ++ [name]).filterMap attempt? = names.filterMap attempt? ++ [attempt] := by
      simp [stands]
    rw [attemptsAmong, listed]
    exact (List.mergeSort_perm _ _).trans ((List.mergeSort_perm _ _).symm.append_right _)
  exact perm.eq_of_pairwise (fun _ _ _ _ => Nat.le_antisymm) (sorted_attemptsAmong _) sorted

/-! The steps that put a candidate -/

/-- The steps that put a candidate: it is written under the name of a draft, in a directory that has
been made, and then moved to its place. -/
def putSteps (made : List FileStep) (directory : Location) (draft : String) (attempt : Nat)
    (text : String) : List FileStep :=
  made ++ FileTree.addSteps (directory ++ [draft]) (directory ++ [nameOf attempt]) (encode text) ++
    [.flush directory]

theorem plan_zero (base : String) (unit : UnitId) (text : String) (tree : FileTree) :
    plan base unit 0 text tree = .error .invalidOrdinal := by
  unfold plan
  rw [if_pos rfl]
  rfl

theorem plan_of_blocked (opened : IsOpen base root tree) (plain : Path.IsName unit.name)
    (positive : ordinal ≠ 0) (blocked : ¬tree.Clear root [unit.name, toString ordinal])
    (text : String) : ∃ error, plan base unit ordinal text tree = .error (failed error) := by
  unfold plan
  rw [if_neg positive, attempts_of_blocked opened plain blocked]
  cases tree.planDirectory (directoryOf base unit ordinal) with
  | error error => exact ⟨error, rfl⟩
  | ok planned => exact ⟨.notDirectory, rfl⟩

/-- Where no file is in the way, the attempt that comes next is planned. -/
theorem plan_of_clear (opened : IsOpen base root tree) (plain : Path.IsName unit.name)
    (positive : ordinal ≠ 0) (clear : tree.Clear root [unit.name, toString ordinal])
    (text : String) :
    ∃ made, tree.Prepares (root ++ [unit.name, toString ordinal]) made ∧
      plan base unit ordinal text tree =
        .ok (nextOf (attemptsAmong (tree.childNames (root ++ [unit.name, toString ordinal]))),
          tree.draft (root ++ [unit.name, toString ordinal]),
          putSteps made (root ++ [unit.name, toString ordinal])
            (tree.freshName (root ++ [unit.name, toString ordinal]) ".tmp")
            (nextOf (attemptsAmong (tree.childNames (root ++ [unit.name, toString ordinal]))))
            text) := by
  obtain ⟨made, planned, prepares⟩ := exists_plan_of_clear opened plain clear
  refine ⟨made, prepares, ?_⟩
  unfold plan
  rw [if_neg positive, planned, attempts_of_clear opened plain clear]
  rfl

/-- The steps can all be done when neither the draft nor the candidate is there. -/
theorem perform_putSteps (wf : tree.WellFormed) (prepares : tree.Prepares directory made)
    {draft : String} {attempt : Nat} (free : tree.node? (directory ++ [draft]) = none)
    (other : nameOf attempt ≠ draft) (vacant : tree.node? (directory ++ [nameOf attempt]) = none)
    (text : String) :
    ∃ grown after, tree.perform made = (grown, none) ∧ tree.Extends grown ∧
      grown.node? directory = some .directory ∧
      tree.perform (putSteps made directory draft attempt text) = (after, none) ∧
      grown.Placed (directory ++ [nameOf attempt]) (.file (encode text) false) after := by
  obtain ⟨grown, finished, more, wf', there⟩ := prepares.perform wf
  have below (name : String) : grown.node? (directory ++ [name]) = tree.node? (directory ++ [name]) :=
    prepares.node?_below (List.prefix_refl _) finished (by simp)
  have parent (name : String) : grown.node? (directory ++ [name]).dropLast = some .directory := by
    rwa [List.dropLast_concat]
  obtain ⟨after, done, placed⟩ := FileTree.perform_placeSteps wf' ((below draft).trans free)
    (parent draft) (by simp) (parent (nameOf attempt)) (by simpa using other) (encode text)
    (.inr ⟨rfl, (below _).trans vacant⟩)
  refine ⟨grown, after, finished, more, there, ?_, placed⟩
  rw [putSteps, List.append_assoc, FileTree.perform_append_of_done finished, FileTree.addSteps,
    FileTree.perform_append_of_done done]
  rfl

/-- What is planned is done when nothing has the name of the attempt. -/
theorem put_of_plan (wf : tree.WellFormed) (prepares : tree.Prepares directory made) {attempt : Nat}
    {text : String} (planned : plan base unit ordinal text tree = .ok (attempt, tree.draft directory,
      putSteps made directory (tree.freshName directory ".tmp") attempt text))
    (vacant : tree.node? (directory ++ [nameOf attempt]) = none) :
    ∃ grown after, tree.perform made = (grown, none) ∧ tree.Extends grown ∧
      grown.node? directory = some .directory ∧
      put base unit ordinal text tree = (.ok attempt, after) ∧
      grown.Placed (directory ++ [nameOf attempt]) (.file (encode text) false) after := by
  obtain ⟨n, named, -⟩ := FileTree.exists_freshName tree directory ".tmp"
  obtain ⟨grown, after, finished, more, there, done, placed⟩ :=
    perform_putSteps wf prepares (FileTree.node?_draft wf.unique directory)
      (by rw [named]; exact nameOf_ne _ _) vacant text
  refine ⟨grown, after, finished, more, there, ?_, placed⟩
  unfold put
  simp only [planned, FileTree.carryOut_of_done done]

/-- What has been done of the steps at any moment has changed no file. -/
theorem node?_of_cut_putSteps (wf : tree.WellFormed) (prepares : tree.Prepares directory made)
    {draft : String} {attempt : Nat} (free : tree.node? (directory ++ [draft]) = none)
    (vacant : tree.node? (directory ++ [nameOf attempt]) = none) {text : String}
    {done : List FileStep} (cut : Cut (putSteps made directory draft attempt text) done)
    {location : Location} {content : Bytes} {executable : Bool}
    (found : tree.node? location = some (.file content executable)) :
    (tree.perform done).1.node? location = some (.file content executable) ∧
      ((tree.perform done).1.erase (directory ++ [draft])).node? location =
        some (.file content executable) := by
  have notDraft : location ≠ directory ++ [draft] := by
    rintro rfl
    rw [free] at found
    cases found
  have notTarget : location ≠ directory ++ [nameOf attempt] := by
    rintro rfl
    rw [vacant] at found
    cases found
  have spared : ∀ step ∈ putSteps made directory draft attempt text, step.Spares location := by
    intro step mem
    simp only [putSteps, FileTree.addSteps, FileTree.placeSteps, List.mem_append, List.mem_cons,
      List.not_mem_nil, or_false] at mem
    obtain (early | rfl | rfl | rfl | rfl) | rfl := mem
    · exact prepares.spares wf found step early
    · exact notDraft
    · exact notDraft
    · trivial
    · exact ⟨notDraft, notTarget⟩
    · trivial
  have kept := FileTree.node?_perform_of_spares tree (cut.spares spared)
  have inside : location ≠ [] := by
    rintro rfl
    cases found
  refine ⟨kept.trans found, ?_⟩
  rw [FileTree.node?_erase _ _ _ inside, if_neg notDraft, kept, found]

/-! What is there when a candidate has been put -/

/-- That a tree has one file more than another one, and every other file as it was. -/
structure AddsFile (tree : FileTree) (target : Location) (content : Bytes) (after : FileTree) :
    Prop where
  vacant : tree.node? target = none
  placed : after.node? target = some (.file content false)
  others : ∀ {location}, location ≠ target → ∀ content executable,
    after.node? location = some (.file content executable) ↔
      tree.node? location = some (.file content executable)

theorem addsFile_of_placed {target : Location} {content : Bytes}
    (vacant : tree.node? target = none) (more : tree.Extends grown)
    (placed : grown.Placed target (.file content false) after) :
    AddsFile tree target content after := by
  refine ⟨vacant, by rw [placed.node, if_pos rfl], ?_⟩
  intro location other content executable
  rw [placed.node, if_neg other]
  exact ⟨more.file, more.kept⟩

/-- The attempts of a directory are those of before and the one that was added. -/
theorem attemptsAmong_of_placed (wf : tree.WellFormed) (wf' : after.WellFormed)
    (below : ∀ name, grown.node? (directory ++ [name]) = tree.node? (directory ++ [name]))
    {attempt : Nat} {node : FileNode} (placed : grown.Placed (directory ++ [nameOf attempt]) node after)
    (stands : attempt? (nameOf attempt) = some attempt)
    (vacant : tree.node? (directory ++ [nameOf attempt]) = none)
    (last : ∀ n ∈ attemptsAmong (tree.childNames directory), n ≤ attempt) :
    attemptsAmong (after.childNames directory) =
      attemptsAmong (tree.childNames directory) ++ [attempt] := by
  have absent : nameOf attempt ∉ tree.childNames directory := by
    rw [FileTree.mem_childNames_iff wf.unique, vacant]
    exact nofun
  have once : (tree.childNames directory ++ [nameOf attempt]).Nodup := by
    rw [List.nodup_append_comm]
    exact List.nodup_cons.2 ⟨absent, FileTree.nodup_childNames wf.unique directory⟩
  rw [← attemptsAmong_concat stands last]
  apply attemptsAmong_congr (FileTree.nodup_childNames wf'.unique directory) once
  intro name _
  rw [List.mem_append, List.mem_singleton, FileTree.mem_childNames_iff wf'.unique,
    FileTree.mem_childNames_iff wf.unique, placed.node, below]
  by_cases same : name = nameOf attempt
  · simp [same]
  · simp [same]

theorem isOpen_of_placed (opened : IsOpen base root tree) (more : tree.Extends grown)
    {target : Location} {node : FileNode} (placed : grown.Placed target node after)
    (vacant : grown.node? target = none) : IsOpen base root after := by
  have noDirectory : grown.node? target ≠ some .directory := by
    rw [vacant]
    exact nofun
  have kept {location : Location} (there : tree.node? location = some .directory) :
      after.node? location = some .directory := placed.keeps noDirectory (more.kept there)
  exact ⟨placed.wellFormed,
    opened.leads.mono opened.there (placed.current.trans more.current) kept, kept opened.there⟩

/-- Where no file is in the way, a text becomes one file more, and the attempt that comes next. -/
theorem put_of_clear (opened : IsOpen base root tree) (plain : Path.IsName unit.name)
    (positive : ordinal ≠ 0) (clear : tree.Clear root [unit.name, toString ordinal])
    {listed : List Nat} (answered : attempts base unit ordinal tree = .ok listed)
    (room : ∀ n ∈ listed, n < maxUnsigned 32) (text : String) :
    ∃ after, put base unit ordinal text tree = (.ok (nextOf listed), after) ∧
      AddsFile tree (root ++ [unit.name, toString ordinal] ++ [nameOf (nextOf listed)])
        (encode text) after ∧
      get base unit ordinal (nextOf listed) after = .ok text ∧
      attempts base unit ordinal after = .ok (listed ++ [nextOf listed]) := by
  obtain rfl := Except.ok.inj ((attempts_of_clear opened plain clear).symm.trans answered)
  have wf := opened.wellFormed
  obtain ⟨made, prepares, planned⟩ := plan_of_clear opened plain positive clear text
  have vacant := node?_next wf.unique (root ++ [unit.name, toString ordinal]) room
  obtain ⟨grown, after, finished, more, there, stored, placed⟩ :=
    put_of_plan wf prepares planned vacant
  have below (name : String) : grown.node? (root ++ [unit.name, toString ordinal] ++ [name]) =
      tree.node? (root ++ [unit.name, toString ordinal] ++ [name]) :=
    prepares.node?_below (List.prefix_refl _) finished (by simp)
  have opened' := isOpen_of_placed opened more placed ((below _).trans vacant)
  have there' : after.node? (root ++ [unit.name, toString ordinal]) = some .directory := by
    rw [placed.node, if_neg (by simp), there]
  have clear' := FileTree.clear_of_there placed.wellFormed there'
  refine ⟨after, stored, addsFile_of_placed vacant more placed, ?_, ?_⟩
  · rw [get_of_clear opened' plain clear', placed.node, if_pos rfl, FileTree.textOf_encode]
  · rw [attempts_of_clear opened' plain clear',
      attemptsAmong_of_placed wf placed.wellFormed below placed
        (attempt?_nameOf (nextOf_le _)) vacant fun n listed => Nat.le_of_lt (lt_nextOf room listed)]

/-- What is planned is planned for a function with no file in the way. -/
theorem of_plan_eq_ok (opened : IsOpen base root tree) (plain : Path.IsName unit.name)
    {text : String} {attempt : Nat} {draft : Location} {steps : List FileStep}
    (planned : plan base unit ordinal text tree = .ok (attempt, draft, steps)) :
    ordinal ≠ 0 ∧ tree.Clear root [unit.name, toString ordinal] := by
  have positive : ordinal ≠ 0 := by
    rintro rfl
    rw [plan_zero] at planned
    cases planned
  refine ⟨positive, ?_⟩
  by_contra blocked
  obtain ⟨error, refused⟩ := plan_of_blocked opened plain positive blocked text
  rw [refused] at planned
  cases planned

/-- Whatever lies among the candidates, a put stores its text as one file more or changes nothing.
It stores the text at every function with no file in the place of its directory, as the attempt behind
all that are listed, and never finds that attempt there already. Where its steps end on the way, the
files that were there are as they were, whether the draft is left behind or removed. -/
theorem put_adds_one_file (opened : IsOpen base root tree) (plain : Path.IsName unit.name)
    (room : ∀ listed, attempts base unit ordinal tree = .ok listed →
      ∀ n ∈ listed, n < maxUnsigned 32) (text : String) :
    ((ordinal = 0 ∨ ¬tree.Clear root [unit.name, toString ordinal]) ∧
        (∃ error, (∀ unit ordinal attempt, error ≠ .conflict unit ordinal attempt) ∧
          put base unit ordinal text tree = (.error error, tree)) ∨
      ordinal ≠ 0 ∧ tree.Clear root [unit.name, toString ordinal] ∧
        ∃ listed n after, attempts base unit ordinal tree = .ok listed ∧
          n = listed.max?.getD 0 + 1 ∧
          put base unit ordinal text tree = (.ok n, after) ∧
          AddsFile tree (root ++ [unit.name, toString ordinal] ++ [nameOf n]) (encode text) after ∧
          get base unit ordinal n after = .ok text ∧
          attempts base unit ordinal after = .ok (listed ++ [n])) ∧
      ∀ attempt draft steps done, plan base unit ordinal text tree = .ok (attempt, draft, steps) →
        Cut steps done → ∀ location content executable,
          tree.node? location = some (.file content executable) →
          (tree.perform done).1.node? location = some (.file content executable) ∧
            ((tree.perform done).1.erase draft).node? location =
              some (.file content executable) := by
  constructor
  · by_cases zero : ordinal = 0
    · left
      subst zero
      refine ⟨.inl rfl, .invalidOrdinal, nofun, ?_⟩
      unfold put
      rw [plan_zero]
    · by_cases clear : tree.Clear root [unit.name, toString ordinal]
      · right
        have answered := attempts_of_clear opened plain clear
        obtain ⟨after, stored, adds, got, listed⟩ :=
          put_of_clear opened plain zero clear answered (room _ answered) text
        exact ⟨zero, clear, _, _, after, answered, nextOf_eq (room _ answered), stored, adds, got,
          listed⟩
      · left
        obtain ⟨error, refused⟩ := plan_of_blocked opened plain zero clear text
        refine ⟨.inr clear, failed error, nofun, ?_⟩
        unfold put
        rw [refused]
  · intro attempt draft steps done planned cut location content executable found
    obtain ⟨positive, clear⟩ := of_plan_eq_ok opened plain planned
    obtain ⟨made, prepares, planned'⟩ := plan_of_clear opened plain positive clear text
    obtain ⟨rfl, same⟩ := Prod.mk.inj (Except.ok.inj (planned'.symm.trans planned))
    obtain ⟨rfl, rfl⟩ := Prod.mk.inj same
    have wf := opened.wellFormed
    have vacant := node?_next wf.unique (root ++ [unit.name, toString ordinal])
      (room _ (attempts_of_clear opened plain clear))
    exact node?_of_cut_putSteps wf prepares (FileTree.node?_draft wf.unique _) vacant cut found

theorem isOpen_strayTree (stray : String) : IsOpen "c" ["c"] (strayTree stray) :=
  ⟨wellFormed_strayTree stray, ⟨by decide, .inl rfl⟩, rfl⟩

theorem attemptsAmong_strayTree :
    attemptsAmong ((strayTree "007.txt").childNames ["c", "u", "1"]) = [7] := by
  have names : (strayTree "007.txt").childNames ["c", "u", "1"] = ["007.txt"] := by rfl
  have seven : attempt? "007.txt" = some 7 := by rfl
  simp [names, attemptsAmong, seven]

/-- A file whose name is a number with zeros before it counts for the attempt that comes next. -/
theorem put_adds_one_file_behind_stray :
    (∃ root, IsOpen "c" root (strayTree "007.txt")) ∧ Path.IsName "u" ∧
      attempts "c" ⟨"u"⟩ 1 (strayTree "007.txt") = .ok [7] ∧
      ∃ after, put "c" ⟨"u"⟩ 1 "text" (strayTree "007.txt") = (.ok 8, after) ∧
        get "c" ⟨"u"⟩ 1 8 after = .ok "text" ∧ attempts "c" ⟨"u"⟩ 1 after = .ok [7, 8] := by
  have opened := isOpen_strayTree "007.txt"
  have plain : Path.IsName "u" := by constructor <;> decide
  have there : (strayTree "007.txt").node? (["c"] ++ ["u", toString 1]) = some .directory := rfl
  have answered : attempts "c" ⟨"u"⟩ 1 (strayTree "007.txt") = .ok [7] := by
    rw [attempts_of_there (leadsTo_strayTree "007.txt") there, attemptsAmong_strayTree]
  have room : ∀ listed, attempts "c" ⟨"u"⟩ 1 (strayTree "007.txt") = .ok listed →
      ∀ n ∈ listed, n < maxUnsigned 32 := by
    intro listed same n mem
    obtain rfl := Except.ok.inj (answered.symm.trans same)
    obtain rfl := List.mem_singleton.1 mem
    decide
  refine ⟨⟨_, opened⟩, plain, answered, ?_⟩
  obtain ⟨⟨blocked, -⟩ | ⟨-, -, listed, n, after, same, rfl, stored, -, got, added⟩, -⟩ :=
    put_adds_one_file opened plain room "text"
  · have clear : (strayTree "007.txt").Clear ["c"] ["u", toString 1] :=
      FileTree.clear_of_there opened.wellFormed there
    obtain zero | file := blocked
    · cases zero
    · exact absurd clear file
  · obtain rfl := Except.ok.inj (answered.symm.trans same)
    exact ⟨after, stored, got, added⟩

end CandidateFiles

end Graft
