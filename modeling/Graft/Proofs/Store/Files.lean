import Mathlib.Data.List.Sort
import Graft.Proofs.Identity
import Graft.Proofs.Store.Adding
import Graft.Proofs.Store.Shelves

/-!
The store in files answers as the shelves do. The files below the directory of the candidates are
the texts on the shelves (`CandidateFiles.Holds`), a text that is put becomes one file more, and so
the stores in files and in memory cannot be told apart (`CandidateFiles.sessions_agree`).
-/

namespace Graft

open Text Hash

namespace CandidateFiles

variable {base : String} {tree after : FileTree} {root : Location} {shelves : Shelves}
  {unit : UnitId} {ordinal : Nat}

/-- That the files below the directory of the candidates are the texts on the shelves. -/
structure Holds (base : String) (root : Location) (shelves : Shelves) (tree : FileTree) : Prop where
  wellFormed : tree.WellFormed
  leads : tree.LeadsTo base root
  there : tree.node? root = some .directory
  units : ∀ unit content executable,
    tree.node? (root ++ [unit]) ≠ some (.file content executable)
  ordinals : ∀ unit ordinal content executable,
    tree.node? (root ++ [unit, ordinal]) ≠ some (.file content executable)
  texts : ∀ {unit ordinal index text}, (shelves unit ordinal)[index]? = some text →
    tree.node? (root ++ [unit.name, toString ordinal, nameOf (index + 1)]) =
      some (.file (encode text) false)
  only : ∀ {unit ordinal name node},
    tree.node? (root ++ [unit.name, toString ordinal, name]) = some node →
      ∃ index, index < (shelves unit ordinal).length ∧ name = nameOf (index + 1)
  room : ∀ unit ordinal, (shelves unit ordinal).length ≤ maxUnsigned 32

namespace Holds

theorem isOpen (h : Holds base root shelves tree) : IsOpen base root tree :=
  ⟨h.wellFormed, h.leads, h.there⟩

theorem clear (h : Holds base root shelves tree) (unit : UnitId) (ordinal : Nat) :
    tree.Clear root [unit.name, toString ordinal] :=
  clear_directoryOf h.there (h.units unit.name) (h.ordinals unit.name (toString ordinal))

theorem node?_of_missing (h : Holds base root shelves tree) (unit : UnitId) (ordinal : Nat)
    {attempt : Nat} (missing : ∀ index < (shelves unit ordinal).length, attempt ≠ index + 1) :
    tree.node? (root ++ [unit.name, toString ordinal, nameOf attempt]) = none := by
  by_contra there
  obtain ⟨node, found⟩ := Option.ne_none_iff_exists'.1 there
  obtain ⟨index, short, same⟩ := h.only found
  exact missing index short (nameOf_injective same)

theorem get (h : Holds base root shelves tree) (plain : Path.IsName unit.name)
    (ordinal attempt : Nat) :
    CandidateFiles.get base unit ordinal attempt tree = shelves.get unit ordinal attempt := by
  rw [get_of_clear h.isOpen plain (h.clear unit ordinal), append_name]
  cases attempt with
  | zero =>
      rw [h.node?_of_missing unit ordinal fun index _ => by omega]
      rfl
  | succ index =>
      cases found : (shelves unit ordinal)[index]? with
      | some text =>
          rw [h.texts found, FileTree.textOf_encode]
          simp [Shelves.get, found]
      | none =>
          have long := List.getElem?_eq_none_iff.1 found
          rw [h.node?_of_missing unit ordinal fun other short => by omega]
          simp [Shelves.get, found, FileTree.textOf, FileTree.contentOf, bind, Except.bind]

/-- The names in the directory of a function are those of the attempts. -/
theorem mem_childNames_iff (h : Holds base root shelves tree) (unit : UnitId) (ordinal : Nat)
    {name : String} : name ∈ tree.childNames (root ++ [unit.name, toString ordinal]) ↔
      ∃ index, index < (shelves unit ordinal).length ∧ name = nameOf (index + 1) := by
  rw [FileTree.mem_childNames_iff h.wellFormed.unique, append_name]
  constructor
  · rintro ⟨node, found⟩
    exact h.only found
  · rintro ⟨index, short, rfl⟩
    exact ⟨_, h.texts (List.getElem?_eq_getElem short)⟩

theorem attemptsAmong_childNames (h : Holds base root shelves tree) (unit : UnitId) (ordinal : Nat) :
    attemptsAmong (tree.childNames (root ++ [unit.name, toString ordinal])) =
      List.range' 1 (shelves unit ordinal).length := by
  have stands {index : Nat} (short : index < (shelves unit ordinal).length) :
      attempt? (nameOf (index + 1)) = some (index + 1) :=
    attempt?_nameOf (Nat.le_trans short (h.room unit ordinal))
  have ascending : (attemptsAmong
      (tree.childNames (root ++ [unit.name, toString ordinal]))).Pairwise (· < ·) := by
    apply pairwise_attemptsAmong
    refine List.Pairwise.imp_of_mem ?_ (FileTree.nodup_childNames h.wellFormed.unique _)
    intro a b first second differ n one other
    obtain ⟨i, short, rfl⟩ := (h.mem_childNames_iff unit ordinal).1 first
    obtain ⟨j, short', rfl⟩ := (h.mem_childNames_iff unit ordinal).1 second
    rw [stands short] at one
    rw [stands short', ← one] at other
    rw [Option.some.inj other] at differ
    exact differ rfl
  refine ascending.eq_of_mem_iff List.pairwise_lt_range' ?_
  intro n
  rw [mem_attemptsAmong_iff, List.mem_range'_1]
  constructor
  · rintro ⟨name, mem, found⟩
    obtain ⟨index, short, rfl⟩ := (h.mem_childNames_iff unit ordinal).1 mem
    rw [stands short] at found
    have same := Option.some.inj found
    omega
  · rintro ⟨positive, short⟩
    obtain ⟨index, rfl⟩ := Nat.exists_eq_add_of_le' positive
    have short : index < (shelves unit ordinal).length := by omega
    exact ⟨_, (h.mem_childNames_iff unit ordinal).2 ⟨index, short, rfl⟩, stands short⟩

theorem attempts (h : Holds base root shelves tree) (plain : Path.IsName unit.name) (ordinal : Nat) :
    CandidateFiles.attempts base unit ordinal tree =
      .ok (List.range' 1 (shelves unit ordinal).length) := by
  rw [attempts_of_clear h.isOpen plain (h.clear unit ordinal), h.attemptsAmong_childNames]

/-- What a new file at the end of a shelf leaves is the shelves with one more text. -/
theorem add (h : Holds base root shelves tree) {grown : FileTree} {text : String}
    (room : (shelves unit ordinal).length < maxUnsigned 32) (more : tree.Extends grown)
    (below : ∀ location, root.length + 2 < location.length →
      grown.node? location = tree.node? location)
    (placed : grown.Placed (root ++ [unit.name, toString ordinal,
      nameOf ((shelves unit ordinal).length + 1)]) (.file (encode text) false) after) :
    Holds base root (shelves.add unit ordinal text) after := by
  have target : tree.node? (root ++ [unit.name, toString ordinal,
      nameOf ((shelves unit ordinal).length + 1)]) = none :=
    h.node?_of_missing unit ordinal fun index short => by omega
  have directory {location : Location} (found : tree.node? location = some .directory) :
      after.node? location = some .directory := by
    refine placed.keeps ?_ (more.kept found)
    rw [below _ (by simp), target]
    exact nofun
  have noFile {location : Location} (short : location.length < root.length + 3)
      (free : ∀ content executable, tree.node? location ≠ some (.file content executable))
      (content : Bytes) (executable : Bool) :
      after.node? location ≠ some (.file content executable) := by
    rw [placed.node, if_neg]
    · exact fun found => free content executable (more.file found)
    · rintro rfl
      simp at short
  have key {other : UnitId} {place : Nat} {name : String}
      (same : root ++ [other.name, toString place, name] = root ++ [unit.name, toString ordinal,
        nameOf ((shelves unit ordinal).length + 1)]) :
      (other = unit ∧ place = ordinal) ∧ name = nameOf ((shelves unit ordinal).length + 1) := by
    have parts := List.append_cancel_left same
    simp only [List.cons.injEq, and_true] at parts
    obtain ⟨units, places, names⟩ := parts
    exact ⟨⟨by cases other; cases unit; cases units; rfl, repr_injective places⟩, names⟩
  refine ⟨placed.wellFormed, ?_, directory h.there, ?_, ?_, ?_, ?_, ?_⟩
  · exact h.leads.mono h.there (placed.current.trans more.current) directory
  · exact fun unit => noFile (by simp) (h.units unit)
  · exact fun unit ordinal => noFile (by simp) (h.ordinals unit ordinal)
  · -- the texts: the new one stands behind those that were there
    intro other place index written found
    rcases Shelves.getElem?_add_iff.1 found with there | ⟨⟨rfl, rfl⟩, rfl, rfl⟩
    · rw [placed.node, if_neg, below _ (by simp), h.texts there]
      intro same
      obtain ⟨⟨rfl, rfl⟩, names⟩ := key same
      have short := (List.getElem?_eq_some_iff.1 there).1
      have last := nameOf_injective names
      omega
    · rw [placed.node, if_pos rfl]
  · -- no other files
    intro other place name node found
    rw [placed.node] at found
    split at found
    · next same =>
        obtain ⟨⟨rfl, rfl⟩, rfl⟩ := key same
        exact ⟨_, Shelves.lt_length_add_iff.2 (.inr ⟨⟨rfl, rfl⟩, rfl⟩), rfl⟩
    · rw [below _ (by simp)] at found
      obtain ⟨index, short, rfl⟩ := h.only found
      exact ⟨index, Shelves.lt_length_add_iff.2 (.inl short), rfl⟩
  · intro other place
    rw [Shelves.add]
    split
    · rw [List.length_append, List.length_singleton]
      omega
    · exact h.room other place

/-- A text that is put becomes one file more. -/
theorem put (h : Holds base root shelves tree) (plain : Path.IsName unit.name)
    (positive : ordinal ≠ 0) (room : (shelves unit ordinal).length < maxUnsigned 32)
    (text : String) :
    ∃ after, CandidateFiles.put base unit ordinal text tree =
        (.ok ((shelves unit ordinal).length + 1), after) ∧
      Holds base root (shelves.add unit ordinal text) after := by
  obtain ⟨made, prepares, planned⟩ :=
    plan_of_clear h.isOpen plain positive (h.clear unit ordinal) text
  have last : (List.range' 1 (shelves unit ordinal).length).getLast?.getD 0 =
      (shelves unit ordinal).length := by
    rw [List.getLast?_range']
    split
    · next none => rw [none, Option.getD_none]
    · rw [Option.getD_some, Nat.add_sub_cancel_left]
  have next : nextOf (List.range' 1 (shelves unit ordinal).length) =
      (shelves unit ordinal).length + 1 := by
    rw [nextOf_of_lt (last.symm ▸ room), last]
  rw [h.attemptsAmong_childNames, next] at planned
  have vacant : tree.node? (root ++ [unit.name, toString ordinal] ++
      [nameOf ((shelves unit ordinal).length + 1)]) = none := by
    rw [append_name]
    exact h.node?_of_missing unit ordinal fun index short => by omega
  obtain ⟨grown, after, finished, more, -, stored, placed⟩ :=
    put_of_plan h.wellFormed prepares planned vacant
  have below (location : Location) (deep : root.length + 2 < location.length) :
      grown.node? location = tree.node? location :=
    prepares.node?_below (List.prefix_refl _) finished (by simpa using deep)
  rw [append_name] at placed
  exact ⟨after, stored, h.add room more below placed⟩

end Holds

theorem put_zero (base : String) (unit : UnitId) (text : String) (tree : FileTree) :
    put base unit 0 text tree = (.error .invalidOrdinal, tree) := by
  unfold put
  rw [plan_zero]

/-- The store in files answers as the shelves do. -/
theorem refines (path : String) (root : Location) :
    Refines (store (baseOf path)) (openAt path) (fun unit => Path.IsName unit.name)
      (Holds (baseOf path) root) where
  refuses unit text content := by
    simp only [store]
    exact put_zero (baseOf path) unit text content
  put related plain positive room text := by
    simp only [store]
    exact related.put plain positive room text
  get related plain ordinal attempt := by
    simp only [store]
    exact related.get plain ordinal attempt
  attempts related plain ordinal := by
    simp only [store]
    exact related.attempts plain ordinal
  reopened related := by
    rw [openAt, related.leads.makeDirectories related.there]
    rfl

theorem isName_candidates : Path.IsName "candidates" := by
  constructor <;> decide

/-- A store that was opened where nothing was stored has empty shelves. -/
theorem holds_of_openAt {path : String} (wf : tree.WellFormed) (opened : openAt path tree = .ok after)
    (fresh : after.list (baseOf path) = .ok []) :
    ∃ root, Holds (baseOf path) root .empty after := by
  rw [openAt, FileTree.makeDirectories] at opened
  cases planned : tree.planDirectory (baseOf path) with
  | error error =>
      rw [planned] at opened
      cases opened
  | ok plan =>
      obtain ⟨root, made⟩ := plan
      obtain ⟨grown, finished, -, wf', leads, there⟩ := FileTree.perform_planDirectory wf planned
      rw [planned] at opened
      simp only [bind, Except.bind, finished] at opened
      obtain rfl : grown = after := Except.ok.inj opened
      have zero : '\x00' ∉ path.toList := fun mem =>
        leads.zero ((Path.mem_toList_join isName_candidates.slash (by decide)).2 (.inl mem))
      rw [leads.list (FileTree.checkPath_join zero isName_candidates), there] at fresh
      have nothing (name : String) (below : List String) :
          grown.node? (root ++ name :: below) = none := by
        have absent : grown.node? (root ++ [name]) = none := by
          by_contra found
          have mem := (FileTree.mem_childNames_iff wf'.unique).2 (Option.ne_none_iff_exists'.1 found)
          rw [Except.ok.inj fresh] at mem
          cases mem
        rw [List.append_cons]
        exact wf'.none_below absent below
      refine ⟨root, wf', leads, there, ?_, ?_, ?_, ?_, fun _ _ => Nat.zero_le _⟩
      · intro unit content executable found
        rw [nothing] at found
        cases found
      · intro unit ordinal content executable found
        rw [nothing] at found
        cases found
      · intro unit ordinal index text found
        cases found
      · intro unit ordinal name node found
        rw [nothing] at found
        cases found

/-- The store in files and the store in memory answer every session alike, namely as the shelves do;
and on the shelves nothing changes but that a text that is put stands behind the others of its
function. Only the store in files is opened anew where a session leaves it. -/
theorem sessions_agree {path : String} {content : FileTree} {requests : List StoreRequest}
    (wf : tree.WellFormed) (opened : openAt path tree = .ok content)
    (fresh : content.list (baseOf path) = .ok [])
    (derived : ∀ request ∈ requests, ∀ unit, request.unit? = some unit →
      ∃ source : SourceUnit, unit = source.id)
    (few : ∀ unit ordinal, requests.countP (·.puts unit ordinal) ≤ maxUnsigned 32) :
    (StoreRequest.session (store (baseOf path)) (openAt path) requests content).1 =
        (Shelves.empty.session requests).1 ∧
      (StoreRequest.session CandidateLog.store .ok requests .empty).1 =
        (Shelves.empty.session requests).1 ∧
      ∀ earlier request later, requests = earlier ++ request :: later → ∀ unit ordinal,
        let before := (Shelves.empty.session earlier).2
        let behind := (Shelves.empty.session (earlier ++ [request])).2
        behind unit ordinal = before unit ordinal ∨ request.puts unit ordinal = true ∧
          ∃ text : String, behind unit ordinal = before unit ordinal ++ [text] := by
  obtain ⟨root, holds⟩ := holds_of_openAt wf opened fresh
  have room : Shelves.empty.Room requests := by
    intro unit ordinal
    simpa [Shelves.empty] using few unit ordinal
  refine ⟨?_, ?_, ?_⟩
  · refine (refines path root).session holds ?_ room
    intro request mem unit asked
    obtain ⟨source, rfl⟩ := derived request mem unit asked
    exact source.isName_id
  · exact CandidateLog.refines.session (fun _ _ => rfl) (fun _ _ _ _ => trivial) room
  · intro earlier request later _ unit ordinal
    simp only [Shelves.session_append]
    exact Shelves.answer_keeps _ request unit ordinal

def ofOneFunction : SourceUnit := ⟨"f.c", "int f(void) { return 1; }", ["f"], 1⟩

def oneSession (unit : UnitId) : List StoreRequest :=
  [.put unit 1 "a", .put unit 0 "b", .putVerified unit 1 "c", .reopen, .get unit 1 2,
    .attempts unit 1, .latest unit 2, .isStored unit 1 3]

theorem unit?_of_mem_oneSession {unit other : UnitId} {request : StoreRequest}
    (mem : request ∈ oneSession unit) (asked : request.unit? = some other) : other = unit := by
  simp only [oneSession, List.mem_cons, List.not_mem_nil, or_false] at mem
  obtain rfl | rfl | rfl | rfl | rfl | rfl | rfl | rfl := mem
  all_goals cases asked
  all_goals rfl

theorem sessions_agree_of_one_function :
    ∃ content, openAt "s" (.empty []) = .ok content ∧ content.list (baseOf "s") = .ok [] ∧
      (∀ request ∈ oneSession ofOneFunction.id, ∀ unit, request.unit? = some unit →
        ∃ source : SourceUnit, unit = source.id) ∧
      (∀ unit ordinal, (oneSession ofOneFunction.id).countP (·.puts unit ordinal) ≤
        maxUnsigned 32) ∧
      (StoreRequest.session (store (baseOf "s")) (openAt "s") (oneSession ofOneFunction.id)
          content).1 =
        (StoreRequest.session CandidateLog.store .ok (oneSession ofOneFunction.id) .empty).1 := by
  have opened : openAt "s" (.empty []) =
      .ok (((FileTree.empty []).set ["s"] .directory).set ["s", "candidates"] .directory) := by
    rfl
  have fresh : (((FileTree.empty []).set ["s"] .directory).set ["s", "candidates"]
      .directory).list (baseOf "s") = .ok [] := by
    rfl
  have derived : ∀ request ∈ oneSession ofOneFunction.id, ∀ unit, request.unit? = some unit →
      ∃ source : SourceUnit, unit = source.id :=
    fun request mem unit asked => ⟨ofOneFunction, unit?_of_mem_oneSession mem asked⟩
  have few : ∀ unit ordinal,
      (oneSession ofOneFunction.id).countP (·.puts unit ordinal) ≤ maxUnsigned 32 := by
    intro unit ordinal
    have short : (oneSession ofOneFunction.id).length ≤ maxUnsigned 32 := by decide
    exact Nat.le_trans List.countP_le_length short
  obtain ⟨files, memory, -⟩ :=
    sessions_agree (FileTree.wellFormed_empty []) opened fresh derived few
  exact ⟨_, opened, fresh, derived, few, files.trans memory.symm⟩

end CandidateFiles

end Graft
