import Mathlib.Data.List.Induction
import Mathlib.Data.List.Perm.Subperm
import Graft.Proofs.Files.Names

/-!
Where paths lead in a tree of files. A path leads to a location (`LeadsTo`) when following it ends
there or when nothing stands there; what reading, writing or listing a path does is then said by the
node at the location (`LeadsTo.read_join`, `LeadsTo.write_join`, `LeadsTo.list`).
-/

namespace Graft

open Text

namespace FileTree

variable {tree : FileTree} {location : Location} {path name : String}

/-! Nodes -/

@[simp] theorem node?_nil (tree : FileTree) : tree.node? [] = some .directory := rfl

theorem node?_of_ne_nil (tree : FileTree) (h : location ≠ []) :
    tree.node? location = tree.nodes.lookup location := if_neg h

@[simp] theorem current_set (tree : FileTree) (location : Location) (node : FileNode) :
    (tree.set location node).current = tree.current := rfl

@[simp] theorem current_erase (tree : FileTree) (location : Location) :
    (tree.erase location).current = tree.current := rfl

theorem node?_erase (tree : FileTree) (location other : Location) (h : other ≠ []) :
    (tree.erase location).node? other = if other = location then none else tree.node? other := by
  simp only [node?, h, ↓reduceIte, erase]
  induction tree.nodes with
  | nil => simp
  | cons entry rest ih =>
      obtain ⟨key, found⟩ := entry
      by_cases erased : key = location
      · subst erased
        by_cases same : other = key
        · simpa [same] using ih
        · have differ : (other == key) = false := by simpa using same
          simpa [same, List.lookup_cons, differ] using ih
      · by_cases same : other = key
        · subst same
          simp [erased]
        · have differ : (other == key) = false := by simpa using same
          simpa [erased, List.lookup_cons, differ] using ih

/-- Every node stands in a directory, and at most one stands at a location. -/
structure WellFormed (tree : FileTree) : Prop where
  current : tree.node? tree.current = some .directory
  parents : ∀ {location node}, tree.node? location = some node →
    tree.node? location.dropLast = some .directory
  unique : (tree.nodes.map (·.1)).Nodup

theorem WellFormed.start (h : tree.WellFormed) (path : String) :
    tree.node? (tree.start path) = some .directory := by
  rw [FileTree.start]
  split
  · rfl
  · exact h.current

theorem WellFormed.above (h : tree.WellFormed) {node : FileNode} {below : List String}
    (found : tree.node? (location ++ name :: below) = some node) :
    tree.node? location = some .directory := by
  induction below using List.reverseRecOn generalizing node with
  | nil => simpa using h.parents found
  | append_singleton below last ih =>
      have split : location ++ name :: (below ++ [last]) = location ++ name :: below ++ [last] := by
        simp
      rw [split] at found
      have there := h.parents found
      rw [List.dropLast_concat] at there
      exact ih there

theorem WellFormed.none_below (h : tree.WellFormed) (none : tree.node? location = none)
    (below : List String) : tree.node? (location ++ below) = .none := by
  cases below with
  | nil => rwa [List.append_nil]
  | cons name rest =>
      by_contra there
      obtain ⟨node, found⟩ := Option.ne_none_iff_exists'.1 there
      rw [h.above found] at none
      cases none

theorem WellFormed.set (h : tree.WellFormed) {node : FileNode} (inside : location ≠ [])
    (parent : tree.node? location.dropLast = some .directory)
    (kept : tree.node? location = some .directory → node = .directory) :
    (tree.set location node).WellFormed where
  current := by
    by_cases root : tree.current = []
    · rw [current_set, root, node?_nil]
    · rw [current_set, node?_set _ _ _ _ root, h.current]
      split
      · next same => rw [kept (same ▸ h.current)]
      · rfl
  parents {other found} there := by
    by_cases top : other.dropLast = []
    · rw [top, node?_nil]
    · have inner : other ≠ [] := by rintro rfl; exact top rfl
      rw [node?_set _ _ _ _ inner] at there
      rw [node?_set _ _ _ _ top]
      split at there
      · next same =>
          subst same
          have shorter : other.dropLast ≠ other := by
            intro same
            have := congrArg List.length same
            rw [List.length_dropLast] at this
            have := List.length_pos_iff.2 inner
            omega
          rw [if_neg shorter]
          exact parent
      · have directory := h.parents there
        split
        · next same => rw [kept (same ▸ directory)]
        · exact directory
  unique := by
    have fewer : ((tree.erase location).nodes.map (·.1)).Nodup :=
      h.unique.sublist (List.filter_sublist.map _)
    have gone : location ∉ (tree.erase location).nodes.map (·.1) := by
      simp [FileTree.erase]
    exact List.nodup_cons.2 ⟨gone, fewer⟩

theorem WellFormed.erase (h : tree.WellFormed) (leaf : tree.node? location ≠ some .directory) :
    (tree.erase location).WellFormed where
  current := by
    by_cases root : tree.current = []
    · rw [current_erase, root, node?_nil]
    · rw [current_erase, node?_erase _ _ _ root, if_neg, h.current]
      rintro same
      exact leaf (same ▸ h.current)
  parents {other found} there := by
    by_cases top : other.dropLast = []
    · rw [top, node?_nil]
    · have inner : other ≠ [] := by rintro rfl; exact top rfl
      rw [node?_erase _ _ _ inner] at there
      rw [node?_erase _ _ _ top]
      split at there
      · cases there
      · have directory := h.parents there
        rw [if_neg, directory]
        rintro same
        exact leaf (same ▸ directory)
  unique := h.unique.sublist (List.filter_sublist.map _)

theorem mem_nodes_iff (unique : (tree.nodes.map (·.1)).Nodup) (inside : location ≠ [])
    {node : FileNode} : (location, node) ∈ tree.nodes ↔ tree.node? location = some node := by
  rw [node?_of_ne_nil _ inside]
  generalize tree.nodes = nodes at unique ⊢
  induction nodes with
  | nil => simp
  | cons entry rest ih =>
      obtain ⟨key, found⟩ := entry
      rw [List.map_cons, List.nodup_cons] at unique
      by_cases same : location = key
      · subst same
        have gone : ∀ other, (location, other) ∉ rest := fun other mem =>
          unique.1 (List.mem_map.2 ⟨_, mem, rfl⟩)
        simp [gone, eq_comm]
      · have differ : (location == key) = false := by simpa using same
        simpa [List.lookup_cons, differ, same] using ih unique.2

/-- The tree in which a run starts. -/
theorem wellFormed_empty (current : Location) : (empty current).WellFormed := by
  have keys : (empty current).nodes.map (·.1) =
      (List.range' 1 current.length).map fun n => current.take n := by
    simp [empty, Function.comp_def]
  have unique : ((empty current).nodes.map (·.1)).Nodup := by
    rw [keys, List.Nodup, List.pairwise_map]
    refine List.Pairwise.imp_of_mem ?_ List.nodup_range'
    intro a b ha hb differ same
    rw [List.mem_range'_1] at ha hb
    have lengths := congrArg List.length same
    rw [List.length_take, List.length_take] at lengths
    omega
  have found : ∀ n ≤ current.length, (empty current).node? (current.take n) = some .directory := by
    intro n short
    by_cases root : current.take n = []
    · rw [root, node?_nil]
    · have positive : n ≠ 0 := by rintro rfl; exact root rfl
      apply (mem_nodes_iff unique root).1
      apply List.mem_map_of_mem (f := fun n => (current.take n, FileNode.directory))
      rw [List.mem_range'_1]
      omega
  refine ⟨?_, ?_, unique⟩
  · have whole := found current.length (Nat.le_refl _)
    rwa [List.take_length] at whole
  · intro location node there
    by_cases root : location = []
    · rw [root]
      rfl
    · obtain ⟨n, mem, same⟩ := List.mem_map.1 ((mem_nodes_iff unique root).2 there)
      obtain ⟨rfl, rfl⟩ := Prod.mk.inj same
      rw [List.mem_range'_1] at mem
      rw [List.dropLast_eq_take, List.take_take]
      exact found _ (by omega)

/-! Following names -/

theorem follow_append (tree : FileTree) (location : Location) (first second : List String) :
    tree.follow location (first ++ second) =
      (tree.follow location first).bind (tree.follow · second) := by
  induction first generalizing location with
  | nil => rfl
  | cons name rest ih =>
      simp only [List.cons_append, follow]
      split
      · rfl
      · rfl
      · split
        · exact ih location
        · split
          · exact ih location.dropLast
          · exact ih (location ++ [name])

theorem follow_name (tree : FileTree) (location : Location) (h : Path.IsName name) :
    tree.follow location [name] =
      match tree.node? location with
      | none => .error .notFound
      | some (.file ..) => .error .notDirectory
      | some .directory => .ok (location ++ [name]) := by
  simp only [follow]
  cases tree.node? location with
  | none => rfl
  | some node => cases node <;> simp [h.nonempty, h.dot, h.dots]

theorem follow_join (tree : FileTree) (path : String) (h : Path.IsName name) :
    tree.follow (tree.start (Path.join path name)) (names (Path.join path name)) =
      (tree.follow (tree.start path) (names path)).bind (tree.follow · [name]) := by
  rw [start_join _ _ h.slash]
  obtain same | ⟨above, ended, same⟩ := names_join path h.slash
  · rw [same, follow_append]
  · rw [same, ended, follow_append, follow_append]
    cases tree.follow (tree.start path) above with
    | error => rfl
    | ok location =>
        -- the empty name behind the last slash asks for a directory, as any name would
        cases there : tree.node? location with
        | none => simp [follow, there, Except.bind]
        | some node => cases node <;> simp [follow, there, Except.bind]

/-- That a path names a location, whether or not a node stands there. -/
structure LeadsTo (tree : FileTree) (path : String) (location : Location) : Prop where
  zero : '\x00' ∉ path.toList
  followed : tree.follow (tree.start path) (names path) = .ok location ∨
    tree.follow (tree.start path) (names path) = .error .notFound ∧ tree.node? location = none

def Clear (tree : FileTree) (location : Location) (names : List String) : Prop :=
  ∀ front, front <+: names → ∀ content executable,
    tree.node? (location ++ front) ≠ some (.file content executable)

theorem Clear.here {names : List String} (h : tree.Clear location names) (content : Bytes)
    (executable : Bool) : tree.node? location ≠ some (.file content executable) := by
  simpa using h [] List.nil_prefix content executable

theorem Clear.tail {names : List String} (h : tree.Clear location (name :: names)) :
    tree.Clear (location ++ [name]) names := by
  intro front within content executable
  simpa using h (name :: front) (List.cons_prefix_cons.2 ⟨rfl, within⟩) content executable

theorem clear_nil (free : ∀ content executable,
    tree.node? location ≠ some (.file content executable)) : tree.Clear location [] := by
  intro front within
  obtain rfl := List.prefix_nil.1 within
  rwa [List.append_nil]

theorem Clear.cons {names : List String}
    (free : ∀ content executable, tree.node? location ≠ some (.file content executable))
    (h : tree.Clear (location ++ [name]) names) : tree.Clear location (name :: names) := by
  intro front within content executable
  cases front with
  | nil =>
      rw [List.append_nil]
      exact free content executable
  | cons first rest =>
      obtain ⟨rfl, inner⟩ := List.cons_prefix_cons.1 within
      simpa using h rest inner content executable

/-- On the way to a directory that is there, there are directories. -/
theorem clear_of_there (wf : tree.WellFormed) {names : List String}
    (there : tree.node? (location ++ names) = some .directory) : tree.Clear location names := by
  rintro front ⟨behind, rfl⟩ content executable
  rw [← List.append_assoc] at there
  cases behind with
  | nil =>
      rw [List.append_nil] at there
      rw [there]
      exact nofun
  | cons name rest =>
      rw [wf.above there]
      exact nofun

theorem LeadsTo.follow (h : tree.LeadsTo path location) {node : FileNode}
    (there : tree.node? location = some node) :
    tree.follow (tree.start path) (names path) = .ok location := by
  obtain found | ⟨-, gone⟩ := h.followed
  · exact found
  · rw [gone] at there
    cases there

theorem LeadsTo.join (h : tree.LeadsTo path location) (wf : tree.WellFormed)
    (free : ∀ content executable, tree.node? location ≠ some (.file content executable))
    (plain : Path.IsName name) : tree.LeadsTo (Path.join path name) (location ++ [name]) where
  zero := by
    rw [Path.mem_toList_join plain.slash (by decide)]
    exact not_or.2 ⟨h.zero, plain.zero⟩
  followed := by
    rw [follow_join _ _ plain]
    obtain found | ⟨missing, gone⟩ := h.followed
    · rw [found]
      simp only [Except.bind, follow_name _ _ plain]
      cases there : tree.node? location with
      | none => exact .inr ⟨rfl, wf.none_below there _⟩
      | some node =>
          cases node with
          | directory => exact .inl rfl
          | file content executable => exact absurd there (free content executable)
    · rw [missing]
      exact .inr ⟨rfl, wf.none_below gone _⟩

def contentOf : Option FileNode → Except FileError Bytes
  | some (.file content _) => .ok content
  | some .directory => .error .isDirectory
  | none => .error .notFound

def textOf (node : Option FileNode) : Except FileError String := do
  match decode? (← contentOf node) with
  | some text => return text
  | none => throw .notText

theorem textOf_encode (text : String) (executable : Bool) :
    textOf (some (.file (encode text) executable)) = .ok text := by
  simp [textOf, contentOf, bind, Except.bind, decode?_encode, pure, Except.pure]

theorem LeadsTo.read (h : tree.LeadsTo path location) (checked : checkPath path = .ok ()) :
    tree.read path = contentOf (tree.node? location) := by
  simp only [FileTree.read, lookUp, resolve, checked]
  obtain found | ⟨missing, gone⟩ := h.followed
  · simp only [found, bind, Except.bind]
    cases tree.node? location with
    | none => rfl
    | some node => cases node <;> rfl
  · simp only [missing, gone, bind, Except.bind, contentOf]

theorem LeadsTo.read_join (h : tree.LeadsTo path location) (wf : tree.WellFormed)
    (free : ∀ content executable, tree.node? location ≠ some (.file content executable))
    (plain : Path.IsName name) :
    tree.read (Path.join path name) = contentOf (tree.node? (location ++ [name])) :=
  (h.join wf free plain).read (checkPath_join h.zero plain)

theorem LeadsTo.readText_join (h : tree.LeadsTo path location) (wf : tree.WellFormed)
    (free : ∀ content executable, tree.node? location ≠ some (.file content executable))
    (plain : Path.IsName name) :
    tree.readText (Path.join path name) = textOf (tree.node? (location ++ [name])) := by
  rw [readText, h.read_join wf free plain]
  rfl

theorem LeadsTo.list (h : tree.LeadsTo path location) (checked : checkPath path = .ok ()) :
    tree.list path =
      match tree.node? location with
      | some .directory => .ok (tree.childNames location)
      | some (.file ..) => .error .notDirectory
      | none => .error .notFound := by
  simp only [FileTree.list, resolve, checked]
  obtain found | ⟨missing, gone⟩ := h.followed
  · simp only [found, bind, Except.bind]
    cases tree.node? location with
    | none => rfl
    | some node => cases node <;> rfl
  · simp only [missing, gone, bind, Except.bind]

theorem LeadsTo.resolveFile_join (h : tree.LeadsTo path location)
    (there : tree.node? location = some .directory) (plain : Path.IsName name) :
    tree.resolveFile (Path.join path name) =
      if tree.isDirectory (location ++ [name]) then .error .isDirectory
      else .ok (location ++ [name]) := by
  have followed : tree.follow (tree.start (Path.join path name)) (names (Path.join path name)) =
      .ok (location ++ [name]) := by
    rw [follow_join _ _ plain, h.follow there]
    simp only [Except.bind, follow_name _ _ plain, there]
  have ended : ∃ above, names (Path.join path name) = above ++ [name] := by
    obtain same | ⟨above, -, same⟩ := names_join path plain.slash
    · exact ⟨_, same⟩
    · exact ⟨_, same⟩
  obtain ⟨above, same⟩ := ended
  have filled : name.isEmpty = false := by simpa [String.isEmpty_iff] using plain.nonempty
  rw [same] at followed
  cases occupied : tree.isDirectory (location ++ [name]) <;>
    simp [resolveFile, checkPath_join h.zero plain, same, filled, plain.dot, plain.dots, followed,
      occupied, bind, Except.bind, pure, Except.pure, throw, throwThe, MonadExceptOf.throw]

theorem LeadsTo.write_join (h : tree.LeadsTo path location)
    (there : tree.node? location = some .directory) (plain : Path.IsName name)
    (free : tree.node? (location ++ [name]) ≠ some .directory) (content : Bytes) :
    ∃ executable, tree.write (Path.join path name) content =
      .ok (tree.set (location ++ [name]) (.file content executable)) := by
  have noDirectory : tree.isDirectory (location ++ [name]) = false := by simpa [isDirectory] using free
  simp only [write, h.resolveFile_join there plain, noDirectory, Bool.false_eq_true, if_false, bind,
    Except.bind]
  cases found : tree.node? (location ++ [name]) with
  | none => exact ⟨false, rfl⟩
  | some node =>
      cases node with
      | directory => exact absurd found free
      | file before executable => exact ⟨executable, rfl⟩

/-! Names in a directory -/

theorem mem_childNames_iff (unique : (tree.nodes.map (·.1)).Nodup) :
    name ∈ tree.childNames location ↔ ∃ node, tree.node? (location ++ [name]) = some node := by
  rw [childNames, List.mem_filterMap]
  constructor
  · rintro ⟨⟨key, node⟩, mem, chosen⟩
    cases last : key.getLast? with
    | none => simp [last] at chosen
    | some final =>
        simp only [last, Option.ite_none_right_eq_some, Option.some.injEq] at chosen
        obtain ⟨rfl, rfl⟩ := chosen
        have whole := List.dropLast_append_getLast? final last
        refine ⟨node, (mem_nodes_iff unique (by simp)).1 ?_⟩
        rwa [whole]
  · rintro ⟨node, found⟩
    refine ⟨(location ++ [name], node), (mem_nodes_iff unique (by simp)).2 found, ?_⟩
    simp

theorem nodup_childNames (unique : (tree.nodes.map (·.1)).Nodup) (location : Location) :
    (tree.childNames location).Nodup := by
  let final (key : Location) : Option String :=
    match key.getLast? with
    | some name => if key.dropLast = location then some name else none
    | none => none
  have same : tree.childNames location = (tree.nodes.map (·.1)).filterMap final := by
    rw [List.filterMap_map]
    rfl
  rw [same]
  have key {k : Location} {name : String} (chosen : final k = some name) :
      k = location ++ [name] := by
    cases last : k.getLast? with
    | none => simp [final, last] at chosen
    | some ending =>
        simp only [final, last, Option.ite_none_right_eq_some, Option.some.injEq] at chosen
        obtain ⟨rfl, rfl⟩ := chosen
        exact (List.dropLast_append_getLast? ending last).symm
  refine List.Pairwise.filterMap final ?_ unique
  rintro one other differ name first _ second rfl
  exact differ ((key first).trans (key second).symm)

/-- A name that a directory is given for a draft. -/
theorem exists_freshName (tree : FileTree) (location : Location) (beginning : String) :
    ∃ n, tree.freshName location beginning = beginning ++ padded 6 n ∧
      beginning ++ padded 6 n ∉ tree.childNames location := by
  let candidate (n : Nat) := beginning ++ padded 6 n
  let taken := tree.childNames location
  have injective : ∀ a b, candidate a = candidate b → a = b := by
    intro a b same
    have digits : (padded 6 a).toList = (padded 6 b).toList := by
      simpa [candidate, String.append_right_inj] using congrArg String.toList same
    rw [← ofDigitChars_padded 6 a, digits, ofDigitChars_padded]
  cases found : (List.range (taken.length + 1)).find? fun n => !taken.contains (candidate n) with
  | some n =>
      have free := List.find?_some found
      refine ⟨n, ?_, by simpa using free⟩
      simp only [freshName]
      rw [show ((List.range (taken.length + 1)).find? fun n => !taken.contains (candidate n)) = _
        from found]
      rfl
  | none =>
      -- one more candidate than names that are taken
      have all : ((List.range (taken.length + 1)).map candidate) ⊆ taken := by
        intro name mem
        obtain ⟨n, inRange, rfl⟩ := List.mem_map.1 mem
        simpa using List.find?_eq_none.1 found n inRange
      have distinct : ((List.range (taken.length + 1)).map candidate).Nodup := by
        rw [List.Nodup, List.pairwise_map]
        exact List.nodup_range.imp fun differ same => differ (injective _ _ same)
      have fits := (List.subperm_of_subset distinct all).length_le
      rw [List.length_map, List.length_range] at fits
      omega

end FileTree

end Graft
