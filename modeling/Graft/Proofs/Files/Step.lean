import Graft.Files.Step
import Graft.Proofs.Files.Tree

/-!
What the steps of a change do to a tree. Directories that are planned can be made, and then a path
leads to the last of them (`perform_planDirectory`); a file that is drafted and then moved is in its
place in whole, and nothing else has changed (`perform_placeSteps`).
-/

namespace Graft

open Text

def FileStep.Spares (location : Location) : FileStep → Prop
  | .makeDirectory other | .create other | .append other _ | .remove other => location ≠ other
  | .flush _ => True
  | .move source target | .moveNew source target => location ≠ source ∧ location ≠ target

namespace FileTree

variable {tree now after : FileTree} {location directory draft target : Location}
  {path name : String} {steps : List FileStep} {content : Bytes}

theorem perform_append (tree : FileTree) (first second : List FileStep) :
    tree.perform (first ++ second) =
      match tree.perform first with
      | (after, none) => after.perform second
      | (after, some error) => (after, some error) := by
  induction first generalizing tree with
  | nil => rfl
  | cons step rest ih =>
      simp only [List.cons_append, perform]
      cases step.apply tree with
      | ok next => exact ih next
      | error error => rfl

theorem perform_append_of_done {first : List FileStep} (h : tree.perform first = (after, none))
    (second : List FileStep) : tree.perform (first ++ second) = after.perform second := by
  rw [perform_append, h]

theorem exists_middle_of_perform {first second : List FileStep}
    (h : tree.perform (first ++ second) = (after, none)) :
    ∃ middle, tree.perform first = (middle, none) ∧ middle.perform second = (after, none) := by
  rw [perform_append] at h
  split at h
  · next middle done => exact ⟨middle, done, h⟩
  · cases h

/-! What a step leaves as it is -/

theorem node?_apply_of_spares {step : FileStep} (h : step.apply tree = .ok after)
    (spared : step.Spares location) : after.node? location = tree.node? location := by
  by_cases root : location = []
  · rw [root, node?_nil, node?_nil]
  · cases step <;> simp only [FileStep.apply, FileStep.Spares] at h spared <;>
      grind [node?_set, node?_erase]

theorem node?_perform_of_spares (tree : FileTree) (spared : ∀ step ∈ steps, step.Spares location) :
    (tree.perform steps).1.node? location = tree.node? location := by
  induction steps generalizing tree with
  | nil => rfl
  | cons step rest ih =>
      rw [perform]
      cases done : step.apply tree with
      | ok next =>
          have first := node?_apply_of_spares done (spared step List.mem_cons_self)
          exact (ih next fun other mem => spared other (List.mem_cons_of_mem _ mem)).trans first
      | error => rfl

theorem follow_mono (kept : ∀ {location}, tree.node? location = some .directory →
      after.node? location = some .directory) {names : List String}
    (h : tree.follow location names = .ok directory) :
    after.follow location names = .ok directory := by
  fun_induction follow tree location names with
  | case1 => exact h
  | case2 => cases h
  | case3 => cases h
  | case4 location name rest there blank ih =>
      simp only [follow, kept there, blank, if_true]
      exact ih h
  | case5 location rest there blank ih =>
      simp only [follow, kept there, blank, if_true, if_false]
      exact ih h
  | case6 location name rest there blank up ih =>
      simp only [follow, kept there, blank, up, if_false]
      exact ih h

theorem LeadsTo.mono (h : tree.LeadsTo path directory)
    (there : tree.node? directory = some .directory) (current : after.current = tree.current)
    (kept : ∀ {location}, tree.node? location = some .directory →
      after.node? location = some .directory) : after.LeadsTo path directory where
  zero := h.zero
  followed := by
    have same : after.start path = tree.start path := by rw [start, start, current]
    rw [same]
    exact .inl (follow_mono kept (h.follow there))

/-! Directories -/

/-- That a tree has the nodes of another one, and some directories more. -/
structure Extends (tree after : FileTree) : Prop where
  current : after.current = tree.current
  kept : ∀ {location node}, tree.node? location = some node → after.node? location = some node
  added : ∀ {location}, tree.node? location = none →
    after.node? location = none ∨ after.node? location = some .directory

theorem Extends.refl (tree : FileTree) : tree.Extends tree := ⟨rfl, id, .inl⟩

theorem Extends.trans {last : FileTree} (first : tree.Extends now) (second : now.Extends last) :
    tree.Extends last where
  current := second.current.trans first.current
  kept found := second.kept (first.kept found)
  added {location} none := by
    obtain none | there := first.added none
    · exact second.added none
    · exact .inr (second.kept there)

theorem Extends.file (h : tree.Extends after) {executable : Bool}
    (found : after.node? location = some (.file content executable)) :
    tree.node? location = some (.file content executable) := by
  cases before : tree.node? location with
  | some node => rw [← found, h.kept before]
  | none =>
      obtain none | there := h.added before
      · rw [found] at none
        cases none
      · rw [found] at there
        cases there

/-- A directory can be made where there is none, and where there is one nothing is done. -/
theorem apply_makeDirectory (wf : tree.WellFormed)
    (parent : tree.node? location = some .directory)
    (free : ∀ content executable, tree.node? (location ++ [name]) ≠ some (.file content executable)) :
    ∃ after, (FileStep.makeDirectory (location ++ [name])).apply tree = .ok after ∧
      tree.Extends after ∧ after.WellFormed ∧
      after.node? (location ++ [name]) = some .directory := by
  have inside : location ++ [name] ≠ [] := by simp
  cases found : tree.node? (location ++ [name]) with
  | some node =>
      cases node with
      | directory => exact ⟨tree, by simp [FileStep.apply, found], .refl tree, wf, found⟩
      | file content executable => exact absurd found (free content executable)
  | none =>
      refine ⟨tree.set (location ++ [name]) .directory, by simp [FileStep.apply, found], ?_, ?_, ?_⟩
      · refine ⟨rfl, ?_, ?_⟩
        · intro other node there
          by_cases root : other = []
          · rwa [root] at there ⊢
          · rw [node?_set _ _ _ _ root, if_neg, there]
            rintro rfl
            rw [found] at there
            cases there
        · intro other none
          have inner : other ≠ [] := by rintro rfl; cases none
          rw [node?_set _ _ _ _ inner]
          split
          · exact .inr rfl
          · exact .inl none
      · exact wf.set inside (by rwa [List.dropLast_concat]) fun _ => rfl
      · rw [node?_set _ _ _ _ inside, if_pos rfl]

/-- How directories are planned along some names: those that are missing are made. -/
inductive Makes (tree : FileTree) : Location → List String → Location → List FileStep → Prop
  | done (location : Location) : Makes tree location [] location []
  | stay {location directory : Location} {name : String} {names : List String}
      {steps : List FileStep} (blank : name = "" ∨ name = ".")
      (rest : Makes tree location names directory steps) :
      Makes tree location (name :: names) directory steps
  | up {location directory : Location} {names : List String} {steps : List FileStep}
      (rest : Makes tree location.dropLast names directory steps) :
      Makes tree location (".." :: names) directory steps
  | enter {location directory : Location} {name : String} {names : List String}
      {steps : List FileStep} (leads : ¬(name = "" ∨ name = ".")) (down : name ≠ "..")
      (found : tree.node? (location ++ [name]) = some .directory)
      (rest : Makes tree (location ++ [name]) names directory steps) :
      Makes tree location (name :: names) directory steps
  | make {location directory : Location} {name : String} {names : List String}
      {steps : List FileStep} (leads : ¬(name = "" ∨ name = ".")) (down : name ≠ "..")
      (none : tree.node? (location ++ [name]) = none)
      (rest : Makes tree (location ++ [name]) names directory steps) :
      Makes tree location (name :: names) directory (.makeDirectory (location ++ [name]) :: steps)

theorem makes_of_directorySteps {names : List String}
    (planned : tree.directorySteps location names = .ok (directory, steps)) :
    tree.Makes location names directory steps := by
  induction names generalizing location steps with
  | nil =>
      obtain ⟨rfl, rfl⟩ := Prod.mk.inj (Except.ok.inj planned)
      exact .done location
  | cons name rest ih =>
      rw [directorySteps] at planned
      split at planned
      · next blank => exact .stay blank (ih planned)
      · next leads =>
        split at planned
        · next parent =>
            subst parent
            exact .up (ih planned)
        · next down =>
            simp only at planned
            split at planned
            · next found => exact .enter leads down found (ih planned)
            · cases planned
            · next none =>
                cases later : tree.directorySteps (location ++ [name]) rest with
                | error error =>
                    rw [later] at planned
                    cases planned
                | ok made =>
                    obtain ⟨final, others⟩ := made
                    rw [later] at planned
                    obtain ⟨rfl, rfl⟩ := Prod.mk.inj (Except.ok.inj planned)
                    exact .make leads down none (ih later)

theorem Makes.directorySteps {names : List String}
    (h : tree.Makes location names directory steps) :
    tree.directorySteps location names = .ok (directory, steps) := by
  induction h with
  | done => rfl
  | stay blank _ ih => rw [FileTree.directorySteps, if_pos blank, ih]
  | up _ ih =>
      rw [FileTree.directorySteps, if_neg (by decide), if_pos rfl, ih]
  | enter leads down found _ ih =>
      simp only [FileTree.directorySteps, if_neg leads, if_neg down, found, ih]
  | make leads down none _ ih =>
      simp only [FileTree.directorySteps, if_neg leads, if_neg down, none, ih]
      rfl

/-- Planned directories can be made, also when some of them have been made since. -/
theorem Makes.perform {names : List String} (h : tree.Makes location names directory steps)
    {now : FileTree} (wf : now.WellFormed) (grown : tree.Extends now)
    (there : now.node? location = some .directory) :
    ∃ after, now.perform steps = (after, none) ∧ now.Extends after ∧ after.WellFormed ∧
      after.node? directory = some .directory ∧ after.follow location names = .ok directory := by
  induction h generalizing now with
  | done location => exact ⟨now, rfl, .refl now, wf, there, rfl⟩
  | stay blank _ ih =>
      obtain ⟨after, done, more, wf', last, followed⟩ := ih wf grown there
      refine ⟨after, done, more, wf', last, ?_⟩
      simpa only [follow, more.kept there, if_pos blank] using followed
  | up _ ih =>
      obtain ⟨after, done, more, wf', last, followed⟩ := ih wf grown (wf.parents there)
      refine ⟨after, done, more, wf', last, ?_⟩
      have leads : ¬(".." = "" ∨ ".." = ".") := by decide
      simpa only [follow, more.kept there, if_neg leads, if_true] using followed
  | enter leads down found _ ih =>
      obtain ⟨after, done, more, wf', last, followed⟩ := ih wf grown (grown.kept found)
      refine ⟨after, done, more, wf', last, ?_⟩
      simpa only [follow, more.kept there, if_neg leads, if_neg down] using followed
  | @make location _ name _ _ leads down none _ ih =>
      have free : ∀ content executable,
          now.node? (location ++ [name]) ≠ some (.file content executable) := by
        intro content executable found
        rw [grown.file found] at none
        cases none
      obtain ⟨next, made, step, wf', stands⟩ := apply_makeDirectory wf there free
      obtain ⟨after, done, more, wf'', last, followed⟩ := ih wf' (grown.trans step) stands
      refine ⟨after, ?_, step.trans more, wf'', last, ?_⟩
      · simpa only [FileTree.perform, made] using done
      · simpa only [follow, more.kept (step.kept there), if_neg leads, if_neg down] using followed

/-- While some of the planned directories are missing, the names lead to the last one or to nothing. -/
theorem Makes.follow_or {names : List String} (h : tree.Makes location names directory steps)
    (grown : tree.Extends now) (wf : now.WellFormed)
    (there : now.node? location = some .directory) :
    now.follow location names = .ok directory ∨
      now.follow location names = .error .notFound ∧
        ∃ made, .makeDirectory made ∈ steps ∧ now.node? made = none := by
  induction h with
  | done location => exact .inl rfl
  | stay blank _ ih =>
      simp only [follow, there, if_pos blank]
      exact ih there
  | up _ ih =>
      have leads : ¬(".." = "" ∨ ".." = ".") := by decide
      simp only [follow, there, if_neg leads, if_true]
      exact ih (wf.parents there)
  | enter leads down found _ ih =>
      simp only [follow, there, if_neg leads, if_neg down]
      exact ih (grown.kept found)
  | @make location directory name names steps leads down none rest ih =>
      simp only [follow, there, if_neg leads, if_neg down]
      cases found : now.node? (location ++ [name]) with
      | none =>
          cases names with
          | nil =>
              cases rest
              exact .inl rfl
          | cons next others =>
              right
              exact ⟨by simp [follow, found], _, List.mem_cons_self, found⟩
      | some node =>
          cases node with
          | directory =>
              obtain followed | ⟨missing, made, mem, gone⟩ := ih found
              · exact .inl followed
              · exact .inr ⟨missing, made, List.mem_cons_of_mem _ mem, gone⟩
          | file content executable =>
              rw [grown.file found] at none
              cases none

theorem Makes.isMakeDirectory {names : List String}
    (h : tree.Makes location names directory steps) {step : FileStep} (mem : step ∈ steps) :
    ∃ made, step = .makeDirectory made := by
  induction h with
  | done => cases mem
  | stay _ _ ih | up _ ih | enter _ _ _ _ ih => exact ih mem
  | make _ _ _ _ ih =>
      obtain rfl | later := List.mem_cons.1 mem
      · exact ⟨_, rfl⟩
      · exact ih later

/-- The first of the planned steps are those that are planned for the first of the names. -/
theorem Makes.front {names : List String} (h : tree.Makes location names directory steps)
    {done : List FileStep} (cut : done <+: steps) :
    ∃ front last, tree.Makes location front last done := by
  induction h generalizing done with
  | done location =>
      obtain rfl := List.prefix_nil.1 cut
      exact ⟨[], location, .done location⟩
  | stay blank _ ih =>
      obtain ⟨front, last, made⟩ := ih cut
      exact ⟨_, last, .stay blank made⟩
  | up _ ih =>
      obtain ⟨front, last, made⟩ := ih cut
      exact ⟨_, last, .up made⟩
  | enter leads down found _ ih =>
      obtain ⟨front, last, made⟩ := ih cut
      exact ⟨_, last, .enter leads down found made⟩
  | @make location directory name names steps leads down none _ ih =>
      cases done with
      | nil => exact ⟨[], location, .done location⟩
      | cons first behind =>
          obtain ⟨rfl, inner⟩ := List.cons_prefix_cons.1 cut
          obtain ⟨front, last, made⟩ := ih inner
          exact ⟨_, last, .make leads down none made⟩

/-- Without a step upwards, the directories that are made are the ones on the way. -/
theorem Makes.of_plain {names : List String} (h : tree.Makes location names directory steps)
    (plain : ".." ∉ names) :
    directory = location ++ names.filter Path.leads ∧
      ∀ step ∈ steps, ∃ made, step = .makeDirectory made ∧ made <+: directory := by
  induction h with
  | done location => exact ⟨by simp, nofun⟩
  | stay blank _ ih =>
      rw [Path.filter_leads_of_blank blank]
      exact ih (List.not_mem_of_not_mem_cons plain)
  | up => exact absurd List.mem_cons_self plain
  | enter leads down found _ ih =>
      rw [Path.filter_leads_cons leads, List.append_cons]
      exact ih (List.not_mem_of_not_mem_cons plain)
  | make leads down none _ ih =>
      obtain ⟨same, made⟩ := ih (List.not_mem_of_not_mem_cons plain)
      rw [Path.filter_leads_cons leads, List.append_cons]
      refine ⟨same, ?_⟩
      intro step mem
      obtain rfl | later := List.mem_cons.1 mem
      · exact ⟨_, rfl, by rw [same]; exact List.prefix_append _ _⟩
      · exact made step later

theorem Makes.append {first second : List String} {middle : Location} {before later : List FileStep}
    (h : tree.Makes location first middle before) (rest : tree.Makes middle second directory later) :
    tree.Makes location (first ++ second) directory (before ++ later) := by
  induction h with
  | done => exact rest
  | stay blank _ ih => exact .stay blank (ih rest)
  | up _ ih => exact .up (ih rest)
  | enter leads down found _ ih => exact .enter leads down found (ih rest)
  | make leads down none _ ih => exact .make leads down none (ih rest)

/-- Names that stand for nothing are passed over. -/
theorem makes_filter_iff {names : List String} :
    tree.Makes location (names.filter Path.leads) directory steps ↔
      tree.Makes location names directory steps := by
  constructor
  · intro h
    induction names generalizing location steps with
    | nil => exact h
    | cons name rest ih =>
        by_cases blank : name = "" ∨ name = "."
        · rw [Path.filter_leads_of_blank blank] at h
          exact .stay blank (ih h)
        · rw [Path.filter_leads_cons blank] at h
          cases h with
          | stay blank' => exact absurd blank' blank
          | up inner => exact .up (ih inner)
          | enter leads down found inner => exact .enter leads down found (ih inner)
          | make leads down none inner => exact .make leads down none (ih inner)
  · intro h
    induction h with
    | done => exact .done _
    | stay blank _ ih => rwa [Path.filter_leads_of_blank blank]
    | up _ ih =>
        rw [Path.filter_leads_cons (by decide)]
        exact .up ih
    | enter leads down found _ ih =>
        rw [Path.filter_leads_cons leads]
        exact .enter leads down found ih
    | make leads down none _ ih =>
        rw [Path.filter_leads_cons leads]
        exact .make leads down none ih

/-- Nothing is made on the way to a directory that is there. -/
theorem makes_of_follow {names : List String} (h : tree.follow location names = .ok directory)
    (there : tree.node? directory = some .directory) : tree.Makes location names directory [] := by
  fun_induction follow tree location names with
  | case1 =>
      obtain rfl := Except.ok.inj h
      exact .done _
  | case2 => cases h
  | case3 => cases h
  | case4 location name rest here blank ih => exact .stay blank (ih h)
  | case5 location rest here blank ih => exact .up (ih h)
  | case6 location name rest here leads down ih =>
      cases rest with
      | nil =>
          obtain rfl := Except.ok.inj h
          exact .enter leads down there (ih h)
      | cons next others =>
          have found : tree.node? (location ++ [name]) = some .directory := by
            rw [FileTree.follow] at h
            split at h
            · cases h
            · cases h
            · next found => exact found
          exact .enter leads down found (ih h)

/-- Where no file is on the way, directories can be planned. -/
theorem exists_makes {names : List String} (plain : ∀ name ∈ names, Path.IsName name)
    (clear : tree.Clear location names) :
    ∃ made, tree.Makes location names (location ++ names) made := by
  induction names generalizing location with
  | nil => exact ⟨[], by simpa using Makes.done location⟩
  | cons name rest ih =>
      have first := plain name List.mem_cons_self
      have leads : ¬(name = "" ∨ name = ".") := not_or.2 ⟨first.nonempty, first.dot⟩
      obtain ⟨made, later⟩ := ih (fun other mem => plain other (List.mem_cons_of_mem _ mem)) clear.tail
      rw [← List.append_cons] at later
      cases found : tree.node? (location ++ [name]) with
      | none => exact ⟨_, .make leads first.dots found later⟩
      | some node =>
          cases node with
          | directory => exact ⟨_, .enter leads first.dots found later⟩
          | file content executable => exact absurd found (clear.tail.here content executable)

theorem planDirectory_of_makes (zero : '\x00' ∉ path.toList)
    (h : tree.Makes (tree.start path) (names path) directory steps) :
    tree.planDirectory path = .ok (directory, steps) := by
  have plain : path.toList.contains '\x00' = false := by simpa using zero
  simp only [planDirectory, plain, h.directorySteps]
  rfl

theorem planDirectory_eq_ok (h : tree.planDirectory path = .ok (directory, steps)) :
    '\x00' ∉ path.toList ∧ tree.Makes (tree.start path) (names path) directory steps := by
  rw [planDirectory] at h
  split at h
  · cases h
  · next plain => exact ⟨by simpa using plain, makes_of_directorySteps h⟩

theorem perform_planDirectory (wf : tree.WellFormed)
    (planned : tree.planDirectory path = .ok (directory, steps)) :
    ∃ after, tree.perform steps = (after, none) ∧ tree.Extends after ∧ after.WellFormed ∧
      after.LeadsTo path directory ∧ after.node? directory = some .directory := by
  obtain ⟨zero, makes⟩ := planDirectory_eq_ok planned
  obtain ⟨after, done, more, wf', last, followed⟩ :=
    makes.perform wf (.refl tree) (wf.start path)
  have same : after.start path = tree.start path := by rw [start, start, more.current]
  exact ⟨after, done, more, wf', ⟨zero, .inl (by rwa [same])⟩, last⟩

theorem LeadsTo.makeDirectories (h : tree.LeadsTo path directory)
    (there : tree.node? directory = some .directory) : tree.makeDirectories path = .ok tree := by
  have planned := planDirectory_of_makes h.zero (makes_of_follow (h.follow there) there)
  simp only [FileTree.makeDirectories, planned, bind, Except.bind, perform]
  rfl

/-- Directories that are made on the way to one leave what stands below it as it is. -/
theorem node?_of_makes_below {made : List FileStep}
    (each : ∀ step ∈ made, ∃ location, step = .makeDirectory location ∧ location <+: directory)
    (finished : tree.perform made = (after, none)) (below : directory.length < location.length) :
    after.node? location = tree.node? location := by
  have spared : ∀ step ∈ made, step.Spares location := by
    intro step mem
    obtain ⟨other, rfl, within⟩ := each step mem
    rintro rfl
    have short := within.length_le
    omega
  have kept := node?_perform_of_spares tree spared
  rwa [finished] at kept

/-! Files -/

structure Placed (tree : FileTree) (target : Location) (node : FileNode) (after : FileTree) :
    Prop where
  wellFormed : after.WellFormed
  current : after.current = tree.current
  node : ∀ location, after.node? location =
    if location = target then some node else tree.node? location

theorem placed_set (wf : tree.WellFormed) (inside : target ≠ [])
    (parent : tree.node? target.dropLast = some .directory)
    (free : tree.node? target ≠ some .directory) (node : FileNode) :
    tree.Placed target node (tree.set target node) where
  wellFormed := wf.set inside parent fun found => absurd found free
  current := rfl
  node location := by
    by_cases root : location = []
    · subst root
      rw [if_neg (Ne.symm inside), node?_nil, node?_nil]
    · exact node?_set _ _ _ _ root

theorem Placed.keeps {node : FileNode} (h : tree.Placed target node after)
    (free : tree.node? target ≠ some .directory)
    (there : tree.node? location = some .directory) : after.node? location = some .directory := by
  rw [h.node, if_neg, there]
  rintro rfl
  exact free there

/-- A draft is a file like any other until it is moved. -/
theorem perform_draft (wf : tree.WellFormed) (inside : draft ≠ []) (free : tree.node? draft = none)
    (parent : tree.node? draft.dropLast = some .directory) (content : Bytes) :
    ∃ drafted, tree.perform [.create draft, .append draft content, .flush draft] = (drafted, none) ∧
      tree.Placed draft (.file content false) drafted := by
  let empty := tree.set draft (.file [] false)
  have noDirectory : tree.node? draft ≠ some .directory := by
    rw [free]
    exact nofun
  have first : tree.Placed draft (.file [] false) empty := placed_set wf inside parent noDirectory _
  have there : empty.node? draft = some (.file [] false) := by rw [first.node, if_pos rfl]
  have second : empty.Placed draft (.file content false)
      (empty.set draft (.file content false)) := by
    apply placed_set first.wellFormed inside (first.keeps noDirectory parent)
    rw [there]
    exact nofun
  refine ⟨_, ?_, second.wellFormed, second.current, ?_⟩
  · have made : (FileStep.create draft).apply tree = .ok empty := by
      simp [FileStep.apply, free, isDirectory, parent, empty]
    have filled : (FileStep.append draft content).apply empty =
        .ok (empty.set draft (.file content false)) := by
      simp [FileStep.apply, there]
    simp only [perform, made, filled]
    rfl
  · intro location
    rw [second.node]
    split
    · rfl
    · next other => rw [first.node, if_neg other]

def MovesTo (tree : FileTree) (draft target : Location) (moved : FileStep) : Prop :=
  moved = .move draft target ∧ tree.node? target ≠ some .directory ∨
    moved = .moveNew draft target ∧ tree.node? target = none

theorem perform_placeSteps (wf : tree.WellFormed) {moved : FileStep}
    (free : tree.node? draft = none)
    (parent : tree.node? draft.dropLast = some .directory) (inside : target ≠ [])
    (sibling : tree.node? target.dropLast = some .directory) (apart : target ≠ draft)
    (content : Bytes) (moves : tree.MovesTo draft target moved) :
    ∃ after, tree.perform (placeSteps draft content moved) = (after, none) ∧
      tree.Placed target (.file content false) after := by
  have drafts : draft ≠ [] := by rintro rfl; cases free
  have noDirectory : tree.node? draft ≠ some .directory := by
    rw [free]
    exact nofun
  have vacant : tree.node? target ≠ some .directory := by
    obtain ⟨-, vacant⟩ | ⟨-, none⟩ := moves
    · exact vacant
    · rw [none]
      exact nofun
  obtain ⟨drafted, done, first⟩ := perform_draft wf drafts free parent content
  have there : drafted.node? draft = some (.file content false) := by rw [first.node, if_pos rfl]
  have before : drafted.node? target = tree.node? target := by rw [first.node, if_neg apart]
  let cleared := drafted.erase draft
  have removed (location : Location) : cleared.node? location = tree.node? location := by
    by_cases root : location = []
    · rw [root, node?_nil, node?_nil]
    · rw [node?_erase _ _ _ root]
      split
      · next same => rw [same, free]
      · next other => rw [first.node, if_neg other]
  have kept : cleared.WellFormed := by
    apply first.wellFormed.erase
    rw [there]
    exact nofun
  have last : cleared.Placed target (.file content false)
      (cleared.set target (.file content false)) :=
    placed_set kept inside (by rwa [removed]) (by rwa [removed]) _
  have step : moved.apply drafted = .ok (cleared.set target (.file content false)) := by
    obtain ⟨rfl, -⟩ | ⟨rfl, none⟩ := moves
    · cases found : tree.node? target with
      | none => simp [FileStep.apply, there, before, found, cleared]
      | some node =>
          cases node with
          | directory => exact absurd found vacant
          | file => simp [FileStep.apply, there, before, found, cleared]
    · simp [FileStep.apply, there, before, none, cleared]
  refine ⟨_, ?_, last.wellFormed, last.current.trans first.current, ?_⟩
  · have whole : placeSteps draft content moved =
        [.create draft, .append draft content, .flush draft] ++ [moved] := rfl
    rw [whole, perform_append_of_done done]
    simp only [perform, step]
  · intro location
    rw [last.node, removed]

/-- When a file was replaced, its place was free and it is there in whole. -/
theorem placed_of_perform (wf : tree.WellFormed) (inside : target ≠ [])
    (sibling : tree.node? target.dropLast = some .directory) (apart : target ≠ draft)
    (done : tree.perform (replaceSteps draft target content) = (after, none)) :
    tree.node? target ≠ some .directory ∧ tree.Placed target (.file content false) after := by
  have free : tree.node? draft = none := by
    cases found : tree.node? draft with
    | none => rfl
    | some node => simp [replaceSteps, placeSteps, perform, FileStep.apply, found] at done
  have parent : tree.node? draft.dropLast = some .directory := by
    by_contra missing
    simp [replaceSteps, placeSteps, perform, FileStep.apply, free, isDirectory, missing] at done
  have vacant : tree.node? target ≠ some .directory := by
    intro found
    have drafts : draft ≠ [] := by rintro rfl; cases free
    obtain ⟨drafted, ready, first⟩ := perform_draft wf drafts free parent content
    have there : drafted.node? draft = some (.file content false) := by rw [first.node, if_pos rfl]
    have blocked : drafted.node? target = some .directory := by rw [first.node, if_neg apart, found]
    have whole : replaceSteps draft target content =
        [.create draft, .append draft content, .flush draft] ++ [.move draft target] := rfl
    rw [whole, perform_append_of_done ready] at done
    simp [perform, FileStep.apply, there, blocked] at done
  obtain ⟨placed, same, spec⟩ :=
    perform_placeSteps wf free parent inside sibling apart content (.inl ⟨rfl, vacant⟩)
  rw [replaceSteps, same] at done
  obtain ⟨rfl, -⟩ := Prod.mk.inj done
  exact ⟨vacant, spec⟩

theorem exists_draft (tree : FileTree) (directory : Location) :
    ∃ rest, tree.draft directory = directory ++ [".tmp" ++ rest] := by
  obtain ⟨n, same, -⟩ := exists_freshName tree directory ".tmp"
  exact ⟨padded 6 n, by rw [draft, same]⟩

theorem append_ne_draft (tree : FileTree) (directory : Location)
    (h : ∀ rest, name ≠ ".tmp" ++ rest) : directory ++ [name] ≠ tree.draft directory := by
  obtain ⟨rest, same⟩ := exists_draft tree directory
  simpa [same] using h rest

/-- A draft has a name that no node of its directory has. -/
theorem node?_draft (unique : (tree.nodes.map (·.1)).Nodup) (directory : Location) :
    tree.node? (tree.draft directory) = none := by
  obtain ⟨n, same, free⟩ := exists_freshName tree directory ".tmp"
  rw [mem_childNames_iff unique] at free
  rw [draft, same]
  by_contra there
  exact free (Option.ne_none_iff_exists'.1 there)

theorem carryOut_of_done (h : tree.perform steps = (after, none)) (draft : Location) :
    tree.carryOut draft steps = (after, none) := by
  rw [carryOut, h]

theorem perform_of_carryOut (h : tree.carryOut draft steps = (after, none)) :
    tree.perform steps = (after, none) := by
  rw [carryOut] at h
  split at h
  · next done => rw [done, h]
  · cases h

end FileTree

end Graft
