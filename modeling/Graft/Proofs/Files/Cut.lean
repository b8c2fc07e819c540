import Graft.Proofs.Files.Step

/-!
Changes that stop on the way. A cut of a list of steps is what has been done of them at some moment
(`Cut`). While a file is being drafted, nothing but the draft has changed
(`FileTree.perform_of_drafts`); while the directories for it are being made, no file has changed
(`FileTree.Prepares`).
-/

namespace Graft

open Text

/-- What has been done of some steps at some moment: the first of them, and perhaps a part of what
the next one appends. -/
inductive Cut : List FileStep → List FileStep → Prop
  | stop (steps : List FileStep) : Cut steps []
  | short {location : Location} {content part : Bytes} (h : part <+: content)
      (rest : List FileStep) : Cut (.append location content :: rest) [.append location part]
  | step (step : FileStep) {rest done : List FileStep} (h : Cut rest done) :
      Cut (step :: rest) (step :: done)

namespace Cut

variable {steps done : List FileStep}

theorem of_append {first second : List FileStep} (h : Cut (first ++ second) done) :
    Cut first done ∨ ∃ later, done = first ++ later ∧ Cut second later := by
  induction first generalizing done with
  | nil => exact .inr ⟨done, rfl, h⟩
  | cons step rest ih =>
      cases h with
      | stop => exact .inl (.stop _)
      | short part rest => exact .inl (.short part _)
      | step _ inner =>
          obtain within | ⟨later, rfl, behind⟩ := ih inner
          · exact .inl (.step step within)
          · exact .inr ⟨later, rfl, behind⟩

theorem prepend (first : List FileStep) (h : Cut steps done) :
    Cut (first ++ steps) (first ++ done) := by
  induction first with
  | nil => exact h
  | cons step _ ih => exact .step step ih

theorem take (steps : List FileStep) (n : Nat) : Cut steps (steps.take n) := by
  induction steps generalizing n with
  | nil => simpa using Cut.stop []
  | cons step rest ih =>
      cases n with
      | zero => exact .stop _
      | succ n => exact .step step (ih n)

/-- What every step leaves as it is, a part of the steps leaves as well. -/
theorem spares {location : Location} (h : Cut steps done)
    (spared : ∀ step ∈ steps, step.Spares location) : ∀ step ∈ done, step.Spares location := by
  induction h with
  | stop => exact nofun
  | @short location content part _ rest =>
      intro step mem
      obtain rfl := List.mem_singleton.1 mem
      exact spared (.append location content) List.mem_cons_self
  | step step _ ih =>
      rw [List.forall_mem_cons] at spared ⊢
      exact ⟨spared.1, ih spared.2⟩

/-- Without a step that appends, the first of the steps have been done. -/
theorem isPrefix (h : Cut steps done) (whole : ∀ location content, .append location content ∉ steps) :
    done <+: steps := by
  induction h with
  | stop => exact List.nil_prefix
  | short => exact absurd List.mem_cons_self (whole _ _)
  | step step _ ih =>
      rw [List.cons_prefix_cons]
      exact ⟨rfl, ih fun location content mem => whole _ _ (List.mem_cons_of_mem _ mem)⟩

end Cut

def FileStep.Drafts (draft : Location) : FileStep → Prop
  | .create location | .append location _ | .flush location => location = draft
  | _ => False

namespace FileTree

variable {tree next after : FileTree} {location draft : Location} {steps : List FileStep}

structure Drafting (draft : Location) (tree after : FileTree) : Prop where
  wellFormed : after.WellFormed
  current : after.current = tree.current
  others : ∀ location, location ≠ draft → after.node? location = tree.node? location
  leaf : after.node? draft ≠ some .directory

theorem Drafting.refl (wf : tree.WellFormed) (leaf : tree.node? draft ≠ some .directory) :
    Drafting draft tree tree :=
  ⟨wf, rfl, fun _ _ => rfl, leaf⟩

theorem Drafting.trans (first : Drafting draft tree next) (second : Drafting draft next after) :
    Drafting draft tree after where
  wellFormed := second.wellFormed
  current := second.current.trans first.current
  others location other := (second.others location other).trans (first.others location other)
  leaf := second.leaf

theorem drafting_set (wf : tree.WellFormed)
    (parent : tree.node? draft.dropLast = some .directory)
    (leaf : tree.node? draft ≠ some .directory) (content : Bytes) (executable : Bool) :
    Drafting draft tree (tree.set draft (.file content executable)) := by
  have inside : draft ≠ [] := by
    rintro rfl
    exact leaf rfl
  have placed := placed_set wf inside parent leaf (.file content executable)
  refine ⟨placed.wellFormed, placed.current, ?_, ?_⟩
  · intro location other
    rw [placed.node, if_neg other]
  · rw [placed.node, if_pos rfl]
    exact nofun

theorem drafting_erase (wf : tree.WellFormed) (leaf : tree.node? draft ≠ some .directory) :
    Drafting draft tree (tree.erase draft) := by
  have inside : draft ≠ [] := by
    rintro rfl
    exact leaf rfl
  refine ⟨wf.erase leaf, rfl, ?_, ?_⟩
  · intro location other
    by_cases root : location = []
    · rw [root, node?_nil, node?_nil]
    · rw [node?_erase _ _ _ root, if_neg other]
  · rw [node?_erase _ _ _ inside, if_pos rfl]
    exact nofun

theorem apply_of_drafts (wf : tree.WellFormed) (leaf : tree.node? draft ≠ some .directory)
    {step : FileStep} (drafts : step.Drafts draft) (done : step.apply tree = .ok next) :
    Drafting draft tree next := by
  cases step with
  | create location =>
      obtain rfl : location = draft := drafts
      simp only [FileStep.apply] at done
      split at done
      · split at done
        · next parent =>
            obtain rfl := Except.ok.inj done
            exact drafting_set wf (by simpa [isDirectory] using parent) leaf _ _
        · cases done
      · cases done
  | append location content =>
      obtain rfl : location = draft := drafts
      simp only [FileStep.apply] at done
      split at done
      · next found =>
          obtain rfl := Except.ok.inj done
          exact drafting_set wf (wf.parents found) leaf _ _
      · cases done
      · cases done
  | flush location =>
      obtain rfl := Except.ok.inj done
      exact .refl wf leaf
  | makeDirectory | move | moveNew | remove => cases drafts

/-- Steps that write a draft change nothing else, also when one of them fails. -/
theorem drafting_perform (wf : tree.WellFormed) (leaf : tree.node? draft ≠ some .directory)
    (drafts : ∀ step ∈ steps, step.Drafts draft) : Drafting draft tree (tree.perform steps).1 := by
  induction steps generalizing tree with
  | nil => exact .refl wf leaf
  | cons step rest ih =>
      rw [List.forall_mem_cons] at drafts
      rw [perform]
      cases applied : step.apply tree with
      | ok next =>
          have first := apply_of_drafts wf leaf drafts.1 applied
          exact first.trans (ih first.wellFormed first.leaf drafts.2)
      | error => exact .refl wf leaf

theorem perform_of_drafts (wf : tree.WellFormed) (leaf : tree.node? draft ≠ some .directory)
    (drafts : ∀ step ∈ steps, step.Drafts draft) (done : tree.perform steps = (after, none)) :
    Drafting draft tree after := by
  have drafting := drafting_perform wf leaf drafts
  rwa [done] at drafting

/-- A draft that cannot be moved to its place stays a draft. -/
theorem drafting_of_taken (wf : tree.WellFormed) (leaf : tree.node? draft ≠ some .directory)
    {target : Location} (apart : target ≠ draft) (taken : tree.node? target ≠ none)
    (content : Bytes) (later : List FileStep) :
    Drafting draft tree (tree.perform (addSteps draft target content ++ later)).1 := by
  have drafts : ∀ step ∈ [FileStep.create draft, .append draft content, .flush draft],
      step.Drafts draft := by simp [FileStep.Drafts]
  have drafting := drafting_perform wf leaf drafts
  have whole : addSteps draft target content ++ later =
      [.create draft, .append draft content, .flush draft] ++ (.moveNew draft target :: later) := rfl
  rw [whole, perform_append]
  split
  · next drafted done =>
      rw [done] at drafting
      have blocked : ∃ error, (FileStep.moveNew draft target).apply drafted = .error error := by
        obtain ⟨node, found⟩ := Option.ne_none_iff_exists'.1 taken
        have there : drafted.node? target = some node := (drafting.others target apart).trans found
        cases source : drafted.node? draft with
        | none => exact ⟨.notFound, by simp [FileStep.apply, source]⟩
        | some other => exact ⟨.exists, by simp [FileStep.apply, source, there]⟩
      obtain ⟨error, blocked⟩ := blocked
      simpa only [perform, blocked] using drafting
  · next drafted error done =>
      rwa [done] at drafting

/-- A file has been moved, or all that was done is a part of its draft. -/
theorem cut_placeSteps {moved : FileStep} {content : Bytes} {done : List FileStep}
    (whole : ∀ location content, moved ≠ .append location content)
    (h : Cut (placeSteps draft content moved) done) :
    done = placeSteps draft content moved ∨ ∀ step ∈ done, step.Drafts draft := by
  unfold placeSteps at h ⊢
  cases h with
  | stop => exact .inr nofun
  | step _ h =>
      cases h with
      | stop => exact .inr (by simp [FileStep.Drafts])
      | short => exact .inr (by simp [FileStep.Drafts])
      | step _ h =>
          cases h with
          | stop => exact .inr (by simp [FileStep.Drafts])
          | step _ h =>
              cases h with
              | stop => exact .inr (by simp [FileStep.Drafts])
              | short => exact absurd rfl (whole _ _)
              | step _ h =>
                  cases h with
                  | stop => exact .inl rfl

/-- A file is either in its place, or all that was done is a part of its draft. -/
theorem cut_replaceSteps {target : Location} {content : Bytes} {done : List FileStep}
    (h : Cut (replaceSteps draft target content) done) :
    done = replaceSteps draft target content ∨ ∀ step ∈ done, step.Drafts draft :=
  cut_placeSteps nofun h

theorem cut_addSteps {target : Location} {content : Bytes} {done : List FileStep}
    (h : Cut (addSteps draft target content) done) :
    done = addSteps draft target content ∨ ∀ step ∈ done, step.Drafts draft :=
  cut_placeSteps nofun h

/-- A change that begins with a file is still drafting it, or has put it in its place. -/
theorem cut_replaceSteps_append {target : Location} {content : Bytes} {done : List FileStep}
    (h : Cut (replaceSteps draft target content ++ steps) done) :
    (∀ step ∈ done, step.Drafts draft) ∨
      ∃ later, done = replaceSteps draft target content ++ later ∧ Cut steps later := by
  obtain within | behind := h.of_append
  · obtain rfl | drafts := cut_replaceSteps within
    · exact .inr ⟨[], (List.append_nil _).symm, .stop steps⟩
    · exact .inl drafts
  · exact .inr behind

theorem erase_of_none (h : tree.node? location = none) : tree.erase location = tree := by
  have inside : location ≠ [] := by
    rintro rfl
    cases h
  rw [node?_of_ne_nil _ inside, List.lookup_eq_none_iff] at h
  have same : tree.nodes.filter (·.1 != location) = tree.nodes := by
    rw [List.filter_eq_self]
    intro entry mem
    have differ := h entry mem
    rw [bne_iff_ne] at differ
    exact bne_iff_ne.2 differ.symm
  rw [erase, same]

/-! Directories -/

/-- That some steps make a directory, and those that are missing on the way to it. -/
structure Prepares (tree : FileTree) (directory : Location) (made : List FileStep) : Prop where
  makes : ∃ start names, tree.node? start = some .directory ∧ tree.Makes start names directory made
  each : ∀ step ∈ made, ∃ location, step = .makeDirectory location ∧ location <+: directory

namespace Prepares

variable {directory : Location} {made front : List FileStep}

theorem perform (h : tree.Prepares directory made) (wf : tree.WellFormed) :
    ∃ grown, tree.perform made = (grown, none) ∧ tree.Extends grown ∧ grown.WellFormed ∧
      grown.node? directory = some .directory := by
  obtain ⟨start, names, there, makes⟩ := h.makes
  obtain ⟨grown, done, more, wf', last, -⟩ := makes.perform wf (.refl tree) there
  exact ⟨grown, done, more, wf', last⟩

/-- The first of the steps make directories as well. -/
theorem perform_front (h : tree.Prepares directory made) (wf : tree.WellFormed)
    (within : front <+: made) :
    ∃ grown, tree.perform front = (grown, none) ∧ tree.Extends grown ∧ grown.WellFormed := by
  obtain ⟨start, names, there, makes⟩ := h.makes
  obtain ⟨names, last, part⟩ := makes.front within
  obtain ⟨grown, done, more, wf', -, -⟩ := part.perform wf (.refl tree) there
  exact ⟨grown, done, more, wf'⟩

theorem node?_below (h : tree.Prepares directory made) (within : front <+: made)
    (done : tree.perform front = (after, none)) (below : directory.length < location.length) :
    after.node? location = tree.node? location :=
  node?_of_makes_below (fun step mem => h.each step (within.subset mem)) done below

theorem isPrefix_of_cut (h : tree.Prepares directory made) {done : List FileStep}
    (cut : Cut made done) : done <+: made := by
  apply cut.isPrefix
  intro location content mem
  obtain ⟨other, same, -⟩ := h.each _ mem
  cases same

/-- No file stands where a directory is made. -/
theorem spares (h : tree.Prepares directory made) (wf : tree.WellFormed) {content : Bytes}
    {executable : Bool} (found : tree.node? location = some (.file content executable)) :
    ∀ step ∈ made, step.Spares location := by
  intro step mem
  obtain ⟨other, rfl, below, rfl⟩ := h.each step mem
  obtain ⟨grown, -, more, wf', there⟩ := h.perform wf
  rintro rfl
  have kept := more.kept found
  cases below with
  | nil =>
      rw [List.append_nil, kept] at there
      cases there
  | cons name rest =>
      rw [wf'.above there] at kept
      cases kept

end Prepares

end FileTree

end Graft
