import Graft.Proofs.Store.Adding

/-!
Puts that stop on the way. Until the draft is moved, a put has made directories and a part of the draft,
which no answer of the store tells of; when it has been moved, the put is complete. So whenever a put is
stopped, the store answers as before it or as after it (`CandidateFiles.put_atomic`).
-/

namespace Graft

open Text

namespace CandidateFiles

variable {base : String} {tree grown reached after stored : FileTree} {root directory : Location}
  {unit : UnitId} {ordinal attempt : Nat} {made done : List FileStep} {name text : String}

/-! Changes that no answer tells of -/

theorem alike_of_same (wf : after.WellFormed) (current : after.current = tree.current)
    (same : ∀ location, after.node? location = tree.node? location) : Alike root tree after where
  wellFormed := wf
  current := current
  kept there := (same _).trans there
  above _ := .inl (same _)
  below _ _ := same _

/-- Directories on the way to a function. -/
theorem alike_of_extends (more : tree.Extends after) (wf : after.WellFormed)
    (below : ∀ {location : Location}, root.length + 2 < location.length →
      after.node? location = tree.node? location) : Alike root tree after where
  wellFormed := wf
  current := more.current
  kept := more.kept
  above {location} _ := by
    cases before : tree.node? location with
    | some node => exact .inl (more.kept before)
    | none =>
        obtain none | there := more.added before
        · exact .inl none
        · exact .inr ⟨rfl, there⟩
  below long _ := below (by simp [long])

/-- A draft, as far as it is written. -/
theorem alike_of_drafting (long : directory.length = root.length + 2) {rest : String}
    (leaf : tree.node? (directory ++ [".tmp" ++ rest]) ≠ some .directory)
    (drafting : FileTree.Drafting (directory ++ [".tmp" ++ rest]) tree after) :
    Alike root tree after where
  wellFormed := drafting.wellFormed
  current := drafting.current
  kept {location} there := by
    rw [drafting.others, there]
    rintro rfl
    exact leaf there
  above {location} short := by
    refine .inl (drafting.others location ?_)
    rintro rfl
    simp [long] at short
  below {location name} _ other := by
    refine drafting.others _ ?_
    intro same
    exact other rest (List.singleton_inj.1 (List.append_inj_right' same rfl))

/-! How far a put has come -/

/-- A put is still making directories or drafting, or has moved the draft. -/
theorem cut_putSteps (prepares : tree.Prepares directory made)
    (cut : Cut (putSteps made directory name attempt text) done) :
    done <+: made ∨
      (∃ later, done = made ++ later ∧ ∀ step ∈ later, step.Drafts (directory ++ [name])) ∨
      ∃ later, later <+: [.flush directory] ∧ done = made ++
        (FileTree.addSteps (directory ++ [name]) (directory ++ [nameOf attempt]) (encode text) ++
          later) := by
  rw [putSteps, List.append_assoc] at cut
  obtain directories | ⟨behind, rfl, others⟩ := cut.of_append
  · exact .inl (prepares.isPrefix_of_cut directories)
  · right
    obtain files | ⟨later, rfl, last⟩ := others.of_append
    · obtain rfl | drafts := FileTree.cut_addSteps files
      · exact .inr ⟨[], List.nil_prefix, by rw [List.append_nil]⟩
      · exact .inl ⟨behind, rfl, drafts⟩
    · refine .inr ⟨later, last.isPrefix ?_, rfl⟩
      intro location content mem
      cases List.mem_singleton.1 mem

/-- While directories are being made, the draft is not there. -/
theorem alike_of_front (wf : tree.WellFormed) (long : directory.length = root.length + 2)
    (prepares : tree.Prepares directory made) (free : tree.node? (directory ++ [name]) = none)
    (front : done <+: made)
    (stopped : after = (tree.perform done).1 ∨
      after = (tree.perform done).1.erase (directory ++ [name])) : Alike root tree after := by
  obtain ⟨now, finished, more, wf'⟩ := prepares.perform_front wf front
  have below {location : Location} (deep : root.length + 2 < location.length) :
      now.node? location = tree.node? location :=
    prepares.node?_below front finished (by omega)
  rw [finished] at stopped
  have same : after = now := by
    obtain rfl | rfl := stopped
    · rfl
    · exact FileTree.erase_of_none ((below (by simp [long])).trans free)
  rw [same]
  exact alike_of_extends more wf' below

/-- While the draft is being written, the directory for it is there. -/
theorem alike_of_drafts (wf : tree.WellFormed) (long : directory.length = root.length + 2)
    (prepares : tree.Prepares directory made) {rest : String}
    (free : tree.node? (directory ++ [".tmp" ++ rest]) = none)
    (drafting : ∀ {grown : FileTree}, tree.perform made = (grown, none) → grown.WellFormed →
      (∀ name, grown.node? (directory ++ [name]) = tree.node? (directory ++ [name])) →
      FileTree.Drafting (directory ++ [".tmp" ++ rest]) grown reached)
    (stopped : after = reached ∨ after = reached.erase (directory ++ [".tmp" ++ rest])) :
    Alike root tree after := by
  obtain ⟨grown, finished, more, wf', -⟩ := prepares.perform wf
  have below {location : Location} (deep : root.length + 2 < location.length) :
      grown.node? location = tree.node? location :=
    prepares.node?_below (List.prefix_refl _) finished (by omega)
  have leaf : grown.node? (directory ++ [".tmp" ++ rest]) ≠ some .directory := by
    rw [below (by simp [long]), free]
    exact nofun
  have drafting := drafting finished wf' fun name => below (by simp [long])
  have drafting : FileTree.Drafting (directory ++ [".tmp" ++ rest]) grown after := by
    obtain rfl | rfl := stopped
    · exact drafting
    · exact drafting.trans (FileTree.drafting_erase drafting.wellFormed drafting.leaf)
  exact (alike_of_extends more wf' below).trans (alike_of_drafting long leaf drafting)

/-- When the draft has been moved, the put is complete. -/
theorem alike_of_moved (wf : tree.WellFormed) (prepares : tree.Prepares directory made)
    {rest : String} (free : tree.node? (directory ++ [".tmp" ++ rest]) = none)
    (vacant : tree.node? (directory ++ [nameOf attempt]) = none)
    (finished : tree.perform made = (grown, none))
    (complete : grown.Placed (directory ++ [nameOf attempt]) (.file (encode text) false) stored)
    {later : List FileStep} (last : later <+: [.flush directory])
    (stopped : after = (tree.perform (made ++ (FileTree.addSteps (directory ++ [".tmp" ++ rest])
        (directory ++ [nameOf attempt]) (encode text) ++ later))).1 ∨
      after = (tree.perform (made ++ (FileTree.addSteps (directory ++ [".tmp" ++ rest])
        (directory ++ [nameOf attempt]) (encode text) ++ later))).1.erase
          (directory ++ [".tmp" ++ rest])) :
    Alike root stored after := by
  obtain ⟨grown', reached, finished', more, there, performed, placed⟩ :=
    perform_putSteps wf prepares free (nameOf_ne attempt rest) vacant text
  obtain ⟨rfl, -⟩ := Prod.mk.inj (finished.symm.trans finished')
  have ended : (tree.perform (made ++ (FileTree.addSteps (directory ++ [".tmp" ++ rest])
      (directory ++ [nameOf attempt]) (encode text) ++ later))).1 = reached := by
    obtain ⟨moved, whole, flushed⟩ := FileTree.exists_middle_of_perform performed
    obtain ⟨rfl, -⟩ := Prod.mk.inj flushed
    rw [← List.append_assoc, FileTree.perform_append_of_done whole]
    cases later with
    | nil => rfl
    | cons step behind =>
        obtain ⟨rfl, none⟩ := List.cons_prefix_cons.1 last
        obtain rfl := List.prefix_nil.1 none
        rfl
  have gone : reached.node? (directory ++ [".tmp" ++ rest]) = none := by
    rw [placed.node, if_neg (by simpa using (nameOf_ne attempt rest).symm),
      prepares.node?_below (List.prefix_refl _) finished (by simp), free]
  have same : after = reached := by
    rw [ended, FileTree.erase_of_none gone] at stopped
    exact stopped.elim id id
  rw [same]
  refine alike_of_same placed.wellFormed (placed.current.trans complete.current.symm) ?_
  intro location
  rw [placed.node, complete.node]

/-- A put that is stopped has left a draft at most, or the whole candidate. -/
theorem alike_of_cut (wf : tree.WellFormed) (long : directory.length = root.length + 2)
    (prepares : tree.Prepares directory made) {rest : String}
    (free : tree.node? (directory ++ [".tmp" ++ rest]) = none)
    (finished : tree.perform made = (grown, none))
    (complete : tree.node? (directory ++ [nameOf attempt]) = none →
      grown.Placed (directory ++ [nameOf attempt]) (.file (encode text) false) stored)
    (cut : Cut (putSteps made directory (".tmp" ++ rest) attempt text) done)
    (stopped : after = (tree.perform done).1 ∨
      after = (tree.perform done).1.erase (directory ++ [".tmp" ++ rest])) :
    Alike root tree after ∨
      tree.node? (directory ++ [nameOf attempt]) = none ∧ Alike root stored after := by
  have leaf {now : FileTree}
      (below : ∀ name, now.node? (directory ++ [name]) = tree.node? (directory ++ [name])) :
      now.node? (directory ++ [".tmp" ++ rest]) ≠ some .directory := by
    rw [below, free]
    exact nofun
  obtain front | ⟨later, rfl, drafts⟩ | ⟨later, last, rfl⟩ := cut_putSteps prepares cut
  · exact .inl (alike_of_front wf long prepares free front stopped)
  · left
    refine alike_of_drafts wf long prepares free ?_ stopped
    intro now ready wf' below
    rw [FileTree.perform_append_of_done ready]
    exact FileTree.drafting_perform wf' (leaf below) drafts
  · by_cases vacant : tree.node? (directory ++ [nameOf attempt]) = none
    · right
      exact ⟨vacant,
        alike_of_moved wf prepares free vacant finished (complete vacant) last stopped⟩
    · -- nothing is moved to where something is
      left
      refine alike_of_drafts wf long prepares free ?_ stopped
      intro now ready wf' below
      rw [FileTree.perform_append_of_done ready]
      exact FileTree.drafting_of_taken wf' (leaf below) (by simpa using nameOf_ne attempt rest)
        (by rwa [below]) (encode text) later

/-- A put is atomic. However far its steps have come when it is stopped, with the draft left behind or
removed, and however the draft was named: every request is answered as it was before the put, or every
request is answered as it is when the put is complete. -/
theorem put_atomic (opened : IsOpen base root tree) (plain : Path.IsName unit.name) (text : String) :
    (∀ error, plan base unit ordinal text tree = .error error →
        put base unit ordinal text tree = (.error error, tree)) ∧
      ∀ attempt draft steps, plan base unit ordinal text tree = .ok (attempt, draft, steps) →
        ∃ made, steps = putSteps made (root ++ [unit.name, toString ordinal])
            (tree.freshName (root ++ [unit.name, toString ordinal]) ".tmp") attempt text ∧
          ∀ rest done after,
            tree.node? (root ++ [unit.name, toString ordinal] ++ [".tmp" ++ rest]) = none →
            Cut (putSteps made (root ++ [unit.name, toString ordinal]) (".tmp" ++ rest) attempt text)
              done →
            (after = (tree.perform done).1 ∨ after = (tree.perform done).1.erase
              (root ++ [unit.name, toString ordinal] ++ [".tmp" ++ rest])) →
            AnswersAlike base tree after ∨
              AnswersAlike base (put base unit ordinal text tree).2 after := by
  constructor
  · intro error refused
    unfold put
    rw [refused]
  · intro attempt draft steps planned
    obtain ⟨positive, clear⟩ := of_plan_eq_ok opened plain planned
    obtain ⟨made, prepares, planned'⟩ := plan_of_clear opened plain positive clear text
    generalize nextOf (attemptsAmong (tree.childNames (root ++ [unit.name, toString ordinal]))) =
      next at planned'
    obtain ⟨rfl, same⟩ := Prod.mk.inj (Except.ok.inj (planned'.symm.trans planned))
    obtain ⟨rfl, rfl⟩ := Prod.mk.inj same
    refine ⟨made, rfl, ?_⟩
    intro rest done after free cut stopped
    have wf := opened.wellFormed
    obtain ⟨grown, finished, more, -, -⟩ := prepares.perform wf
    have complete
        (vacant : tree.node? (root ++ [unit.name, toString ordinal] ++ [nameOf next]) = none) :
        grown.Placed (root ++ [unit.name, toString ordinal] ++ [nameOf next])
          (.file (encode text) false) (put base unit ordinal text tree).2 := by
      obtain ⟨grown', after, finished', -, -, stored, placed⟩ :=
        put_of_plan wf prepares planned' vacant
      obtain ⟨rfl, -⟩ := Prod.mk.inj (finished.symm.trans finished')
      rwa [stored]
    have long : (root ++ [unit.name, toString ordinal]).length = root.length + 2 := by simp
    obtain before | ⟨vacant, behind⟩ :=
      alike_of_cut wf long prepares free finished complete cut stopped
    · exact .inl (before.answers opened)
    · have missing :
          grown.node? (root ++ [unit.name, toString ordinal] ++ [nameOf next]) = none :=
        (prepares.node?_below (List.prefix_refl _) finished (by simp)).trans vacant
      exact .inr (behind.answers (isOpen_of_placed opened more (complete vacant) missing))

/-- A put behind the highest attempt, which becomes attempt zero, stops in the middle of its draft. -/
theorem put_atomic_in_the_draft :
    IsOpen "c" ["c"] (strayTree "4294967295.txt") ∧ Path.IsName "u" ∧ ∃ made done,
      done = made ++ [.create ["c", "u", "1", ".tmpZ9a"],
        .append ["c", "u", "1", ".tmpZ9a"] (encode "te")] ∧
      Cut (putSteps made ["c", "u", "1"] ".tmpZ9a" 0 "text") done ∧
      (AnswersAlike "c" (strayTree "4294967295.txt")
          ((strayTree "4294967295.txt").perform done).1 ∨
        AnswersAlike "c" (put "c" ⟨"u"⟩ 1 "text" (strayTree "4294967295.txt")).2
          ((strayTree "4294967295.txt").perform done).1) := by
  have opened := isOpen_strayTree "4294967295.txt"
  have plain : Path.IsName "u" := by constructor <;> decide
  have there : (strayTree "4294967295.txt").node? (["c"] ++ ["u", toString 1]) = some .directory :=
    rfl
  have clear := FileTree.clear_of_there opened.wellFormed there
  obtain ⟨_, -, planned⟩ := plan_of_clear opened plain (by decide) clear "text"
  have highest : attempt? "4294967295.txt" = some (maxUnsigned 32) := by rfl
  have full : maxUnsigned 32 ∈
      attemptsAmong ((strayTree "4294967295.txt").childNames (["c"] ++ ["u", toString 1])) :=
    mem_attemptsAmong_iff.2 ⟨_, List.mem_singleton.2 rfl, highest⟩
  rw [nextOf_of_highest full] at planned
  obtain ⟨made, -, atomic⟩ := (put_atomic opened plain "text").2 _ _ _ planned
  have part : encode "te" <+: encode "text" := ⟨encode "xt", by decide⟩
  have cut : Cut (putSteps made ["c", "u", "1"] ".tmpZ9a" 0 "text")
      (made ++ [.create ["c", "u", "1", ".tmpZ9a"],
        .append ["c", "u", "1", ".tmpZ9a"] (encode "te")]) := by
    rw [putSteps, List.append_assoc]
    exact Cut.prepend made (.step _ (.short part _))
  exact ⟨opened, plain, made, _, rfl, cut, atomic "Z9a" _ _ rfl cut (.inl rfl)⟩

end CandidateFiles

end Graft
