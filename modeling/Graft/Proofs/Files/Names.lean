import Graft.Files.Tree
import Graft.Proofs.Text.Lines
import Graft.Proofs.Text.Numeral

/-!
Paths that are joined from a path and a name. The names on the way along the joined path are those
of the first one and the name behind them (`names_join`); a path that is empty or ends in a slash
has an empty name at its end, which the name then replaces.
-/

namespace Graft

open Text

namespace Path

/-- What names a node in its directory and nothing else. -/
structure IsName (name : String) : Prop where
  nonempty : name ≠ ""
  slash : '/' ∉ name.toList
  zero : '\x00' ∉ name.toList
  dot : name ≠ "."
  dots : name ≠ ".."

theorem isName_of_mem {name : String} (plain : ∀ c ∈ name.toList, c ≠ '/' ∧ c ≠ '\x00') {c : Char}
    (h : c ∈ name.toList) (other : c ≠ '.') : IsName name where
  nonempty := by rintro rfl; cases h
  slash mem := (plain _ mem).1 rfl
  zero mem := (plain _ mem).2 rfl
  dot := by rintro rfl; simp [other] at h
  dots := by rintro rfl; simp [other] at h

theorem isName_repr (n : Nat) : IsName n.repr := by
  obtain ⟨first, rest, same, digit, -⟩ := exists_toList_repr n
  apply isName_of_mem (c := first)
  · intro c mem
    have := isDigit_of_mem_repr mem
    constructor <;> rintro rfl <;> cases this
  · rw [same]
    exact List.mem_cons_self
  · rintro rfl
    cases digit

theorem isAbsolute_iff (path : String) :
    isAbsolute path = true ↔ ∃ rest, path.toList = '/' :: rest := by
  rw [isAbsolute, startsWith]
  constructor
  · intro found
    obtain ⟨rest, same⟩ := Option.isSome_iff_exists.1 found
    exact ⟨rest, eq_append_of_dropHead? same⟩
  · rintro ⟨rest, same⟩
    rw [same]
    rfl

theorem isAbsolute_of_slash {name : String} (h : '/' ∉ name.toList) : isAbsolute name = false := by
  rw [Bool.eq_false_iff]
  intro absolute
  obtain ⟨rest, same⟩ := (isAbsolute_iff name).1 absolute
  rw [same] at h
  exact h List.mem_cons_self

/-- What a path and a name are joined to: nothing, or a slash, stands between them. -/
theorem join_cases (path : String) {name : String} (h : '/' ∉ name.toList) :
    path = "" ∧ join path name = name ∨
      (∃ above, path = above ++ "/" ∧ join path name = above ++ "/" ++ name) ∨
      path ≠ "" ∧ join path name = path ++ "/" ++ name := by
  have relative := isAbsolute_of_slash h
  by_cases empty : path = ""
  · left
    exact ⟨empty, by simp [join, empty]⟩
  · right
    have filled : path.isEmpty = false := by simpa [String.isEmpty_iff] using empty
    cases ends : endsWith "/" path with
    | true =>
        left
        obtain ⟨above, same⟩ := List.isSuffixOf_iff_suffix.1 ends
        have whole : path = String.ofList above ++ "/" := by
          apply String.toList_inj.1
          simpa using same.symm
        refine ⟨String.ofList above, whole, ?_⟩
        simp [join, relative, filled, ends, ← whole]
    | false =>
        right
        exact ⟨empty, by simp [join, relative, filled, ends]⟩

theorem isAbsolute_append {path : String} (h : path ≠ "") (rest : String) :
    isAbsolute (path ++ rest) = isAbsolute path := by
  rw [Bool.eq_iff_iff, isAbsolute_iff, isAbsolute_iff, String.toList_append]
  cases chars : path.toList with
  | nil => exact absurd (String.toList_eq_nil_iff.1 chars) h
  | cons c others => simp

theorem isAbsolute_join (path : String) {name : String} (h : '/' ∉ name.toList) :
    isAbsolute (join path name) = isAbsolute path := by
  obtain ⟨rfl, same⟩ | ⟨above, rfl, same⟩ | ⟨filled, same⟩ := join_cases path h
  · rw [same, isAbsolute_of_slash h]
    rfl
  · rw [same, isAbsolute_append (by simp)]
  · rw [same, String.append_assoc, isAbsolute_append filled]

theorem mem_toList_join {path name : String} {c : Char} (h : '/' ∉ name.toList) (other : c ≠ '/') :
    c ∈ (join path name).toList ↔ c ∈ path.toList ∨ c ∈ name.toList := by
  obtain ⟨rfl, same⟩ | ⟨above, rfl, same⟩ | ⟨-, same⟩ := join_cases path h <;> simp [same, other]

theorem join_ne_empty (path : String) {name : String} (h : IsName name) : join path name ≠ "" := by
  obtain ⟨-, same⟩ | ⟨above, -, same⟩ | ⟨-, same⟩ := join_cases path h.slash
  · rw [same]
    exact h.nonempty
  · simp [same]
  · simp [same]

/-! The parts that lead somewhere -/

theorem filter_leads_of_blank {name : String} (h : name = "" ∨ name = ".") (rest : List String) :
    (name :: rest).filter leads = rest.filter leads := by
  obtain rfl | rfl := h <;> rfl

theorem filter_leads_cons {name : String} (h : ¬(name = "" ∨ name = ".")) (rest : List String) :
    (name :: rest).filter leads = name :: rest.filter leads := by
  apply List.filter_cons_of_pos
  simpa [leads] using h

end Path

namespace FileTree

theorem names_append (before after : String) :
    names (before ++ "/" ++ after) = names before ++ names after := by
  simp [names, splitAtChar_append]

theorem names_of_slash {name : String} (h : '/' ∉ name.toList) : names name = [name] := by
  simp [names, splitAtChar_of_not_mem h]

theorem names_join (path : String) {name : String} (h : '/' ∉ name.toList) :
    names (Path.join path name) = names path ++ [name] ∨
      ∃ above, names path = above ++ [""] ∧ names (Path.join path name) = above ++ [name] := by
  have single := names_of_slash h
  obtain ⟨rfl, same⟩ | ⟨above, rfl, same⟩ | ⟨-, same⟩ := Path.join_cases path h
  · right
    exact ⟨[], rfl, by rw [same, single]; rfl⟩
  · right
    refine ⟨names above, ?_, by rw [same, names_append, single]⟩
    have ended := names_append above ""
    rwa [String.append_empty] at ended
  · left
    rw [same, names_append, single]

/-- The parts of a joined path are those of the path and the name behind them. -/
theorem parts_join (path : String) {name : String} (h : Path.IsName name) :
    Path.parts (Path.join path name) = Path.parts path ++ [name] := by
  have leads := Path.filter_leads_cons (not_or.2 ⟨h.nonempty, h.dot⟩) []
  change (names (Path.join path name)).filter Path.leads = (names path).filter Path.leads ++ [name]
  obtain same | ⟨above, ended, same⟩ := names_join path h.slash
  · rw [same, List.filter_append, leads, List.filter_nil]
  · rw [same, ended, List.filter_append, List.filter_append, leads,
      Path.filter_leads_of_blank (.inl rfl), List.filter_nil, List.append_nil]

theorem start_join (tree : FileTree) (path : String) {name : String} (h : '/' ∉ name.toList) :
    tree.start (Path.join path name) = tree.start path := by
  rw [start, start, Path.isAbsolute_join path h]

theorem checkPath_join {path name : String} (zero : '\x00' ∉ path.toList) (h : Path.IsName name) :
    checkPath (Path.join path name) = .ok () := by
  have none : '\x00' ∉ (Path.join path name).toList := by
    rw [Path.mem_toList_join h.slash (by decide)]
    exact not_or.2 ⟨zero, h.zero⟩
  simp [checkPath, Path.join_ne_empty path h, none]

end FileTree

end Graft
