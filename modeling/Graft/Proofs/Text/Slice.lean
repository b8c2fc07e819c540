import Graft.Text.Place

/-!
Cutting a text at byte offsets. An offset is a boundary exactly when some prefix of the text has
that many bytes, and a slice is what stands between two such prefixes. Two boundaries in the right
order always have a slice between them.
-/

namespace Graft.Text

/-- Every character takes at least one byte, so a stretch without bytes is empty. -/
theorem byteLength_eq_zero_iff {text : List Char} : byteLength text = 0 ↔ text = [] := by
  cases text with
  | nil => simp
  | cons c rest =>
      have := Char.utf8Size_pos c
      simp only [byteLength_cons, reduceCtorEq, iff_false]
      omega

/-- Cutting behind a prefix gives back the prefix and what follows it. -/
@[simp] theorem cut?_append (before after : List Char) :
    cut? (before ++ after) (byteLength before) = some (before, after) := by
  induction before with
  | nil => simp [cut?]
  | cons c rest ih =>
      have positive := Char.utf8Size_pos c
      obtain ⟨offset, hoffset⟩ : ∃ offset, c.utf8Size + byteLength rest = offset + 1 :=
        ⟨c.utf8Size + byteLength rest - 1, by omega⟩
      have remaining : offset + 1 - c.utf8Size = byteLength rest := by omega
      have large : ¬ offset + 1 < c.utf8Size := by omega
      rw [List.cons_append, byteLength_cons, hoffset, cut?, if_neg large, remaining, ih]
      rfl

theorem cut?_eq_some_iff {text before after : List Char} {offset : Nat} :
    cut? text offset = some (before, after) ↔
      text = before ++ after ∧ byteLength before = offset := by
  constructor
  · exact eq_append_of_cut?
  · rintro ⟨rfl, rfl⟩
    exact cut?_append before after

theorem isBoundary_iff {text : List Char} {offset : Nat} :
    isBoundary text offset ↔ ∃ before after, text = before ++ after ∧ byteLength before = offset := by
  simp only [isBoundary, Option.isSome_iff_exists, Prod.exists, cut?_eq_some_iff]

theorem isBoundary_zero (text : List Char) : isBoundary text 0 :=
  isBoundary_iff.2 ⟨[], text, rfl, rfl⟩

/-- Of two prefixes of a text the one with fewer bytes is a prefix of the other. -/
theorem eq_append_of_byteLength_le {first second firstRest secondRest : List Char}
    (same : first ++ firstRest = second ++ secondRest)
    (shorter : byteLength first ≤ byteLength second) :
    ∃ between, second = first ++ between ∧ firstRest = between ++ secondRest := by
  rcases List.append_eq_append_iff.1 same with ⟨between, hsecond, hrest⟩ | ⟨between, hfirst, hrest⟩
  · exact ⟨between, hsecond, hrest⟩
  · have empty : between = [] := by
      rw [hfirst, byteLength_append] at shorter
      exact byteLength_eq_zero_iff.1 (by omega)
    subst empty
    exact ⟨[], by simpa using hfirst.symm, by simpa using hrest.symm⟩

/-- A text has only one prefix of each number of bytes. -/
theorem eq_of_byteLength_eq {first second firstRest secondRest : List Char}
    (same : first ++ firstRest = second ++ secondRest)
    (equal : byteLength first = byteLength second) : first = second ∧ firstRest = secondRest := by
  obtain ⟨between, rfl, rfl⟩ := eq_append_of_byteLength_le same (by omega)
  rw [byteLength_append] at equal
  have empty : between = [] := byteLength_eq_zero_iff.1 (by omega)
  simp [empty]

/-- A slice is the stretch of the text between a prefix of `start` bytes and one of `stop` bytes. -/
theorem slice?_eq_some_iff {text found : List Char} {start stop : Nat} :
    slice? text start stop = some found ↔
      ∃ before after, text = before ++ found ++ after ∧ byteLength before = start ∧
        start + byteLength found = stop := by
  unfold slice?
  split
  · next backwards =>
      simp only [Option.bind_eq_bind, Option.bind_none, reduceCtorEq, false_iff]
      rintro ⟨before, after, -, -, hstop⟩
      omega
  · next forwards =>
      simp only [Option.bind_eq_bind, Option.pure_def, Option.bind_eq_some_iff, Option.some.injEq,
        Prod.exists, cut?_eq_some_iff]
      constructor
      · rintro ⟨before, rest, ⟨rfl, hbefore⟩, middle, after, ⟨rfl, hmiddle⟩, rfl⟩
        exact ⟨before, after, by simp, hbefore, by omega⟩
      · rintro ⟨before, after, rfl, hbefore, hstop⟩
        exact ⟨before, found ++ after, ⟨by simp, hbefore⟩, found, after, ⟨rfl, by omega⟩, rfl⟩

/-- Between two boundaries in the right order there is always a slice. -/
theorem exists_slice?_of_isBoundary {text : List Char} {start stop : Nat} (ordered : start ≤ stop)
    (first : isBoundary text start) (last : isBoundary text stop) :
    ∃ found, slice? text start stop = some found := by
  obtain ⟨before, rest, hbefore, hstart⟩ := isBoundary_iff.1 first
  obtain ⟨whole, after, hwhole, hstop⟩ := isBoundary_iff.1 last
  obtain ⟨found, rfl, -⟩ := eq_append_of_byteLength_le (hbefore.symm.trans hwhole) (by omega)
  rw [byteLength_append] at hstop
  exact ⟨found, slice?_eq_some_iff.2 ⟨before, after, hwhole, hstart, by omega⟩⟩

theorem isBoundary_of_slice? {text found : List Char} {start stop : Nat}
    (h : slice? text start stop = some found) : isBoundary text start ∧ isBoundary text stop := by
  obtain ⟨before, after, rfl, rfl, rfl⟩ := slice?_eq_some_iff.1 h
  refine ⟨isBoundary_iff.2 ⟨before, found ++ after, by simp, rfl⟩, ?_⟩
  exact isBoundary_iff.2 ⟨before ++ found, after, rfl, byteLength_append before found⟩

/-- Two slices that meet are one slice. -/
theorem slice?_append {text first second : List Char} {start middle stop : Nat}
    (hfirst : slice? text start middle = some first)
    (hsecond : slice? text middle stop = some second) :
    slice? text start stop = some (first ++ second) := by
  obtain ⟨before, rest, htext, rfl, rfl⟩ := slice?_eq_some_iff.1 hfirst
  obtain ⟨passed, after, htext', hpassed, rfl⟩ := slice?_eq_some_iff.1 hsecond
  rw [htext, List.append_assoc passed] at htext'
  obtain ⟨rfl, rfl⟩ := eq_of_byteLength_eq htext' (by rw [hpassed, byteLength_append])
  refine slice?_eq_some_iff.2 ⟨before, after, by simp [htext], rfl, ?_⟩
  rw [byteLength_append]
  omega

/-- What is cut off at the start of a slice begins with the slice. -/
theorem cut?_of_slice? {text found before after : List Char} {start stop : Nat}
    (hslice : slice? text start stop = some found) (hcut : cut? text stop = some (before, after)) :
    ∃ first, cut? text start = some (first, found ++ after) := by
  obtain ⟨first, rest, htext, rfl, rfl⟩ := slice?_eq_some_iff.1 hslice
  obtain ⟨htext', hbefore⟩ := cut?_eq_some_iff.1 hcut
  rw [htext] at htext'
  obtain ⟨-, rfl⟩ := eq_of_byteLength_eq htext' (by rw [hbefore, byteLength_append])
  exact ⟨first, cut?_eq_some_iff.2 ⟨by simp [htext], rfl⟩⟩

theorem slice?_self {text : List Char} {offset : Nat} (h : isBoundary text offset) :
    slice? text offset offset = some [] := by
  obtain ⟨before, after, rfl, rfl⟩ := isBoundary_iff.1 h
  exact slice?_eq_some_iff.2 ⟨before, after, by simp, rfl, rfl⟩

theorem le_of_isBoundary {text : List Char} {offset : Nat} (h : isBoundary text offset) :
    offset ≤ byteLength text := by
  obtain ⟨before, after, rfl, rfl⟩ := isBoundary_iff.1 h
  simp

end Graft.Text
