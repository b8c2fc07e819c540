/-!
Finding one text in another. `find?` answers what stands before and after the first occurrence;
`replaceAll` replaces the occurrences from left to right without looking at what it has written.
-/

namespace Graft.Text

def dropHead? : List Char → List Char → Option (List Char)
  | [], text => some text
  | _ :: _, [] => none
  | n :: needle, c :: text => if n = c then dropHead? needle text else none

theorem eq_append_of_dropHead? {needle text rest : List Char}
    (h : dropHead? needle text = some rest) : text = needle ++ rest := by
  fun_induction dropHead? needle text with
  | case1 => simp_all
  | case2 => simp at h
  | case3 n needle text ih => simp [ih h]
  | case4 => simp at h

theorem dropHead?_append (needle rest : List Char) :
    dropHead? needle (needle ++ rest) = some rest := by
  induction needle with
  | nil => rfl
  | cons n needle ih => simp [dropHead?, ih]

/-- What stands before and after the first occurrence of `needle`. -/
def find? (needle : List Char) : List Char → Option (List Char × List Char)
  | [] => if needle.isEmpty then some ([], []) else none
  | c :: rest =>
      match dropHead? needle (c :: rest) with
      | some after => some ([], after)
      | none => (find? needle rest).map fun (before, after) => (c :: before, after)

/-- What `find?` finds, it finds without loss. -/
theorem eq_append_of_find? {needle text before after : List Char}
    (h : find? needle text = some (before, after)) : text = before ++ needle ++ after := by
  induction text generalizing before after with
  | nil =>
      unfold find? at h
      split at h <;> simp_all
  | cons c rest ih =>
      unfold find? at h
      split at h
      · next hdrop =>
          simp only [Option.some.injEq, Prod.mk.injEq] at h
          obtain ⟨rfl, rfl⟩ := h
          simpa using eq_append_of_dropHead? hdrop
      · obtain ⟨⟨first, second⟩, hfind, heq⟩ := Option.map_eq_some_iff.1 h
        simp only [Prod.mk.injEq] at heq
        obtain ⟨rfl, rfl⟩ := heq
        simp [ih hfind]

def contains (needle text : String) : Bool :=
  (find? needle.toList text.toList).isSome

def startsWith (needle text : String) : Bool :=
  (dropHead? needle.toList text.toList).isSome

def endsWith (needle text : String) : Bool :=
  needle.toList.isSuffixOf text.toList

def cutLast? (separator : Char) (text : List Char) : Option (List Char × List Char) :=
  match text with
  | [] => none
  | c :: rest =>
      match cutLast? separator rest with
      | some (before, after) => some (c :: before, after)
      | none => if c = separator then some ([], rest) else none

theorem cutLast?_of_not_mem {separator : Char} {text : List Char} (h : separator ∉ text) :
    cutLast? separator text = none := by
  induction text with
  | nil => rfl
  | cons c rest ih =>
      have other : c ≠ separator := (List.ne_of_not_mem_cons h).symm
      simp [cutLast?, ih (List.not_mem_of_not_mem_cons h), other]

theorem cutLast?_append {separator : Char} (before : List Char) {after : List Char}
    (h : separator ∉ after) :
    cutLast? separator (before ++ separator :: after) = some (before, after) := by
  induction before with
  | nil => simp [cutLast?, cutLast?_of_not_mem h]
  | cons c rest ih => simp [cutLast?, ih]

theorem not_mem_of_cutLast? {separator : Char} {text : List Char}
    (h : cutLast? separator text = none) : separator ∉ text := by
  induction text with
  | nil => exact List.not_mem_nil
  | cons c rest ih =>
      cases hcut : cutLast? separator rest with
      | some cut => simp [cutLast?, hcut] at h
      | none =>
          have other : c ≠ separator := by simpa [cutLast?, hcut] using h
          exact List.not_mem_cons_of_ne_of_not_mem other.symm (ih hcut)

/-- What `cutLast?` cuts, it cuts at the last occurrence. -/
theorem eq_append_of_cutLast? {separator : Char} {text before after : List Char}
    (h : cutLast? separator text = some (before, after)) :
    text = before ++ separator :: after ∧ separator ∉ after := by
  induction text generalizing before with
  | nil => simp [cutLast?] at h
  | cons c rest ih =>
      cases hcut : cutLast? separator rest with
      | some cut =>
          obtain ⟨front, last⟩ := cut
          simp only [cutLast?, hcut, Option.some.injEq, Prod.mk.injEq] at h
          obtain ⟨rfl, rfl⟩ := h
          obtain ⟨rfl, later⟩ := ih hcut
          exact ⟨rfl, later⟩
      | none =>
          simp only [cutLast?, hcut] at h
          obtain ⟨rfl, same⟩ := Option.ite_none_right_eq_some.1 h
          obtain ⟨rfl, rfl⟩ := Prod.mk.inj (Option.some.inj same)
          exact ⟨rfl, not_mem_of_cutLast? hcut⟩

def cutFirst? (separator : Char) (text : List Char) : Option (List Char × List Char) :=
  find? [separator] text

/-- Writes `replacement` for each occurrence of `needle`, from left to right. -/
def replaceAll (needle replacement : String) (text : String) : String :=
  if needle.isEmpty then text
  else String.ofList (go text.toList.length text.toList)
where
  go : Nat → List Char → List Char
    | 0, text => text
    | fuel + 1, text =>
        match find? needle.toList text with
        | some (before, after) => before ++ replacement.toList ++ go fuel after
        | none => text

end Graft.Text
