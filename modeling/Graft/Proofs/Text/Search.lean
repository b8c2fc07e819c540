import Graft.Text.Search
import Mathlib.Data.List.Infix

/-!
What a search finds. A text is found exactly where it occurs (`find?_eq_none_iff`), and the first occurrence
is the one in front of whose end there is no other (`find?_append`). An occurrence does not reach across a
character that does not stand in what is looked for (`infix_of_infix_append_cons`).
-/

namespace Graft.Text

variable {needle text before front rest : List Char} {c : Char}

theorem dropHead?_eq_some_iff : dropHead? needle text = some rest ↔ text = needle ++ rest := by
  constructor
  · exact eq_append_of_dropHead?
  · rintro rfl
    exact dropHead?_append needle rest

theorem dropHead?_eq_none_iff : dropHead? needle text = none ↔ ¬needle <+: text := by
  rw [← Option.not_isSome_iff_eq_none, Option.isSome_iff_exists, not_iff_not]
  constructor
  · rintro ⟨rest, found⟩
    exact ⟨rest, (dropHead?_eq_some_iff.1 found).symm⟩
  · rintro ⟨rest, same⟩
    exact ⟨rest, dropHead?_eq_some_iff.2 same.symm⟩

theorem find?_cons (absent : ¬needle <+: c :: rest) :
    find? needle (c :: rest) = (find? needle rest).map fun (before, after) => (c :: before, after) := by
  rw [find?, dropHead?_eq_none_iff.2 absent]

theorem find?_eq_none_iff : find? needle text = none ↔ ¬needle <:+: text := by
  induction text with
  | nil => simp [find?, List.infix_nil]
  | cons c rest ih =>
      rw [List.infix_cons_iff, not_or, ← ih]
      by_cases starts : needle <+: c :: rest
      · obtain ⟨after, same⟩ := starts
        simp [find?, ← same, dropHead?_append]
      · rw [find?_cons starts, Option.map_eq_none_iff]
        exact ⟨fun absent => ⟨starts, absent⟩, And.right⟩

/-- What is looked for is found where it stands, if it does not occur before. -/
theorem find?_append (first : ¬needle <:+: before ++ needle.dropLast) (after : List Char) :
    find? needle (before ++ needle ++ after) = some (before, after) := by
  have filled : needle ≠ [] := by
    rintro rfl
    exact first List.nil_infix
  induction before with
  | nil =>
      obtain ⟨n, ns, rfl⟩ := List.exists_cons_of_ne_nil filled
      rw [List.nil_append, List.cons_append, find?, ← List.cons_append, dropHead?_append]
  | cons c before ih =>
      have later : ¬needle <:+: before ++ needle.dropLast := fun inside =>
        first (inside.trans (List.suffix_cons c _).isInfix)
      have absent : ¬needle <+: c :: (before ++ needle ++ after) := by
        intro starts
        have long : needle.length ≤ (c :: before ++ needle.dropLast).length := by
          simp only [List.length_append, List.length_cons, List.length_dropLast]
          omega
        have front : c :: before ++ needle.dropLast <+: c :: (before ++ needle ++ after) := by
          have shorter : needle.dropLast <+: needle ++ after :=
            (List.dropLast_prefix needle).trans (List.prefix_append needle after)
          rw [List.append_assoc, List.cons_append]
          exact (List.prefix_append_right_inj (c :: before)).2 shorter
        exact first (List.prefix_of_prefix_length_le starts front long).isInfix
      rw [List.cons_append, List.cons_append, find?_cons absent, ih later]
      rfl

theorem cutFirst?_append (absent : c ∉ before) (after : List Char) :
    cutFirst? c (before ++ c :: after) = some (before, after) := by
  have first : ¬[c] <:+: before ++ [c].dropLast := by
    rw [List.dropLast_singleton, List.append_nil, List.singleton_infix_iff]
    exact absent
  have found := find?_append first after
  rwa [List.append_assoc] at found

/-! What stands between two occurrences of another character -/

theorem prefix_of_prefix_append_cons (other : c ∉ needle) (starts : needle <+: front ++ c :: rest) :
    needle <+: front := by
  rcases List.prefix_or_prefix_of_prefix starts (List.prefix_append front (c :: rest)) with
    shorter | ⟨more, rfl⟩
  · exact shorter
  · rw [List.prefix_append_right_inj] at starts
    cases more with
    | nil => rw [List.append_nil]
    | cons d more =>
        obtain rfl := (List.cons_prefix_cons.1 starts).1
        exact absurd (List.mem_append_right front List.mem_cons_self) other

/-- An occurrence does not reach across a character that it does not hold. -/
theorem infix_of_infix_append_cons (other : c ∉ needle) (inside : needle <:+: front ++ c :: rest) :
    needle <:+: front ∨ needle <:+: rest := by
  induction front with
  | nil =>
      rw [List.nil_append, List.infix_cons_iff] at inside
      rcases inside with starts | later
      · exact .inl (prefix_of_prefix_append_cons other starts).isInfix
      · exact .inr later
  | cons first front ih =>
      rw [List.cons_append, List.infix_cons_iff] at inside
      rcases inside with starts | later
      · exact .inl (prefix_of_prefix_append_cons other starts).isInfix
      · rcases ih later with early | late
        · exact .inl (early.trans (List.suffix_cons first front).isInfix)
        · exact .inr late

end Graft.Text
