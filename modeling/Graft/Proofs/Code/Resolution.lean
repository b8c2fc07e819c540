import Graft.Code.Location

/-!
What one identifier comes to among the definitions of a text. `Identifier.Writes` says how identifiers
are written and `ResolvesTo` what they stand for; `resolve` answers exactly that (`resolvesTo_resolve`,
`ResolvesTo.resolve_eq`).
-/

namespace Graft.Code

open Graft.Text

/-! Reading an identifier -/

/-- How an identifier is written, without the white space around it. -/
inductive Identifier.Writes : Identifier → List Char → Prop
  | bare {name : List Char} (some : name ≠ []) (solid : ∀ c ∈ name, isBlank c = false)
      (plain : '@' ∉ name) : Writes ⟨String.ofList name, none⟩ name
  | numbered {name digits : List Char} {number : Nat} (some : name ≠ [])
      (solid : ∀ c ∈ name, isBlank c = false) (plain : '@' ∉ digits)
      (value : readU64? (String.ofList digits) = Option.some number) (positive : 0 < number) :
      Writes ⟨String.ofList name, Option.some number⟩ (name ++ '@' :: digits)

/-- An identifier is read exactly where it is written. -/
theorem Identifier.read?_eq_some_iff {text : String} {identifier : Identifier} :
    Identifier.read? text = some identifier ↔ identifier.Writes (trim text.toList) := by
  unfold Identifier.read?
  generalize trim text.toList = body
  have named {name : List Char} (h : (name.isEmpty || name.any isBlank) = false) :
      name ≠ [] ∧ ∀ c ∈ name, isBlank c = false := by
    simpa using h
  constructor
  · intro h
    cases hcut : cutLast? '@' body with
    | none =>
        simp only [hcut, Option.bind_eq_bind, Option.bind_some, Option.ite_none_left_eq_some,
          Bool.not_eq_true, Option.some.injEq] at h
        obtain ⟨name, rfl⟩ := h
        obtain ⟨some, solid⟩ := named name
        exact .bare some solid (not_mem_of_cutLast? hcut)
    | some cut =>
        obtain ⟨name, digits⟩ := cut
        obtain ⟨rfl, plain⟩ := eq_append_of_cutLast? hcut
        simp only [hcut, Option.bind_eq_bind] at h
        cases hvalue : readU64? (String.ofList digits) with
        | none => simp [hvalue] at h
        | some number =>
            simp only [hvalue, Option.bind_some, Option.bind_none, Option.ite_none_left_eq_some,
              Bool.not_eq_true, Option.some.injEq] at h
            obtain ⟨positive, name, rfl⟩ := h
            obtain ⟨some, solid⟩ := named name
            exact .numbered some solid plain hvalue (Nat.pos_of_ne_zero positive)
  · rintro (⟨some, solid, plain⟩ | ⟨some, solid, plain, value, positive⟩)
    · simpa [cutLast?_of_not_mem plain] using ⟨some, solid⟩
    · simpa [cutLast?_append _ plain, value, Nat.ne_of_gt positive] using ⟨some, solid⟩

theorem Identifier.Writes.read? {text : String} {identifier : Identifier}
    (written : identifier.Writes (trim text.toList)) : Identifier.read? text = some identifier :=
  Identifier.read?_eq_some_iff.2 written

theorem Identifier.Writes.positive {name : String} {number : Nat} {body : List Char}
    (written : Identifier.Writes ⟨name, some number⟩ body) : 0 < number := by
  cases written with
  | numbered _ _ _ _ positive => exact positive

/-! One identifier -/

def occurrences (definitions : List Definition) (name : String) : Nat :=
  definitions.countP (·.answersTo name)

theorem occurrences_eq_length (definitions : List Definition) (name : String) :
    occurrences definitions name = (definitions.filter (·.answersTo name)).length :=
  List.countP_eq_length_filter

inductive ResolvesTo (definitions : List Definition) (identifier : String) :
    Except LocateError Definition → Prop
  | unreadable (unwritten : ∀ read : Identifier, ¬ read.Writes (trim identifier.toList)) :
      ResolvesTo definitions identifier (.error (.invalidIdentifier identifier))
  | absent {name : String} {occurrence : Option Nat}
      (written : Identifier.Writes ⟨name, occurrence⟩ (trim identifier.toList))
      (absent : occurrences definitions name = 0) :
      ResolvesTo definitions identifier (.error (.notFound identifier))
  | few {name : String} {number : Nat}
      (written : Identifier.Writes ⟨name, some number⟩ (trim identifier.toList))
      (few : occurrences definitions name < number) :
      ResolvesTo definitions identifier (.error (.notFound identifier))
  | several {name : String} (written : Identifier.Writes ⟨name, none⟩ (trim identifier.toList))
      (several : 1 < occurrences definitions name) :
      ResolvesTo definitions identifier (.error (.ambiguous identifier (occurrences definitions name)))
  | only {name : String} {definition : Definition}
      (written : Identifier.Writes ⟨name, none⟩ (trim identifier.toList))
      (member : definition ∈ definitions) (matched : definition.answersTo name = true)
      (alone : occurrences definitions name = 1) :
      ResolvesTo definitions identifier (.ok definition)
  | numbered {name : String} {number : Nat} {before behind : List Definition} {definition : Definition}
      (written : Identifier.Writes ⟨name, some number⟩ (trim identifier.toList))
      (whole : definitions = before ++ definition :: behind)
      (matched : definition.answersTo name = true) (nth : number = occurrences before name + 1) :
      ResolvesTo definitions identifier (.ok definition)

/-- An element of what is left of a list has its place there by how many are left in front of it. -/
theorem getElem?_filter_eq_some_iff {α : Type} {kept : α → Bool} {list : List α} {index : Nat}
    {element : α} :
    (list.filter kept)[index]? = some element ↔
      ∃ before behind, list = before ++ element :: behind ∧ kept element = true ∧
        before.countP kept = index := by
  constructor
  · intro h
    induction list generalizing index with
    | nil => simp at h
    | cons first rest ih =>
        by_cases left : kept first = true
        · cases index with
          | zero =>
              obtain rfl : first = element := by simpa [left] using h
              exact ⟨[], rest, rfl, left, rfl⟩
          | succ index =>
              obtain ⟨before, behind, rfl, matched, count⟩ := ih (by simpa [left] using h)
              exact ⟨first :: before, behind, rfl, matched, by simp [left, count]⟩
        · obtain ⟨before, behind, rfl, matched, count⟩ := ih (by simpa [left] using h)
          exact ⟨first :: before, behind, rfl, matched, by simp [left, count]⟩
  · rintro ⟨before, behind, rfl, matched, rfl⟩
    simp [List.countP_eq_length_filter, matched]

section
variable {definitions : List Definition} {identifier name : String}

/-- A name alone stands for the only definition that answers to it. -/
theorem resolve_of_bare (written : Identifier.Writes ⟨name, none⟩ (trim identifier.toList)) :
    resolve definitions identifier =
      match definitions.filter (·.answersTo name) with
      | [] => .error (.notFound identifier)
      | [definition] => .ok definition
      | _ :: _ :: _ => .error (.ambiguous identifier (occurrences definitions name)) := by
  simp only [resolve, written.read?, occurrences_eq_length]
  cases definitions.filter (·.answersTo name) with
  | nil => rfl
  | cons first rest => cases rest <;> rfl

/-- A numbered name is looked up among the definitions that answer to it. -/
theorem resolve_of_numbered {number : Nat}
    (written : Identifier.Writes ⟨name, some number⟩ (trim identifier.toList)) :
    resolve definitions identifier =
      match (definitions.filter (·.answersTo name))[number - 1]? with
      | some definition => .ok definition
      | none => .error (.notFound identifier) := by
  simp only [resolve, written.read?]
  cases definitions.filter (·.answersTo name) <;> rfl

/-- What resolving answers is what the identifier comes to. -/
theorem resolvesTo_resolve (definitions : List Definition) (identifier : String) :
    ResolvesTo definitions identifier (resolve definitions identifier) := by
  cases read : Identifier.read? identifier with
  | none =>
      have unread : resolve definitions identifier = .error (.invalidIdentifier identifier) := by
        simp [resolve, read]
      rw [unread]
      exact .unreadable fun other written => by simp [written.read?] at read
  | some found =>
      obtain ⟨name, occurrence⟩ := found
      have written := Identifier.read?_eq_some_iff.1 read
      have counted := occurrences_eq_length definitions name
      cases occurrence with
      | none =>
          rw [resolve_of_bare written]
          split
          · next nothing => exact .absent written (by simp [counted, nothing])
          · next definition single =>
              have left : definition ∈ definitions.filter (·.answersTo name) := by simp [single]
              obtain ⟨member, matched⟩ := List.mem_filter.1 left
              exact .only written member matched (by simp [counted, single])
          · next several => exact .several written (by simp [counted, several])
      | some number =>
          have positive := written.positive
          rw [resolve_of_numbered written]
          split
          · next definition found =>
              obtain ⟨before, behind, whole, matched, count⟩ := getElem?_filter_eq_some_iff.1 found
              exact .numbered written whole matched (by rw [occurrences]; omega)
          · next missing =>
              have short := List.getElem?_eq_none_iff.1 missing
              exact .few written (by omega)

/-- An identifier comes to one thing only. -/
theorem ResolvesTo.resolve_eq {result : Except LocateError Definition}
    (resolves : ResolvesTo definitions identifier result) :
    resolve definitions identifier = result := by
  cases resolves with
  | unreadable unwritten =>
      have unread : Identifier.read? identifier = none :=
        Option.eq_none_iff_forall_ne_some.2 fun read found =>
          unwritten read (Identifier.read?_eq_some_iff.1 found)
      simp [resolve, unread]
  | @absent name occurrence written absent =>
      have nothing : definitions.filter (·.answersTo name) = [] :=
        List.length_eq_zero_iff.1 (occurrences_eq_length definitions name ▸ absent)
      simp [resolve, written.read?, nothing]
  | @few name number written few =>
      have missing : (definitions.filter (·.answersTo name))[number - 1]? = none := by
        rw [List.getElem?_eq_none_iff, ← occurrences_eq_length]
        exact Nat.le_sub_one_of_lt few
      rw [resolve_of_numbered written, missing]
  | @several name written several =>
      rw [resolve_of_bare written]
      rw [occurrences_eq_length] at several
      split
      · next nothing => simp [nothing] at several
      · next single => simp [single] at several
      · rfl
  | @only name definition written member matched alone =>
      have single : definitions.filter (·.answersTo name) = [definition] := by
        rw [occurrences_eq_length] at alone
        obtain ⟨other, hother⟩ := List.length_eq_one_iff.1 alone
        have left : definition ∈ definitions.filter (·.answersTo name) :=
          List.mem_filter.2 ⟨member, matched⟩
        rw [hother] at left
        rw [hother, List.mem_singleton.1 left]
      rw [resolve_of_bare written, single]
  | @numbered name number before behind definition written whole matched nth =>
      have found : (definitions.filter (·.answersTo name))[number - 1]? = some definition :=
        getElem?_filter_eq_some_iff.2 ⟨before, behind, whole, matched, by rw [nth]; rfl⟩
      rw [resolve_of_numbered written, found]

theorem ResolvesTo.mem {definition : Definition}
    (resolves : ResolvesTo definitions identifier (.ok definition)) : definition ∈ definitions := by
  cases resolves with
  | only _ member => exact member
  | numbered _ whole => simp [whole]

theorem mem_of_resolve {definition : Definition}
    (resolved : resolve definitions identifier = .ok definition) : definition ∈ definitions :=
  (resolved ▸ resolvesTo_resolve definitions identifier).mem

end

end Graft.Code
