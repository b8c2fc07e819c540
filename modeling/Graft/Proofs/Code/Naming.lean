import Graft.Proofs.Code.Selection
import Graft.Proofs.Text.Numeral
import Graft.Proofs.Text.Slice

/-!
Identifiers that are made for the definitions of a text. Each of them resolves to the definition that it
is made for, since a definition answers to its own name and the number of an occurrence counts the
definitions up to it that answer to the same name. So the identifiers of the first definitions are
located at these definitions (`locate_discoverIdentifiers`).
-/

namespace Graft.Code

open Graft.Text

/-! Names -/

structure IsIdentifier (name : String) : Prop where
  nonempty : name.toList ≠ []
  solid : ∀ c ∈ name.toList, isBlank c = false
  plain : '@' ∉ name.toList

theorem IsIdentifier.writes_bare {name : String} (isIdentifier : IsIdentifier name) :
    Identifier.Writes ⟨name, none⟩ (trim name.toList) := by
  rw [trim_of_solid isIdentifier.solid]
  have written := Identifier.Writes.bare isIdentifier.nonempty isIdentifier.solid isIdentifier.plain
  rwa [String.ofList_toList] at written

theorem IsIdentifier.writes_numbered {name : String} (isIdentifier : IsIdentifier name) {number : Nat}
    (positive : 0 < number) (small : number ≤ maxUnsigned 64) :
    Identifier.Writes ⟨name, some number⟩ (trim s!"{name}@{number}".toList) := by
  have spelled : s!"{name}@{number}".toList = name.toList ++ '@' :: number.repr.toList := by
    change (name ++ "@" ++ number.repr).toList = _
    simp
  have digits : ∀ c ∈ number.repr.toList, c.isDigit = true := fun c => isDigit_of_mem_repr
  have solid : ∀ c ∈ name.toList ++ '@' :: number.repr.toList, isBlank c = false := by
    intro c member
    obtain inName | rfl | inNumber := by simpa using member
    · exact isIdentifier.solid c inName
    · rfl
    · exact isBlank_of_isDigit (digits c (by simpa using inNumber))
  have plain : '@' ∉ number.repr.toList := fun member => absurd (digits '@' member) (by decide)
  rw [spelled, trim_of_solid solid]
  have value : readU64? (String.ofList number.repr.toList) = some number := by
    rw [String.ofList_toList]
    exact readNat?_repr small
  have written := Identifier.Writes.numbered isIdentifier.nonempty isIdentifier.solid plain value
    positive
  rwa [String.ofList_toList] at written

theorem Token.isNamePart.plain {token : Token} (part : token.isNamePart)
    (spells : token.kind.Spells token.text) : '@' ∉ token.text := by
  obtain word | colon | tilde := part
  · rw [word] at spells
    exact fun member => absurd (spells.2 '@' member) (by decide)
  · rw [colon] at spells
    rw [spells]
    decide
  · rw [tilde] at spells
    rw [spells]
    decide

/-- A name without white space can be written as an identifier. -/
theorem Definition.Reads.isIdentifier {definition : Definition} {parts : Parts} {text : List Char}
    (reads : definition.Reads parts) (part : parts.tokens <:+: tokens text)
    (solid : ∀ c ∈ definition.name.toList, isBlank c = false) : IsIdentifier definition.name := by
  have spells : ∀ token ∈ parts.name, token.kind.Spells token.text := fun token member =>
    spells_of_mem_tokens (part.subset (by simp [Parts.tokens, member]))
  refine ⟨?_, solid, ?_⟩
  · have last := (spells parts.last (by simp [Parts.name])).ne_nil
    simp [reads.named, Parts.name, last]
  · rw [reads.named, String.toList_ofList]
    intro member
    obtain ⟨token, inName, inText⟩ := List.mem_flatMap.1 member
    have namePart : token.isNamePart := by
      obtain qualifying | rfl := by simpa [Parts.name] using inName
      · exact reads.qualified token qualifying
      · exact .inl reads.word
    exact namePart.plain (spells token inName) inText

/-! Identifiers -/

theorem Definition.answersTo_name (definition : Definition) :
    definition.answersTo definition.name = true := by
  simp [Definition.answersTo]

/-- The identifiers that are made for definitions resolve to these definitions. -/
theorem allResolveTo_identifiersFrom {all rest behind : List Definition} (before : List Definition)
    (whole : all = before ++ rest ++ behind) (small : all.length ≤ maxUnsigned 64)
    (named : ∀ definition ∈ rest, IsIdentifier definition.name) :
    AllResolveTo all (identifiersFrom all before rest) rest := by
  induction rest generalizing before with
  | nil => exact .nil
  | cons definition rest ih =>
      obtain ⟨isIdentifier, others⟩ := List.forall_mem_cons.1 named
      have here : all = before ++ definition :: (rest ++ behind) := by simp [whole]
      refine .cons ?_ (ih _ (by simp [whole]) others)
      -- Both counts are of the definitions that answer to this name: all of them, and those up to here.
      split
      · next alone =>
          refine .only isIdentifier.writes_bare (by simp [here]) definition.answersTo_name ?_
          rw [occurrences, List.countP_eq_length_filter, alone]
      · have nth : ((before ++ [definition]).filter (·.answersTo definition.name)).length =
            occurrences before definition.name + 1 := by
          simp [occurrences, List.countP_eq_length_filter, definition.answersTo_name]
        rw [nth]
        have few : occurrences before definition.name + 1 ≤ maxUnsigned 64 := by
          have counted : occurrences before definition.name ≤ before.length := List.countP_le_length
          rw [here, List.length_append, List.length_cons] at small
          omega
        exact .numbered (isIdentifier.writes_numbered (Nat.succ_pos _) few) here
          definition.answersTo_name rfl

/-! The number of definitions -/

/-- Definitions that lie between two places are no more than the bytes there. -/
theorem InOrder.length_le {definitions : List Definition} (inOrder : InOrder definitions)
    {low high : Nat} (between : low ≤ high)
    (within : ∀ definition ∈ definitions, low ≤ definition.start ∧ definition.stop ≤ high) :
    low + definitions.length ≤ high := by
  induction definitions generalizing low with
  | nil => exact between
  | cons first rest ih =>
      -- The first definition takes a byte at least, so all others start behind the low place.
      obtain ⟨forwards, ordered⟩ := inOrder
      obtain ⟨firstForwards, restForwards⟩ := List.forall_mem_cons.1 forwards
      obtain ⟨ahead, restOrdered⟩ := List.pairwise_cons.1 ordered
      obtain ⟨⟨firstLow, firstHigh⟩, restWithin⟩ := List.forall_mem_cons.1 within
      have next : low + 1 ≤ high := by omega
      have shorter := ih ⟨restForwards, restOrdered⟩ next fun definition member => by
        have apart := (ahead definition member).starts
        have bounds := restWithin definition member
        omega
      rw [List.length_cons]
      omega

/-- A text has no more definitions than bytes. -/
theorem length_le_byteLength {text : String} {definitions : List Definition}
    (found : discover text = .ok definitions) : definitions.length ≤ byteLength text.toList := by
  have within : ∀ definition ∈ definitions,
      0 ≤ definition.start ∧ definition.stop ≤ byteLength text.toList := fun definition member =>
    ⟨Nat.zero_le _, le_of_isBoundary (fitsIn_of_discover found definition member).stop⟩
  have bounded := (inOrder_of_discover found).length_le (Nat.zero_le _) within
  rwa [Nat.zero_add] at bounded

/-- The identifiers that are made for the first definitions of a text are located at these, whatever
names repeat or stand for one another. The text is one that fits into memory, and the names hold no
white space. -/
theorem locate_discoverIdentifiers {text : String} {definitions : List Definition}
    (found : discover text = .ok definitions) (small : byteLength text.toList ≤ maxUnsigned 64)
    (solid : ∀ definition ∈ definitions, ∀ c ∈ definition.name.toList, isBlank c = false)
    (limit : Nat) :
    ∃ identifiers spans, discoverIdentifiers text limit = .ok identifiers ∧
      locate text identifiers = .ok spans ∧ spans.length = min limit definitions.length ∧
      ∀ index < spans.length, spans[index]? = definitions[index]?.map fun definition =>
        ⟨index + 1, definition.start, definition.stop⟩ := by
  have few := Nat.le_trans (length_le_byteLength found) small
  have named : ∀ definition ∈ definitions.take limit, IsIdentifier definition.name := by
    intro definition member
    have inAll := List.mem_of_mem_take member
    obtain ⟨before, parts, behind, whole, reads⟩ := (definedIn_of_discover found).exists_parts inAll
    exact reads.isIdentifier ⟨before, behind, whole.symm⟩ (solid definition inAll)
  have resolved := allResolveTo_identifiersFrom [] (List.take_append_drop limit _).symm few named
  have located := locate_of_chooses found ⟨resolved, List.take_sublist limit definitions⟩
  refine ⟨_, _, ?_, located, by simp [length_spansOf], fun index inside => ?_⟩
  · rw [discoverIdentifiers, found]
    rfl
  · rw [length_spansOf, List.length_take] at inside
    have below : index < limit := by omega
    simp [spansOf, below]

/-- Functions that share a name, one of them qualified between the others. -/
theorem locate_discoverIdentifiers_overloads :
    let text := "int f(int x) {}\nint C::f() {}\nint f(double x) {}\n"
    ∃ spans, discoverIdentifiers text 8 = .ok ["f@1", "C::f", "f@3"] ∧
      locate text ["f@1", "C::f", "f@3"] = .ok spans ∧ spans.length = 3 := by
  intro text
  have found : discover text = .ok [⟨"f", 0, 15, 1⟩, ⟨"C::f", 16, 29, 2⟩, ⟨"f", 30, 48, 3⟩] := by
    decide +kernel
  have made : discoverIdentifiers text 8 = .ok ["f@1", "C::f", "f@3"] := by decide +kernel
  obtain ⟨identifiers, spans, same, located, length, -⟩ :=
    locate_discoverIdentifiers found (by decide +kernel) (by simp [isBlank]) 8
  obtain rfl := Except.ok.inj (made.symm.trans same)
  exact ⟨spans, made, located, length⟩

end Graft.Code
