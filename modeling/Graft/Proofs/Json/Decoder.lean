import Graft.Proofs.Json.Reading
import Graft.Proofs.OrdinalMap
import Graft.Json.Decoder

/-!
Typed data is read from what it is written as. A field of a record is read by its name, wherever it
stands among the members (`required_bind`, `defaulted_bind`), and lists and maps are read when their
items are (`list_array`, `ordinalMap_ofOrdinalMap`).
-/

namespace Graft.Json

open Graft.Text

variable {α β : Type}

section Fields

variable {members : List (String × Json)} {name key : String} {value : Json} {decode : Decoder α}
  {found default : α}

theorem required_bind (member : members.filter (·.1 == name) = [(key, value)])
    (decoded : decode value = some found) (next : α → FieldReader β) :
    (required name decode >>= next) (.named members) = next found (.named members) := by
  simp [required, nextField, bind, StateT.bind, member, decoded]
  rfl

theorem defaulted_bind (member : members.filter (·.1 == name) = [(key, value)])
    (decoded : decode value = some found) (next : α → FieldReader β) :
    (defaulted name decode default >>= next) (.named members) = next found (.named members) := by
  simp [defaulted, nextField, bind, StateT.bind, member, decoded]
  rfl

theorem defaulted_bind_of_missing (missing : members.filter (·.1 == name) = [])
    (next : α → FieldReader β) :
    (defaulted name decode default >>= next) (.named members) = next default (.named members) := by
  simp [defaulted, nextField, bind, StateT.bind, missing]
  rfl

theorem record_object {fields : FieldReader α} {rest : Fields}
    (read : fields (.named members) = some (found, rest)) :
    record fields (.object members) = some found := by
  simp [record, read]

end Fields

theorem natUpTo_nat {bound n : Nat} (h : n ≤ bound) : Decoder.natUpTo bound (nat n) = some n := by
  simp [Decoder.natUpTo, nat, Numeral.ofNat, h]

theorem u32_nat {n : Nat} (h : n ≤ maxUnsigned 32) : Decoder.u32 (nat n) = some n :=
  natUpTo_nat h

theorem string_string (text : String) : Decoder.string (.string text) = some text := rfl

theorem nullable_string (text : String) :
    Decoder.nullable .string (.string text) = some (some text) := rfl

theorem list_array {item : Decoder α} {encode : α → Json} {values : List α}
    (each : ∀ value ∈ values, item (encode value) = some value) :
    Decoder.list item (.array (values.map encode)) = some values := by
  show (values.map encode).mapM item = some values
  induction values with
  | nil => rfl
  | cons value rest ih =>
      obtain ⟨first, later⟩ := List.forall_mem_cons.1 each
      simp [first, ih later]

/-- Entries that come in ascending order are put behind those that were read before. -/
theorem exists_foldlM_insert {inner : Decoder α} {encode : α → Json} (entries : List (Nat × α))
    (start : OrdinalMap α)
    (ascending : (start.entries ++ entries).Pairwise fun a b => a.1 < b.1)
    (each : ∀ entry ∈ entries, entry.1 ≤ maxUnsigned 32 ∧ inner (encode entry.2) = some entry.2) :
    ∃ whole : OrdinalMap α, whole.entries = start.entries ++ entries ∧
      entries.foldlM (fun map entry => do
        let key ← canonical? (maxUnsigned 32) (toString entry.1)
        return map.insert key (← inner (encode entry.2))) start = some whole := by
  induction entries generalizing start with
  | nil => exact ⟨start, (List.append_nil _).symm, rfl⟩
  | cons entry rest ih =>
      obtain ⟨⟨small, decoded⟩, later⟩ := List.forall_mem_cons.1 each
      have behind : ∀ other ∈ start.entries, other.1 < entry.1 := fun other member =>
        (List.pairwise_append.1 ascending).2.2 other member entry List.mem_cons_self
      have inserted : (start.insert entry.1 entry.2).entries = start.entries ++ [entry] :=
        OrdinalMap.insertEntry_of_lt behind
      obtain ⟨whole, same, folded⟩ := ih (start.insert entry.1 entry.2)
        (by rwa [inserted, List.append_assoc]) later
      refine ⟨whole, by rw [same, inserted, List.append_assoc]; rfl, ?_⟩
      simp only [List.foldlM_cons, Nat.toString_eq_repr, canonical?_repr small, decoded]
      exact folded

/-- A map from numbers of 32 bits is read from its members. -/
theorem ordinalMap_ofOrdinalMap {inner : Decoder α} {encode : α → Json} {map : OrdinalMap α}
    (each : ∀ entry ∈ map.entries, entry.1 ≤ maxUnsigned 32 ∧ inner (encode entry.2) = some entry.2) :
    Decoder.ordinalMap inner (ofOrdinalMap encode map) = some map := by
  obtain ⟨whole, same, folded⟩ := exists_foldlM_insert map.entries ∅ map.ascending each
  have equal : whole = map := by
    obtain ⟨entries, ascending⟩ := whole
    obtain rfl : entries = map.entries := same
    rfl
  rw [equal] at folded
  rw [ofOrdinalMap, Decoder.ordinalMap, List.foldlM_map]
  exact folded

end Graft.Json
