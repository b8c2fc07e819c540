import Mathlib.Data.List.Sort
import Graft.Variant.Selection

/-!
Which keys a map from ordinals has. An insertion at a key that is there leaves the keys as they are,
and one behind all keys adds its key at the end; so a selection that grows by one ordinal after the
other has the keys from one up to its window. `ext_get?` says that a map is determined by what it
answers, `SameBut` that it changed at a single key at most, and `Selection.keys_of_missing_eq_nil` what
the keys of a selection without a gap are.
-/

namespace Graft

namespace OrdinalMap

variable {α : Type}

@[simp] theorem get?_insert_self (map : OrdinalMap α) (key : Nat) (value : α) :
    (map.insert key value).get? key = some value := by
  simp [get?_insert]

theorem insertEntry_of_lt {key : Nat} {value : α} {entries : List (Nat × α)}
    (h : ∀ entry ∈ entries, entry.1 < key) :
    insertEntry key value entries = entries ++ [(key, value)] := by
  induction entries with
  | nil => rfl
  | cons entry rest ih =>
      obtain ⟨hhead, hrest⟩ := List.forall_mem_cons.1 h
      have hnot : ¬key < entry.1 := by omega
      have hne : ¬key = entry.1 := by omega
      simp [insertEntry, hnot, hne, ih hrest]

/-- An insertion behind all keys adds its key at the end. -/
theorem keys_insert_of_lt {map : OrdinalMap α} {key : Nat} (value : α)
    (h : ∀ other ∈ map.keys, other < key) : (map.insert key value).keys = map.keys ++ [key] := by
  have behind : ∀ entry ∈ map.entries, entry.1 < key :=
    fun entry member => h entry.1 (List.mem_map_of_mem member)
  simp [keys, insert, insertEntry_of_lt behind]

theorem keys_insertEntry_of_mem {key : Nat} {value : α} {entries : List (Nat × α)}
    (ascending : entries.Pairwise fun a b => a.1 < b.1) (h : key ∈ entries.map Prod.fst) :
    (insertEntry key value entries).map Prod.fst = entries.map Prod.fst := by
  induction entries with
  | nil => simp at h
  | cons entry rest ih =>
      obtain ⟨hhead, htail⟩ := List.pairwise_cons.1 ascending
      rcases List.mem_cons.1 h with rfl | later
      · simp [insertEntry]
      · obtain ⟨other, member, rfl⟩ := List.mem_map.1 later
        have hlt := hhead other member
        have hnot : ¬other.1 < entry.1 := by omega
        have hne : ¬other.1 = entry.1 := by omega
        simp [insertEntry, hnot, hne, ih htail later]

/-- An insertion at a key that is there leaves the keys as they are. -/
theorem keys_insert_of_mem {map : OrdinalMap α} {key : Nat} (value : α) (h : key ∈ map.keys) :
    (map.insert key value).keys = map.keys :=
  keys_insertEntry_of_mem map.ascending h

theorem lookup_of_mem {entries : List (Nat × α)} (ascending : entries.Pairwise fun a b => a.1 < b.1)
    {entry : Nat × α} (member : entry ∈ entries) : entries.lookup entry.1 = some entry.2 := by
  induction entries with
  | nil => simp at member
  | cons head rest ih =>
      obtain ⟨hhead, htail⟩ := List.pairwise_cons.1 ascending
      rw [lookup_cons_if]
      rcases List.mem_cons.1 member with rfl | later
      · exact if_pos rfl
      · have hlt := hhead entry later
        rw [if_neg (by omega)]
        exact ih htail later

/-- The entries of a map are what it answers. -/
theorem mem_entries_iff {map : OrdinalMap α} {key : Nat} {value : α} :
    (key, value) ∈ map.entries ↔ map.get? key = some value := by
  constructor
  · intro member
    exact lookup_of_mem map.ascending member
  · intro hget
    obtain ⟨before, later, same, -⟩ := List.lookup_eq_some_iff.1 hget
    rw [same]
    simp

/-- A map is determined by what it answers. -/
theorem ext_get? {map other : OrdinalMap α} (h : ∀ key, map.get? key = other.get? key) :
    map = other := by
  have nodup (some : OrdinalMap α) : some.entries.Nodup := by
    apply some.ascending.imp
    rintro a _ hlt rfl
    exact Nat.lt_irrefl _ hlt
  have members : ∀ entry, entry ∈ map.entries ↔ entry ∈ other.entries := by
    rintro ⟨key, value⟩
    rw [mem_entries_iff, mem_entries_iff, h key]
  have perm := (List.perm_ext_iff_of_nodup (nodup map) (nodup other)).2 members
  have same : map.entries = other.entries := by
    apply perm.eq_of_pairwise (fun a b _ _ hlt hgt => ?_) map.ascending other.ascending
    exact absurd hlt (Nat.lt_asymm hgt)
  cases map
  cases other
  congr

theorem get?_eq_none_of_not_mem {map : OrdinalMap α} {key : Nat} (h : key ∉ map.keys) :
    map.get? key = none := by
  cases hget : map.get? key with
  | none => rfl
  | some value => exact absurd (List.mem_map_of_mem (mem_entries_iff.2 hget)) h

/-- Maps with the same keys are equal if they answer the same for these. -/
theorem ext_of_keys {map other : OrdinalMap α} (same : map.keys = other.keys)
    (h : ∀ key ∈ map.keys, map.get? key = other.get? key) : map = other := by
  apply ext_get?
  intro key
  by_cases member : key ∈ map.keys
  · exact h key member
  · rw [get?_eq_none_of_not_mem member, get?_eq_none_of_not_mem (same ▸ member)]

theorem contains_iff_mem_keys {map : OrdinalMap α} {key : Nat} :
    map.contains key = true ↔ key ∈ map.keys := by
  rw [contains, Option.isSome_iff_exists]
  simp [keys, ← mem_entries_iff]

theorem mem_keys_iff {map : OrdinalMap α} {key : Nat} :
    key ∈ map.keys ↔ ∃ value, map.get? key = some value := by
  rw [← contains_iff_mem_keys, contains, Option.isSome_iff_exists]

theorem pairwise_keys (map : OrdinalMap α) : map.keys.Pairwise (· < ·) :=
  List.pairwise_map.2 map.ascending

theorem entries_foldl_insert {map : OrdinalMap α} {entries : List (Nat × α)}
    (ascending : entries.Pairwise fun a b => a.1 < b.1)
    (behind : ∀ entry ∈ map.entries, ∀ later ∈ entries, entry.1 < later.1) :
    (entries.foldl (fun map (entry : Nat × α) => map.insert entry.1 entry.2) map).entries =
      map.entries ++ entries := by
  induction entries generalizing map with
  | nil => simp
  | cons entry rest ih =>
      obtain ⟨first, others⟩ := List.pairwise_cons.1 ascending
      have added : (map.insert entry.1 entry.2).entries = map.entries ++ [entry] :=
        insertEntry_of_lt fun before member => behind before member entry List.mem_cons_self
      rw [List.foldl_cons, ih others, added, List.append_assoc, List.singleton_append]
      intro before member later mem
      rw [added, List.mem_append, List.mem_singleton] at member
      obtain earlier | rfl := member
      · exact behind before earlier later (List.mem_cons_of_mem _ mem)
      · exact first later mem

/-- A map is made of its own entries. -/
theorem ofList_entries (map : OrdinalMap α) : ofList map.entries = map := by
  have same : (ofList map.entries).entries = map.entries :=
    (entries_foldl_insert map.ascending (by rintro _ ⟨⟩)).trans (List.nil_append _)
  generalize ofList map.entries = made at same
  cases made
  cases map
  subst same
  rfl

def SameBut (key : Nat) (map after : OrdinalMap α) : Prop :=
  ∀ other ≠ key, after.get? other = map.get? other

namespace SameBut

variable {key : Nat} {map next after : OrdinalMap α}

theorem refl (key : Nat) (map : OrdinalMap α) : SameBut key map map := fun _ _ => rfl

theorem trans (first : SameBut key map next) (rest : SameBut key next after) :
    SameBut key map after := fun other h => (rest other h).trans (first other h)

theorem insert (h : SameBut key map after) (value : α) : SameBut key map (after.insert key value) := by
  intro other differs
  simp [get?_insert, differs, h other differs]

end SameBut

end OrdinalMap

namespace Selection

variable {selection : Selection} {ordinal : Nat}

/-- A selection for the ordinals from one up to a window has that window. -/
theorem window_eq {last : Nat}
    (h : OrdinalMap.keys selection = List.range' 1 last) : window selection = last := by
  simp only [window, OrdinalMap.lastKey?, h, List.getLast?_range']
  split <;> simp_all

theorem le_window (member : ordinal ∈ OrdinalMap.keys selection) : ordinal ≤ window selection := by
  unfold window OrdinalMap.lastKey?
  have ascending := OrdinalMap.pairwise_keys selection
  cases last : (OrdinalMap.keys selection).getLast? with
  | none =>
      rw [List.getLast?_eq_none_iff] at last
      rw [last] at member
      cases member
  | some highest =>
      obtain ⟨before, same⟩ := List.getLast?_eq_some_iff.1 last
      rw [same] at member ascending
      obtain earlier | only := List.mem_append.1 member
      · exact Nat.le_of_lt
          ((List.pairwise_append.1 ascending).2.2 ordinal earlier highest List.mem_cons_self)
      · exact Nat.le_of_eq (List.mem_singleton.1 only)

/-- The window is an ordinal of the selection, unless nothing is selected. -/
theorem window_mem (h : window selection ≠ 0) : window selection ∈ OrdinalMap.keys selection := by
  unfold window OrdinalMap.lastKey? at h ⊢
  cases last : (OrdinalMap.keys selection).getLast? with
  | none =>
      rw [last] at h
      exact absurd rfl h
  | some highest => exact List.mem_of_getLast? last

theorem window_eq_of_highest {highest : Nat} (member : highest ∈ OrdinalMap.keys selection)
    (all : ∀ ordinal ∈ OrdinalMap.keys selection, ordinal ≤ highest) :
    window selection = highest := by
  apply Nat.le_antisymm ?_ (le_window member)
  by_cases zero : window selection = 0
  · rw [zero]
    exact Nat.zero_le _
  · exact all _ (window_mem zero)

theorem mem_missing_iff : ordinal ∈ missing selection ↔
    1 ≤ ordinal ∧ ordinal ≤ window selection ∧ ordinal ∉ OrdinalMap.keys selection := by
  rw [missing, List.mem_filter, List.mem_range'_1, ← OrdinalMap.contains_iff_mem_keys]
  simp only [Bool.not_eq_true', Bool.not_eq_true]
  constructor
  · rintro ⟨⟨positive, within⟩, absent⟩
    exact ⟨positive, by omega, absent⟩
  · rintro ⟨positive, within, absent⟩
    exact ⟨⟨positive, by omega⟩, absent⟩

theorem pairwise_missing (selection : Selection) : (missing selection).Pairwise (· < ·) :=
  List.Pairwise.filter _ List.pairwise_lt_range'

/-- Without a gap the ordinals are those from one up to the window, and perhaps zero. -/
theorem keys_of_missing_eq_nil (none : missing selection = []) :
    OrdinalMap.keys selection =
      if 0 ∈ OrdinalMap.keys selection then List.range' 0 (window selection + 1)
      else List.range' 1 (window selection) := by
  have complete {ordinal : Nat} (positive : 1 ≤ ordinal) (within : ordinal ≤ window selection) :
      ordinal ∈ OrdinalMap.keys selection := by
    by_contra absent
    have mem := mem_missing_iff.2 ⟨positive, within, absent⟩
    rw [none] at mem
    cases mem
  split
  · next zero =>
      apply (OrdinalMap.pairwise_keys selection).eq_of_mem_iff List.pairwise_lt_range'
      intro ordinal
      rw [List.mem_range'_1]
      constructor
      · intro member
        have := le_window member
        omega
      · intro within
        obtain rfl | positive := Nat.eq_zero_or_pos ordinal
        · exact zero
        · exact complete positive (by omega)
  · next zero =>
      apply (OrdinalMap.pairwise_keys selection).eq_of_mem_iff List.pairwise_lt_range'
      intro ordinal
      rw [List.mem_range'_1]
      constructor
      · intro member
        have := le_window member
        have : ordinal ≠ 0 := by
          rintro rfl
          exact zero member
        omega
      · rintro ⟨positive, within⟩
        exact complete positive (by omega)

theorem missing_eq_nil {last : Nat} (within : window selection ≤ last)
    (all : ∀ ordinal, 1 ≤ ordinal → ordinal ≤ last → ordinal ∈ OrdinalMap.keys selection) :
    missing selection = [] := by
  apply List.eq_nil_iff_forall_not_mem.2
  intro ordinal member
  obtain ⟨positive, low, absent⟩ := mem_missing_iff.1 member
  exact absent (all ordinal positive (by omega))

end Selection

end Graft
