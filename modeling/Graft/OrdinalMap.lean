/-!
Finite maps from ordinals, kept as a list of entries in ascending order. `get?_insert` says what an
insertion changes.
-/

namespace Graft

structure OrdinalMap (α : Type) where
  entries : List (Nat × α)
  ascending : entries.Pairwise (fun a b => a.1 < b.1)

namespace OrdinalMap

variable {α β : Type}

def empty : OrdinalMap α := ⟨[], .nil⟩

instance : EmptyCollection (OrdinalMap α) := ⟨empty⟩

instance : Inhabited (OrdinalMap α) := ⟨empty⟩

instance [Repr α] : Repr (OrdinalMap α) := ⟨fun m n => reprPrec m.entries n⟩

instance [DecidableEq α] : DecidableEq (OrdinalMap α) := fun a b =>
  if h : a.entries = b.entries then isTrue (by cases a; cases b; simp_all)
  else isFalse (fun heq => h (heq ▸ rfl))

/-- The entries with one key replaced or added in its place. -/
def insertEntry (key : Nat) (value : α) : List (Nat × α) → List (Nat × α)
  | [] => [(key, value)]
  | entry :: rest =>
      if key < entry.1 then (key, value) :: entry :: rest
      else if key = entry.1 then (key, value) :: rest
      else entry :: insertEntry key value rest

theorem mem_insertEntry {key : Nat} {value : α} {entries : List (Nat × α)} {x : Nat × α}
    (h : x ∈ insertEntry key value entries) : x = (key, value) ∨ x ∈ entries := by
  induction entries with
  | nil => simpa [insertEntry] using h
  | cons entry rest ih =>
      unfold insertEntry at h
      split at h
      · simpa using h
      · split at h
        · simp only [List.mem_cons] at h ⊢
          rcases h with h | h <;> simp [h]
        · simp only [List.mem_cons] at h ⊢
          rcases h with h | h
          · simp [h]
          · rcases ih h with h | h <;> simp [h]

theorem pairwise_insertEntry {key : Nat} {value : α} {entries : List (Nat × α)}
    (h : entries.Pairwise (fun a b => a.1 < b.1)) :
    (insertEntry key value entries).Pairwise (fun a b => a.1 < b.1) := by
  induction entries with
  | nil => simp [insertEntry]
  | cons entry rest ih =>
      obtain ⟨hhead, htail⟩ := List.pairwise_cons.1 h
      unfold insertEntry
      split
      · next hlt =>
          refine List.pairwise_cons.2 ⟨fun x hx => ?_, h⟩
          rcases List.mem_cons.1 hx with rfl | hx
          · exact hlt
          · exact Nat.lt_trans hlt (hhead x hx)
      · split
        · next heq => exact List.pairwise_cons.2 ⟨fun x hx => heq ▸ hhead x hx, htail⟩
        · next hge hne =>
            refine List.pairwise_cons.2 ⟨fun x hx => ?_, ih htail⟩
            rcases mem_insertEntry hx with rfl | hx
            · simp only; omega
            · exact hhead x hx

def insert (map : OrdinalMap α) (key : Nat) (value : α) : OrdinalMap α :=
  ⟨insertEntry key value map.entries, pairwise_insertEntry map.ascending⟩

/-- The map that lists its entries, a later one winning. -/
def ofList (entries : List (Nat × α)) : OrdinalMap α :=
  entries.foldl (fun map (key, value) => map.insert key value) ∅

def get? (map : OrdinalMap α) (key : Nat) : Option α := map.entries.lookup key

def contains (map : OrdinalMap α) (key : Nat) : Bool := (map.get? key).isSome

def keys (map : OrdinalMap α) : List Nat := map.entries.map Prod.fst

def values (map : OrdinalMap α) : List α := map.entries.map Prod.snd

def lastKey? (map : OrdinalMap α) : Option Nat := map.keys.getLast?

def size (map : OrdinalMap α) : Nat := map.entries.length

def isEmpty (map : OrdinalMap α) : Bool := map.entries.isEmpty

@[simp] theorem get?_empty (key : Nat) : (∅ : OrdinalMap α).get? key = none := rfl

theorem lookup_cons_if (key : Nat) (entry : Nat × α) (rest : List (Nat × α)) :
    (entry :: rest).lookup key = if key = entry.1 then some entry.2 else rest.lookup key := by
  obtain ⟨k, value⟩ := entry
  by_cases h : key = k
  · simp [h]
  · have : (key == k) = false := by simpa using h
    simp [List.lookup_cons, this, h]

theorem lookup_insertEntry (key other : Nat) (value : α) (entries : List (Nat × α)) :
    (insertEntry key value entries).lookup other =
      if other = key then some value else entries.lookup other := by
  induction entries with
  | nil => simp [insertEntry, lookup_cons_if]
  | cons entry rest ih =>
      unfold insertEntry
      split
      · simp [lookup_cons_if]
      · split
        · next heq => subst heq; grind [lookup_cons_if]
        · next hne => grind [lookup_cons_if]

/-- An insertion changes the value of its key and of no other. -/
theorem get?_insert (map : OrdinalMap α) (key other : Nat) (value : α) :
    (map.insert key value).get? other = if other = key then some value else map.get? other :=
  lookup_insertEntry key other value map.entries

end OrdinalMap

end Graft
