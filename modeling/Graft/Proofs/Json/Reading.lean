import Graft.Hash.Digest
import Graft.Json.Printer
import Graft.Json.Reader
import Graft.Proofs.Text.Numeral
import Mathlib.Data.List.TakeDrop

/-!
What is printed reads back. `stringTail?_escaped` says it of strings, `numeral?_repr` of natural
numbers, and `read?_pretty` of every value that nests no deeper than the reader allows and whose
numbers are natural ones of at most 64 bits.
-/

namespace Graft.Json

open Graft.Text Graft.Number

/-- What may follow a printed value: the end, or what separates it from what is next. -/
def Closes (rest : List Char) : Prop := ∀ c ∈ rest.head?, c = ',' ∨ c = '\n'

theorem closes_nil : Closes [] := by
  intro c h
  cases h

theorem closes_cons {c : Char} {rest : List Char} (h : c = ',' ∨ c = '\n') : Closes (c :: rest) := by
  intro other member
  obtain rfl := Option.some.inj member
  exact h

/-! Strings -/

theorem escaped_ne_nil (c : Char) : escaped c ≠ [] := by
  unfold escaped
  repeat' split
  all_goals simp

theorem unit?_control {n : Nat} (h : n < 0x20) (rest : List Char) :
    unit? ('0' :: '0' :: hexDigit (n / 16) :: hexDigit (n % 16) :: rest) = some (n, rest) := by
  have high := Hash.hexDigit?_hexDigit (n / 16) (by omega)
  have low := Hash.hexDigit?_hexDigit (n % 16) (by omega)
  have zero : hexDigit? '0' = some 0 := rfl
  have value : n / 16 * 16 + n % 16 = n := Nat.div_add_mod' n 16
  simp [unit?, digitsValue?, zero, high, low, value]

/-- An escaped character is read as that character. -/
theorem stringTail?_escaped_append (c : Char) (fuel : Nat) (rest : List Char) :
    stringTail? (fuel + 1) (escaped c ++ rest) =
      (stringTail? fuel rest).map fun (text, rest) => (c :: text, rest) := by
  have mapped (found : Option (List Char × List Char)) : (do
      let (text, rest) ← found
      return (c :: text, rest) : Option (List Char × List Char)) =
      found.map fun (text, rest) => (c :: text, rest) := by
    cases found <;> rfl
  fun_cases escaped c with
  | case9 quote backslash newline return_ tab backspace feed control =>
      simp only [List.cons_append, List.nil_append, stringTail?, quote, backslash, control,
        ↓reduceIte]
      exact mapped _
  | case8 quote backslash newline return_ tab backspace feed control =>
      have character : Char.ofNat c.toNat = c := Char.ofNat_toNat c
      have early : ¬(0xD800 ≤ c.toNat ∧ c.toNat < 0xDC00) := by omega
      have late : ¬(0xDC00 ≤ c.toNat ∧ c.toNat < 0xE000) := by omega
      have escape : escape? ('u' :: '0' :: '0' :: hexDigit (c.toNat / 16) ::
          hexDigit (c.toNat % 16) :: rest) = some (c, rest) := by
        simp [escape?, unit?_control control, early, late, character]
      simp only [List.cons_append, List.nil_append, stringTail?, escape]
      exact mapped _
  | _ =>
      subst_vars
      exact mapped _

theorem stringTail?_escaped (text : List Char) {fuel : Nat} (h : text.length < fuel)
    (rest : List Char) :
    stringTail? fuel (text.flatMap escaped ++ '"' :: rest) = some (text, rest) := by
  induction text generalizing fuel with
  | nil =>
      obtain ⟨less, rfl⟩ := Nat.exists_eq_add_one_of_ne_zero (Nat.ne_of_gt h)
      rfl
  | cons c text ih =>
      obtain ⟨less, rfl⟩ := Nat.exists_eq_add_one_of_ne_zero (Nat.ne_zero_of_lt h)
      have enough : text.length < less := by simpa using h
      rw [List.flatMap_cons, List.append_assoc, stringTail?_escaped_append, ih enough]
      rfl

theorem length_le_flatMap_escaped (text : List Char) :
    text.length ≤ (text.flatMap escaped).length := by
  induction text with
  | nil => exact Nat.le_refl _
  | cons c text ih =>
      have positive := List.length_pos_iff.2 (escaped_ne_nil c)
      rw [List.flatMap_cons, List.length_append, List.length_cons]
      omega

/-- A quoted text reads as that text. -/
theorem string?_escaped (text : String) (rest : List Char) :
    string? (text.toList.flatMap escaped ++ '"' :: rest) = some (text, rest) := by
  have shorter := length_le_flatMap_escaped text.toList
  have enough : text.toList.length < (text.toList.flatMap escaped ++ '"' :: rest).length + 1 := by
    rw [List.length_append]
    omega
  unfold string?
  rw [stringTail?_escaped text.toList enough]
  simp

theorem toList_quote (text : String) :
    (quote text).toList = '"' :: (text.toList.flatMap escaped ++ ['"']) := by
  simp [quote]

/-! Numbers -/

/-- Numbers of 64 bits are far from the bounds of double precision. -/
theorem ofDecimal_nat (sign : Bool) {n : Nat} (h : n ≤ maxUnsigned 64) :
    ∃ negative significand exponent,
      Format.double.ofDecimal sign n 0 = .finite negative significand exponent := by
  by_cases zero : n = 0
  · exact ⟨sign, 0, -1074, by rw [zero]; rfl⟩
  have bits : n.log2 < 64 := by
    rw [Nat.log2_lt zero]
    exact Nat.lt_of_le_of_lt h (by decide)
  have small : ∀ magnitude : Int, magnitude ≤ 64 → ∀ carried : Prop, [Decidable carried] →
      ¬(971 : Int) < (if carried then max (-1074) (magnitude - 53 + 1) + 1
        else max (-1074) (magnitude - 53 + 1)) := by
    intro magnitude bounded carried _
    split <;> omega
  have length : ¬((0 : Int) + ((toString n).length : Int) < -400) := by omega
  have unit : powerOfTen 0 = (1, 1) := rfl
  have one : Nat.log2 1 = 0 := by decide
  have large : ¬(400 : Int) < 0 := by decide
  simp only [Format.ofDecimal, zero, ↓reduceIte, large, length, unit, Format.round, Nat.mul_one, one,
    Format.double]
  refine ⟨sign, _, _, if_neg ?_⟩
  apply small
  split <;> omega

theorem span_digits {digits rest : List Char} (h : ∀ c ∈ digits, c.isDigit = true)
    (closes : Closes rest) :
    (digits ++ rest).span (digit? · |>.isSome) = (digits, rest) := by
  have none : rest.takeWhile (digit? · |>.isSome) = [] ∧
      rest.dropWhile (digit? · |>.isSome) = rest := by
    cases rest with
    | nil => exact ⟨rfl, rfl⟩
    | cons c after =>
        rcases closes c rfl with rfl | rfl <;> exact ⟨rfl, rfl⟩
  have all : ∀ c ∈ digits, (digit? c).isSome = true := fun c member =>
    isSome_digit?_of_isDigit (h c member)
  rw [List.span_eq_takeWhile_dropWhile, List.takeWhile_append_of_pos all,
    List.dropWhile_append_of_pos all, none.1, none.2, List.append_nil]

theorem whole?_repr (n : Nat) {rest : List Char} (closes : Closes rest) :
    whole? (n.repr.toList ++ rest) = some (n.repr.toList, rest) := by
  obtain ⟨c, digits, same, isDigit, alone⟩ := exists_toList_repr n
  by_cases zero : c = '0'
  · rw [same, zero, alone zero]
    rfl
  · have notZero : whole? (c :: digits ++ rest) = digits? (c :: digits ++ rest) := by
      simp only [List.cons_append]
      unfold whole?
      split
      · next found => exact absurd (List.cons.inj found).1 zero
      · rfl
    have span := span_digits (fun _ => isDigit_of_mem_repr (n := n)) closes
    rw [same, notZero]
    rw [same] at span
    unfold digits?
    rw [span]
    rfl

theorem fraction?_of_closes {rest : List Char} (closes : Closes rest) :
    fraction? rest = some ([], rest) := by
  cases rest with
  | nil => rfl
  | cons c after => rcases closes c rfl with rfl | rfl <;> rfl

theorem exponent?_of_closes {rest : List Char} (closes : Closes rest) :
    exponent? rest = some (none, rest) := by
  cases rest with
  | nil => rfl
  | cons c after => rcases closes c rfl with rfl | rfl <;> rfl

/-- The numeral of a number of 64 bits is read as that number. -/
theorem numeral?_repr {n : Nat} (h : n ≤ maxUnsigned 64) {rest : List Char} (closes : Closes rest) :
    numeral? (n.repr.toList ++ rest) = some (.ofNat n, rest) := by
  obtain ⟨c, digits, same, isDigit, -⟩ := exists_toList_repr n
  obtain ⟨negative, significand, exponent, finite⟩ := ofDecimal_nat false h
  have unsigned : c ≠ '-' := by
    rintro rfl
    exact absurd isDigit (by decide)
  have whole := whole?_repr n closes
  have fraction := fraction?_of_closes closes
  have power := exponent?_of_closes closes
  have value := digitsValue?_repr n
  have unscaled : (none : Option Int).getD 0 - (([] : List Char).length : Int) = 0 := rfl
  simp only [same, List.cons_append] at whole value ⊢
  unfold numeral?
  simp only [whole, fraction, power, value, unsigned, Option.bind_eq_bind, Option.bind_some,
    List.append_nil, List.cons.injEq, false_and, imp_self, implies_true]
  rw [unscaled, finite]
  rfl

/-- A sign before the numeral of a number that is not zero makes it negative. -/
theorem numeral?_minus {n : Nat} (h : n ≤ maxUnsigned 64) (positive : n ≠ 0) {rest : List Char}
    (closes : Closes rest) :
    numeral? ('-' :: (n.repr.toList ++ rest)) = some (⟨true, n, 0, true⟩, rest) := by
  obtain ⟨negative, significand, exponent, finite⟩ := ofDecimal_nat true h
  have unscaled : (none : Option Int).getD 0 - (([] : List Char).length : Int) = 0 := rfl
  unfold numeral?
  simp only [whole?_repr n closes, fraction?_of_closes closes, exponent?_of_closes closes,
    digitsValue?_repr n, Option.bind_eq_bind, Option.bind_some, List.append_nil]
  rw [unscaled, finite]
  simp [positive]

/-! Values -/

/-- Values that nest no deeper than so many containers, with natural numbers of 64 bits alone. -/
inductive Readable : Nat → Json → Prop
  | null (depth : Nat) : Readable depth .null
  | bool (depth : Nat) (value : Bool) : Readable depth (.bool value)
  | nat (depth : Nat) {n : Nat} (h : n ≤ maxUnsigned 64) : Readable depth (nat n)
  | string (depth : Nat) (text : String) : Readable depth (.string text)
  | array {depth : Nat} {items : List Json} (h : ∀ item ∈ items, Readable depth item) :
      Readable (depth + 1) (.array items)
  | object {depth : Nat} {members : List (String × Json)}
      (h : ∀ member ∈ members, Readable depth member.2) : Readable (depth + 1) (.object members)

theorem Readable.mono {depth deeper : Nat} {value : Json} (h : Readable depth value)
    (le : depth ≤ deeper) : Readable deeper value := by
  induction h generalizing deeper with
  | null => exact .null _
  | bool _ value => exact .bool _ value
  | nat _ small => exact .nat _ small
  | string _ text => exact .string _ text
  | array _ each =>
      obtain ⟨deeper, rfl⟩ := Nat.exists_eq_add_of_lt (Nat.lt_of_succ_le le)
      exact .array fun item member => each item member (by omega)
  | object _ each =>
      obtain ⟨deeper, rfl⟩ := Nat.exists_eq_add_of_lt (Nat.lt_of_succ_le le)
      exact .object fun member listed => each member listed (by omega)

/-- That a value is read from its printed form, at any level of indentation. -/
def ReadsBack (room : Nat) (value : Json) : Prop :=
  ∀ level fuel rest, (prettyAt level value).toList.length < fuel → Closes rest →
    value? fuel room ((prettyAt level value).toList ++ rest) = some (value, rest)

theorem skipSpace_append {space : List Char} (h : ∀ c ∈ space, isSpace c = true)
    (text : List Char) : skipSpace (space ++ text) = skipSpace text :=
  List.dropWhile_append_of_pos h

theorem isSpace_of_mem_lineBreak {level : Nat} {c : Char} (h : c ∈ (lineBreak level).toList) :
    isSpace c = true := by
  have blank : c = '\n' ∨ c = ' ' := by
    simp only [lineBreak, String.toList_ofList, List.mem_cons] at h
    exact h.imp_right List.eq_of_mem_replicate
  rcases blank with rfl | rfl <;> rfl

theorem skipSpace_lineBreak (level : Nat) (text : List Char) :
    skipSpace ((lineBreak level).toList ++ text) = skipSpace text :=
  skipSpace_append (fun _ => isSpace_of_mem_lineBreak) text

theorem value?_lineBreak (level fuel room : Nat) (text : List Char) :
    value? fuel room ((lineBreak level).toList ++ text) = value? fuel room text := by
  cases fuel with
  | zero => rfl
  | succ fuel => simp only [value?, skipSpace_lineBreak]

theorem items?_lineBreak (level fuel room : Nat) (text : List Char) :
    items? fuel room ((lineBreak level).toList ++ text) = items? fuel room text := by
  cases fuel with
  | zero => rfl
  | succ fuel => simp only [items?, value?_lineBreak]

theorem members?_lineBreak (level fuel room : Nat) (text : List Char) :
    members? fuel room ((lineBreak level).toList ++ text) = members? fuel room text := by
  cases fuel with
  | zero => rfl
  | succ fuel => simp only [members?, skipSpace_lineBreak]

theorem closes_lineBreak (level : Nat) (text : List Char) :
    Closes ((lineBreak level).toList ++ text) := by
  rw [lineBreak, String.toList_ofList]
  exact closes_cons (.inr rfl)

theorem prettyItems_eq (level : Nat) (items : List Json) :
    prettyItems level items = items.map (prettyAt level) := by
  induction items with
  | nil => rfl
  | cons item rest ih => rw [prettyItems, ih, List.map_cons]

theorem prettyMembers_eq (level : Nat) (members : List (String × Json)) :
    prettyMembers level members =
      members.map fun (name, value) => quote name ++ ": " ++ prettyAt level value := by
  induction members with
  | nil => rfl
  | cons member rest ih => rw [prettyMembers, ih, List.map_cons]

/-- The lines of a container, each but the last ended by a comma. -/
def entryLines (level : Nat) (entries : List String) : List Char :=
  (("," ++ lineBreak level).intercalate entries).toList

theorem entryLines_singleton (level : Nat) (entry : String) :
    entryLines level [entry] = entry.toList := by
  simp [entryLines]

theorem entryLines_cons (level : Nat) (entry next : String) (rest : List String) :
    entryLines level (entry :: next :: rest) =
      entry.toList ++ ',' :: ((lineBreak level).toList ++ entryLines level (next :: rest)) := by
  simp [entryLines]

theorem toList_block (level : Nat) (opening closing : String) {items : List String}
    (h : items ≠ []) : (block level opening closing items).toList =
      opening.toList ++ ((lineBreak (level + 1)).toList ++ (entryLines (level + 1) items ++
        ((lineBreak level).toList ++ closing.toList))) := by
  have filled : items.isEmpty = false := by simpa using h
  simp [block, filled, entryLines]

theorem length_lineBreak_pos (level : Nat) : 0 < (lineBreak level).toList.length := by
  simp [lineBreak]

theorem items?_entryLines {room : Nat} (level back : Nat) (rest : List Char) {items : List Json}
    (h : ∀ item ∈ items, ReadsBack room item) (filled : items ≠ []) {fuel : Nat}
    (enough : (entryLines level (items.map (prettyAt level))).length + 1 < fuel) :
    items? fuel room (entryLines level (items.map (prettyAt level)) ++
      ((lineBreak back).toList ++ ']' :: rest)) = some (items, rest) := by
  induction items generalizing fuel with
  | nil => exact absurd rfl filled
  | cons item others ih =>
      obtain ⟨first, later⟩ := List.forall_mem_cons.1 h
      obtain ⟨less, rfl⟩ := Nat.exists_eq_add_one_of_ne_zero (Nat.ne_zero_of_lt enough)
      cases others with
      | nil =>
          simp only [List.map_cons, List.map_nil, entryLines_singleton] at enough ⊢
          have found := first level less ((lineBreak back).toList ++ ']' :: rest) (by omega)
            (closes_lineBreak back _)
          simp only [items?, found, Option.bind_eq_bind, Option.bind_some, skipSpace_lineBreak]
          rfl
      | cons next others =>
          simp only [List.map_cons, entryLines_cons, List.length_append, List.length_cons] at enough
          have found := first level less (',' :: ((lineBreak level).toList ++
            (entryLines level ((next :: others).map (prettyAt level)) ++
              ((lineBreak back).toList ++ ']' :: rest)))) (by omega) (closes_cons (.inl rfl))
          have remaining := ih later (by simp) (show _ < less by
            simp only [List.map_cons]
            omega)
          have comma : ∀ text, skipSpace (',' :: text) = ',' :: text := fun _ => rfl
          simp only [List.map_cons, entryLines_cons, List.append_assoc, List.cons_append] at found ⊢
          simp only [items?, found, Option.bind_eq_bind, Option.bind_some, comma,
            items?_lineBreak]
          simp only [List.map_cons] at remaining
          rw [remaining]
          rfl

def memberText (level : Nat) (member : String × Json) : String :=
  quote member.1 ++ ": " ++ prettyAt level member.2

theorem toList_memberText (level : Nat) (member : String × Json) (rest : List Char) :
    (memberText level member).toList ++ rest = '"' :: (member.1.toList.flatMap escaped ++
      '"' :: ':' :: ' ' :: ((prettyAt level member.2).toList ++ rest)) := by
  simp [memberText, toList_quote]

theorem value?_space (fuel room : Nat) (text : List Char) :
    value? fuel room (' ' :: text) = value? fuel room text := by
  cases fuel with
  | zero => rfl
  | succ fuel => rfl

theorem members?_entryLines {room : Nat} (level back : Nat) (rest : List Char)
    {members : List (String × Json)} (h : ∀ member ∈ members, ReadsBack room member.2)
    (filled : members ≠ []) {fuel : Nat}
    (enough : (entryLines level (members.map (memberText level))).length + 1 < fuel) :
    members? fuel room (entryLines level (members.map (memberText level)) ++
      ((lineBreak back).toList ++ '\x7d' :: rest)) = some (members, rest) := by
  have quoted : ∀ text, skipSpace ('"' :: text) = '"' :: text := fun _ => rfl
  have colon : ∀ text, skipSpace (':' :: text) = ':' :: text := fun _ => rfl
  have comma : ∀ text, skipSpace (',' :: text) = ',' :: text := fun _ => rfl
  induction members generalizing fuel with
  | nil => exact absurd rfl filled
  | cons member others ih =>
      obtain ⟨first, later⟩ := List.forall_mem_cons.1 h
      obtain ⟨less, rfl⟩ := Nat.exists_eq_add_one_of_ne_zero (Nat.ne_zero_of_lt enough)
      have shorter : (prettyAt level member.2).toList.length ≤
          (memberText level member).toList.length := by
        simp only [memberText, String.toList_append, List.length_append]
        omega
      cases others with
      | nil =>
          simp only [List.map_cons, List.map_nil, entryLines_singleton] at enough ⊢
          have found := first level less ((lineBreak back).toList ++ '\x7d' :: rest) (by omega)
            (closes_lineBreak back _)
          rw [toList_memberText]
          simp only [members?, quoted, string?_escaped, colon, value?_space, found,
            Option.bind_eq_bind, Option.bind_some, skipSpace_lineBreak]
          rfl
      | cons next others =>
          simp only [List.map_cons, entryLines_cons, List.length_append, List.length_cons] at enough
          have found := first level less (',' :: ((lineBreak level).toList ++
            (entryLines level ((next :: others).map (memberText level)) ++
              ((lineBreak back).toList ++ '\x7d' :: rest)))) (by omega) (closes_cons (.inl rfl))
          have remaining := ih later (by simp) (show _ < less by
            simp only [List.map_cons]
            omega)
          simp only [List.map_cons, entryLines_cons, List.append_assoc, List.cons_append] at found ⊢
          rw [toList_memberText]
          simp only [members?, quoted, string?_escaped, colon, value?_space, found,
            Option.bind_eq_bind, Option.bind_some, comma, members?_lineBreak]
          simp only [List.map_cons] at remaining
          rw [remaining]
          rfl

/-- A container that is opened has a line break before its first entry. -/
theorem entryLines_start (level : Nat) {entry : String} (rest : List String) {c : Char}
    {text : List Char} (same : entry.toList = c :: text) :
    ∃ after, entryLines level (entry :: rest) = c :: after := by
  cases rest with
  | nil => exact ⟨text, by rw [entryLines_singleton, same]⟩
  | cons next rest => exact ⟨_, by rw [entryLines_cons, same, List.cons_append]⟩

/-- A printed value starts with neither white space nor a closing bracket. -/
theorem prettyAt_start (level : Nat) {depth : Nat} {value : Json} (h : Readable depth value) :
    ∃ c text, (prettyAt level value).toList = c :: text ∧ isSpace c = false ∧ c ≠ ']' := by
  cases h with
  | null => exact ⟨'n', ['u', 'l', 'l'], by simp [prettyAt], rfl, by decide⟩
  | bool _ value =>
      cases value with
      | false => exact ⟨'f', ['a', 'l', 's', 'e'], by simp [prettyAt], rfl, by decide⟩
      | true => exact ⟨'t', ['r', 'u', 'e'], by simp [prettyAt], rfl, by decide⟩
  | @nat _ n _ =>
      obtain ⟨c, digits, same, isDigit, -⟩ := exists_toList_repr n
      refine ⟨c, digits, ?_, ?_, ?_⟩
      · simpa [prettyAt, nat, Numeral.ofNat, Numeral.render] using same
      · rw [Bool.eq_false_iff]
        intro space
        simp only [isSpace, Bool.or_eq_true, beq_iff_eq] at space
        rcases space with ((rfl | rfl) | rfl) | rfl <;> exact absurd isDigit (by decide)
      · rintro rfl
        exact absurd isDigit (by decide)
  | string _ text =>
      exact ⟨'"', _, by rw [prettyAt, toList_quote], rfl, by decide⟩
  | @array _ items _ =>
      cases items with
      | nil => exact ⟨'[', [']'], by simp [prettyAt, prettyItems, block], rfl, by decide⟩
      | cons item rest =>
          rw [prettyAt, toList_block _ _ _ (by simp [prettyItems_eq])]
          exact ⟨'[', _, rfl, rfl, by decide⟩
  | @object _ members _ =>
      cases members with
      | nil => exact ⟨'\x7b', ['\x7d'], by simp [prettyAt, prettyMembers, block], rfl, by decide⟩
      | cons member rest =>
          rw [prettyAt, toList_block _ _ _ (by simp [prettyMembers_eq])]
          exact ⟨'\x7b', _, rfl, rfl, by decide⟩

theorem readsBack_array {depth room : Nat} (h : depth < room) {items : List Json}
    (readable : ∀ item ∈ items, Readable depth item)
    (each : ∀ item ∈ items, ReadsBack (room - 1) item) : ReadsBack room (.array items) := by
  intro level fuel rest enough _
  obtain ⟨less, rfl⟩ := Nat.exists_eq_add_one_of_ne_zero (Nat.ne_zero_of_lt enough)
  have roomy : room ≠ 0 := Nat.ne_zero_of_lt h
  have opened : ∀ text, skipSpace ('[' :: text) = '[' :: text := fun _ => rfl
  cases items with
  | nil =>
      have closed : ∀ text, skipSpace (']' :: text) = ']' :: text := fun _ => rfl
      simp [prettyAt, prettyItems, block, value?, opened, closed, roomy]
  | cons item others =>
      obtain ⟨c, text, same, visible, notClosed⟩ :=
        prettyAt_start (level + 1) (readable item List.mem_cons_self)
      obtain ⟨after, start⟩ := entryLines_start (level + 1) (others.map (prettyAt (level + 1))) same
      have printed : (prettyAt level (.array (item :: others))).toList =
          '[' :: ((lineBreak (level + 1)).toList ++
            (entryLines (level + 1) ((item :: others).map (prettyAt (level + 1))) ++
              ((lineBreak level).toList ++ [']']))) := by
        rw [prettyAt, prettyItems_eq, toList_block _ _ _ (by simp)]
        rfl
      have positive := length_lineBreak_pos (level + 1)
      have found := items?_entryLines (level + 1) level rest each (by simp) (show _ < less by
        rw [printed] at enough
        simp only [List.length_cons, List.length_append] at enough
        omega)
      rw [printed]
      simp only [List.cons_append, List.append_assoc, List.map_cons, start] at found ⊢
      have skipped : ∀ text, skipSpace (c :: text) = c :: text := fun text =>
        List.dropWhile_cons_of_neg (by simp [visible])
      simp only [value?, opened, roomy, ↓reduceIte, skipSpace_lineBreak, skipped, List.nil_append]
      -- the first entry does not look like the end of an empty container
      split
      · next other => exact absurd (List.cons.inj other).1 notClosed
      · rw [found]
        rfl

theorem readsBack_object {depth room : Nat} (h : depth < room) {members : List (String × Json)}
    (each : ∀ member ∈ members, ReadsBack (room - 1) member.2) :
    ReadsBack room (.object members) := by
  intro level fuel rest enough _
  obtain ⟨less, rfl⟩ := Nat.exists_eq_add_one_of_ne_zero (Nat.ne_zero_of_lt enough)
  have roomy : room ≠ 0 := Nat.ne_zero_of_lt h
  have opened : ∀ text, skipSpace ('\x7b' :: text) = '\x7b' :: text := fun _ => rfl
  cases members with
  | nil =>
      have closed : ∀ text, skipSpace ('\x7d' :: text) = '\x7d' :: text := fun _ => rfl
      simp [prettyAt, prettyMembers, block, value?, opened, closed, roomy]
  | cons member others =>
      have quoted := toList_memberText (level + 1) member []
      rw [List.append_nil] at quoted
      obtain ⟨after, start⟩ :=
        entryLines_start (level + 1) (others.map (memberText (level + 1))) quoted
      have printed : (prettyAt level (.object (member :: others))).toList =
          '\x7b' :: ((lineBreak (level + 1)).toList ++
            (entryLines (level + 1) ((member :: others).map (memberText (level + 1))) ++
              ((lineBreak level).toList ++ ['\x7d']))) := by
        rw [prettyAt, prettyMembers_eq, toList_block _ _ _ (by simp)]
        rfl
      have positive := length_lineBreak_pos (level + 1)
      have found := members?_entryLines (level + 1) level rest each (by simp)
        (show _ < less by
          rw [printed] at enough
          simp only [List.length_cons, List.length_append] at enough
          omega)
      rw [printed]
      simp only [List.cons_append, List.append_assoc, List.map_cons, start] at found ⊢
      have skipped : ∀ text, skipSpace ('"' :: text) = '"' :: text := fun _ => rfl
      simp only [value?, opened, roomy, ↓reduceIte, skipSpace_lineBreak, skipped, List.nil_append]
      split
      · next other => exact absurd (List.cons.inj other).1 (by decide)
      · rw [found]
        rfl

theorem readsBack_nat {room n : Nat} (small : n ≤ maxUnsigned 64) : ReadsBack room (nat n) := by
  intro level fuel rest enough closes
  obtain ⟨less, rfl⟩ := Nat.exists_eq_add_one_of_ne_zero (Nat.ne_zero_of_lt enough)
  obtain ⟨c, text, same, visible, -⟩ := prettyAt_start level (.nat 0 small)
  have printed : (prettyAt level (nat n)).toList = n.repr.toList := by
    simp [prettyAt, nat, Numeral.ofNat, Numeral.render]
  have found := numeral?_repr small closes
  have digit : c.isDigit = true := by
    apply isDigit_of_mem_repr (n := n)
    rw [← printed, same]
    exact List.mem_cons_self
  rw [← printed, same] at found
  rw [same]
  have skipped : ∀ text, skipSpace (c :: text) = c :: text := fun text =>
    List.dropWhile_cons_of_neg (by simp [visible])
  have differs : ∀ other : Char, other.isDigit = false → c ≠ other := by
    rintro other no rfl
    rw [no] at digit
    cases digit
  simp only [List.cons_append] at found ⊢
  simp only [value?, skipped]
  -- a digit starts no value but a number
  split
  case h_7 =>
    rw [found]
    rfl
  all_goals
    next start => exact absurd (List.cons.inj start).1 (differs _ rfl)

/-- Every value that the reader has room for is read from its printed form. -/
theorem readsBack_of_readable {depth : Nat} {value : Json} (h : Readable depth value) {room : Nat}
    (fits : depth ≤ room) : ReadsBack room value := by
  induction h generalizing room with
  | null =>
      intro level fuel rest enough _
      obtain ⟨less, rfl⟩ := Nat.exists_eq_add_one_of_ne_zero (Nat.ne_zero_of_lt enough)
      simp [prettyAt, value?, skipSpace, isSpace]
  | bool _ value =>
      intro level fuel rest enough _
      obtain ⟨less, rfl⟩ := Nat.exists_eq_add_one_of_ne_zero (Nat.ne_zero_of_lt enough)
      cases value <;> simp [prettyAt, value?, skipSpace, isSpace]
  | nat _ small => exact readsBack_nat small
  | string _ text =>
      intro level fuel rest enough _
      obtain ⟨less, rfl⟩ := Nat.exists_eq_add_one_of_ne_zero (Nat.ne_zero_of_lt enough)
      have quoted : ∀ text, skipSpace ('"' :: text) = '"' :: text := fun _ => rfl
      rw [prettyAt, toList_quote]
      simp only [List.cons_append, List.append_assoc, List.nil_append, value?, quoted,
        string?_escaped, Option.bind_eq_bind, Option.bind_some, Option.pure_def]
  | array readable ih =>
      exact readsBack_array fits readable fun item member => ih item member (by omega)
  | object readable ih =>
      exact readsBack_object fits fun member found => ih member found (by omega)

/-- What is printed reads back. -/
theorem read?_pretty {value : Json} (h : Readable maxDepth value) :
    read? value.pretty = some value := by
  have found := readsBack_of_readable h (Nat.le_refl maxDepth) 0 (value.pretty.toList.length + 1) []
    (Nat.lt_succ_self _) closes_nil
  rw [List.append_nil] at found
  unfold read?
  rw [show value.pretty.toList = (prettyAt 0 value).toList from rfl] at found ⊢
  simp only [found, Option.bind_eq_bind, Option.bind_some]
  rfl

end Graft.Json
