import Graft.Checkpoint
import Graft.Proofs.Files.Names
import Graft.Store.Files

/-!
What the name of a unit tells. A name takes apart in one way only (`id_eq_iff`), so units of one name
agree in the plain characters of their stems, in their trials and, unless digests collide, in the bytes
that are digested. These are a row of texts with zero bytes between them, so they tell the text and
the functions apart only as long as no zero character stands in them (`separated_eq_iff`).
-/

namespace Graft

open Hash Text

namespace Text

/-- A separator that does not stand behind itself cuts a text in one way. -/
theorem append_cons_inj {separator : Char} {before before' after after' : List Char}
    (h : separator ∉ after) (h' : separator ∉ after') :
    before ++ separator :: after = before' ++ separator :: after' ↔
      before = before' ∧ after = after' := by
  constructor
  · intro same
    have pieces := congrArg (splitAtChar separator) same
    simp only [splitAtChar_append, splitAtChar_of_not_mem h, splitAtChar_of_not_mem h'] at pieces
    obtain rfl : after = after' := List.singleton_inj.1 (List.append_inj' pieces rfl).2
    exact ⟨List.append_cancel_right same, rfl⟩
  · rintro ⟨rfl, rfl⟩
    rfl

/-- The pieces of a text, with the separator between them again. -/
theorem intercalate_splitAtChar (separator : Char) (text : List Char) :
    [separator].intercalate (splitAtChar separator text) = text := by
  induction text with
  | nil => rfl
  | cons c rest ih =>
      cases pieces : splitAtChar separator rest with
      | nil => exact absurd pieces (splitAtChar_ne_nil separator rest)
      | cons piece others =>
          by_cases same : c = separator
          · rw [pieces] at ih
            simp [splitAtChar, same, pieces, List.intercalate_cons_cons, ih]
          · rw [pieces] at ih
            cases others <;> simp_all [splitAtChar, List.intercalate_cons_cons]

/-- Pieces that are joined may be joined first, and then with the others. -/
theorem intercalate_intercalate {α : Type} (separator piece : List α) (first rest : List (List α)) :
    separator.intercalate (separator.intercalate (piece :: first) :: rest) =
      separator.intercalate (piece :: first ++ rest) := by
  induction first generalizing piece with
  | nil => simp
  | cons next first ih =>
      rw [List.cons_append, List.cons_append, List.intercalate_cons_cons,
        List.intercalate_cons_cons, ← List.cons_append, ← ih next]
      cases rest with
      | nil => simp
      | cons other rest => simp [List.intercalate_cons_cons]

end Text

namespace Hash.Digest

/-- The bytes of several texts are those of one text, with zero characters between them. -/
theorem separated_eq_encode (texts : List String) :
    separated texts = encode ("\x00".intercalate texts) := by
  induction texts with
  | nil => rfl
  | cons text rest ih =>
      cases rest with
      | nil => simp [separated]
      | cons next others =>
          have zero : encode "\x00" = [0] := by decide
          have append (a b : String) : encode (a ++ b) = encode a ++ encode b := by simp [encode]
          rw [String.intercalate_cons_cons, append, append, ← ih, zero]
          simp [separated, List.intercalate_cons_cons]

theorem separated_inj {texts others : List String} :
    separated texts = separated others ↔ "\x00".intercalate texts = "\x00".intercalate others := by
  rw [separated_eq_encode, separated_eq_encode]
  exact ⟨fun same => encode_injective same, fun same => congrArg encode same⟩

end Hash.Digest

open Hash.Digest

namespace SourceUnit

variable {a b : SourceUnit}

/-- That the names of the functions hold no zero character, as no identifier does. -/
def Named (unit : SourceUnit) : Prop := ∀ name ∈ unit.functions, '\x00' ∉ name.toList

/-- The pieces of what is digested are those of the text, and the functions. -/
theorem pieces_of_named (named : a.Named) :
    splitAtChar '\x00' ("\x00".intercalate (a.text :: a.functions)).toList =
      splitAtChar '\x00' a.text.toList ++ a.functions.map String.toList := by
  obtain ⟨path, text, functions, trial⟩ := a
  simp only [Named] at named ⊢
  induction functions generalizing text with
  | nil => simp
  | cons name rest ih =>
      obtain ⟨first, others⟩ := List.forall_mem_cons.1 named
      rw [String.intercalate_cons_cons, String.append_assoc, String.toList_append,
        String.toList_append, show "\x00".toList = ['\x00'] from rfl, List.singleton_append,
        splitAtChar_append, ih name others, splitAtChar_of_not_mem first, List.map_cons,
        List.singleton_append]

/-- That the text of a unit takes up the text of another one and the first of its functions, with
zero characters between them, and the functions are the others. -/
def Absorbs (a b : SourceUnit) : Prop :=
  ∃ taken, b.functions = taken ++ a.functions ∧ a.text = "\x00".intercalate (b.text :: taken)

theorem absorbs_of_pieces {as : List (List Char)}
    (pieces : splitAtChar '\x00' b.text.toList = splitAtChar '\x00' a.text.toList ++ as)
    (functions : a.functions.map String.toList = as ++ b.functions.map String.toList) :
    b.Absorbs a := by
  obtain ⟨taken, rest, same, rfl, hrest⟩ := List.map_eq_append_iff.1 functions
  obtain rfl : rest = b.functions := (List.map_inj_right fun _ _ => String.toList_inj.1).1 hrest
  refine ⟨taken, same, String.toList_inj.1 ?_⟩
  have text := intercalate_splitAtChar '\x00' b.text.toList
  cases first : splitAtChar '\x00' a.text.toList with
  | nil => exact absurd first (splitAtChar_ne_nil _ _)
  | cons piece others =>
      rw [pieces, first, ← intercalate_intercalate, ← first, intercalate_splitAtChar] at text
      rw [← text, String.toList_intercalate]
      rfl

/-- What is digested tells two units apart, unless the text of one absorbs functions of the other. -/
theorem separated_eq_iff (ha : a.Named) (hb : b.Named) :
    separated (a.text :: a.functions) = separated (b.text :: b.functions) ↔
      a.Absorbs b ∨ b.Absorbs a := by
  rw [separated_inj]
  constructor
  · intro same
    have pieces := pieces_of_named ha
    rw [same, pieces_of_named hb] at pieces
    rcases List.append_eq_append_iff.1 pieces with ⟨as, text, functions⟩ | ⟨as, text, functions⟩
    · exact .inl (absorbs_of_pieces text functions)
    · exact .inr (absorbs_of_pieces text functions)
  · have joined {a b : SourceUnit} (absorbs : a.Absorbs b) :
        "\x00".intercalate (a.text :: a.functions) = "\x00".intercalate (b.text :: b.functions) := by
      obtain ⟨taken, functions, text⟩ := absorbs
      rw [functions, text, ← String.toList_inj]
      simp only [String.toList_intercalate, List.map_cons, List.map_append,
        intercalate_intercalate, List.cons_append]
    rintro (absorbs | absorbs)
    · exact joined absorbs
    · exact (joined absorbs).symm

theorem eq_of_absorbs (absorbs : a.Absorbs b) (none : '\x00' ∉ a.text.toList) :
    a.text = b.text ∧ a.functions = b.functions := by
  obtain ⟨taken, functions, text⟩ := absorbs
  cases taken with
  | nil => exact ⟨by simpa using text, functions.symm⟩
  | cons name others =>
      exfalso
      rw [text, String.intercalate_cons_cons] at none
      simp at none

/-! Names of units -/

def digest (unit : SourceUnit) : Digest := .ofTexts (unit.text :: unit.functions)

def plainStem (unit : SourceUnit) : List Char := unit.stem.toList.map plainChar

theorem toList_id (unit : SourceUnit) : unit.id.name.toList =
    (unit.plainStem ++ '-' :: unit.digest.abbreviation.toList) ++
      '-' :: 't' :: unit.trial.repr.toList := by
  simp [SourceUnit.id, toString, plainStem, digest]

def IsPlain (c : Char) : Prop := c.isAlphanum = true ∨ c = '_' ∨ c = '-'

theorem isPlain_plainChar (c : Char) : IsPlain (plainChar c) := by
  unfold plainChar
  split
  · next plain => simpa [IsPlain, or_assoc] using plain
  · exact .inr (.inl rfl)

/-- A digit of a digest is a letter or a digit. -/
theorem isAlphanum_of_mem_abbreviation {digest : Digest} {c : Char}
    (h : c ∈ digest.abbreviation.toList) : c.isAlphanum = true := by
  rw [Digest.abbreviation, String.toList_ofList, Digest.toHex, String.toList_ofList] at h
  obtain ⟨n, rfl⟩ := exists_of_mem_hexOf (List.mem_of_mem_take h)
  have all : ∀ n : Fin 16, (hexDigit n).isAlphanum = true := by decide
  exact all n

theorem isAlphanum_of_mem_repr {n : Nat} {c : Char} (h : c ∈ n.repr.toList) :
    c.isAlphanum = true := by
  simp [Char.isAlphanum, isDigit_of_mem_repr h]

theorem isPlain_of_mem_id {unit : SourceUnit} {c : Char} (h : c ∈ unit.id.name.toList) :
    IsPlain c := by
  rw [toList_id] at h
  simp only [List.mem_append, List.mem_cons, plainStem, List.mem_map] at h
  rcases h with (⟨other, -, rfl⟩ | rfl | digit) | rfl | rfl | digit
  · exact isPlain_plainChar other
  · exact .inr (.inr rfl)
  · exact .inl (isAlphanum_of_mem_abbreviation digit)
  · exact .inr (.inr rfl)
  · exact .inl rfl
  · exact .inl (isAlphanum_of_mem_repr digit)

/-- A unit is stored under a name that leads nowhere else. -/
theorem isName_id (unit : SourceUnit) : Path.IsName unit.id.name := by
  apply Path.isName_of_mem (c := '-')
  · intro c mem
    rcases isPlain_of_mem_id mem with plain | rfl | rfl
    · constructor <;> rintro rfl <;> cases plain
    · decide
    · decide
  · simp [toList_id]
  · decide

/-- Units have the same name exactly when they agree in its three parts. -/
theorem id_eq_iff : a.id = b.id ↔ a.plainStem = b.plainStem ∧
    a.digest.abbreviation = b.digest.abbreviation ∧ a.trial = b.trial := by
  have noDash {text : List Char} (plain : ∀ c ∈ text, c.isAlphanum = true) : '-' ∉ text :=
    fun mem => by cases plain _ mem
  have behind (unit : SourceUnit) : '-' ∉ 't' :: unit.trial.repr.toList := noDash fun c mem => by
    rcases List.mem_cons.1 mem with rfl | digit
    · rfl
    · exact isAlphanum_of_mem_repr digit
  have between (unit : SourceUnit) : '-' ∉ unit.digest.abbreviation.toList :=
    noDash fun c => isAlphanum_of_mem_abbreviation
  have name : a.id = b.id ↔ a.id.name.toList = b.id.name.toList := by
    rw [String.toList_inj]
    exact ⟨congrArg UnitId.name, fun same => congrArg UnitId.mk same⟩
  rw [name, toList_id, toList_id, append_cons_inj (behind a) (behind b),
    append_cons_inj (between a) (between b), String.toList_inj, and_assoc, List.cons_inj_right,
    String.toList_inj]
  refine and_congr_right fun _ => and_congr_right fun _ => ⟨repr_injective, congrArg _⟩

/-! Directories of units -/

theorem parts_directoryOf (unit : SourceUnit) (base : String) :
    Path.parts (Checkpoint.directoryOf base unit.id) = Path.parts base ++ [unit.id.name] :=
  FileTree.parts_join base unit.isName_id

theorem parts_candidates (unit : SourceUnit) (base : String) (ordinal : Nat) :
    Path.parts (CandidateFiles.directoryOf base unit.id ordinal) =
      Path.parts base ++ [unit.id.name, toString ordinal] := by
  have inner : Path.parts (Path.join base unit.id.name) = Path.parts base ++ [unit.id.name] :=
    FileTree.parts_join base unit.isName_id
  have name : Path.IsName (toString ordinal) := Path.isName_repr ordinal
  rw [CandidateFiles.directoryOf, FileTree.parts_join _ name, inner, List.append_assoc]
  rfl

/-- Nothing that a unit of another name stores is in the directory of a unit. -/
theorem apart_of_ne (differs : a.id ≠ b.id) (above below : List String) :
    ¬above ++ [a.id.name] <+: above ++ b.id.name :: below := by
  rw [List.prefix_append_right_inj, List.cons_prefix_cons]
  exact fun same => differs (congrArg UnitId.mk same.1)

/-- Units of one name have the same plain stem and the same trial, and the same bytes were digested
unless digests collide. These are the same exactly when the text of one unit absorbs functions of the
other; without zero characters in the texts, the texts and the functions are the same. A name is a
single part of a path, and the directories of units of different names lie apart. -/
theorem id_identifies
    (apart : a.digest.abbreviation = b.digest.abbreviation →
      separated (a.text :: a.functions) = separated (b.text :: b.functions)) :
    (a.id = b.id ↔ a.plainStem = b.plainStem ∧ a.trial = b.trial ∧
      separated (a.text :: a.functions) = separated (b.text :: b.functions)) ∧
    (a.Named → b.Named →
      (separated (a.text :: a.functions) = separated (b.text :: b.functions) ↔
        a.Absorbs b ∨ b.Absorbs a) ∧
      ('\x00' ∉ a.text.toList → '\x00' ∉ b.text.toList → a.id = b.id →
        a.text = b.text ∧ a.functions = b.functions)) ∧
    a.id.name ≠ "" ∧ (∀ c ∈ a.id.name.toList, IsPlain c) ∧
    (∀ base, Path.parts (Checkpoint.directoryOf base a.id) = Path.parts base ++ [a.id.name]) ∧
    (∀ base ordinal, Path.parts (CandidateFiles.directoryOf base a.id ordinal) =
      Path.parts base ++ [a.id.name, toString ordinal]) ∧
    (a.id ≠ b.id → ∀ base ordinal,
      ¬Path.parts (Checkpoint.directoryOf base a.id) <+:
        Path.parts (Checkpoint.directoryOf base b.id) ∧
      ¬Path.parts (Checkpoint.directoryOf base a.id) <+:
        Path.parts (CandidateFiles.directoryOf base b.id ordinal)) := by
  have digested : a.digest.abbreviation = b.digest.abbreviation ↔
      separated (a.text :: a.functions) = separated (b.text :: b.functions) :=
    ⟨apart, fun same => by simp only [digest, Digest.ofTexts, same]⟩
  have name : a.id = b.id ↔ a.plainStem = b.plainStem ∧ a.trial = b.trial ∧
      separated (a.text :: a.functions) = separated (b.text :: b.functions) := by
    rw [id_eq_iff, digested, and_comm (a := a.trial = b.trial)]
  refine ⟨name, fun ha hb => ⟨separated_eq_iff ha hb, fun texta textb same => ?_⟩,
    a.isName_id.nonempty, fun c => isPlain_of_mem_id, a.parts_directoryOf, a.parts_candidates,
    fun differs base ordinal => ?_⟩
  · rcases (separated_eq_iff ha hb).1 (name.1 same).2.2 with absorbs | absorbs
    · exact eq_of_absorbs absorbs texta
    · obtain ⟨text, functions⟩ := eq_of_absorbs absorbs textb
      exact ⟨text.symm, functions.symm⟩
  · rw [parts_directoryOf, parts_directoryOf, parts_candidates]
    exact ⟨apart_of_ne differs _ _, apart_of_ne differs _ _⟩

/-- A text of which the second of two functions is to be replaced, in a file of another directory and
with dots in its name. -/
theorem id_identifies_second_function :
    let a : SourceUnit := ⟨"my pair.v2.c", "int f(void) { return 1; }", ["f", "g"], 1⟩
    let b : SourceUnit := ⟨"other/my_pair_v2.c", "int f(void) { return 1; }", ["g"], 1⟩
    a.plainStem = b.plainStem ∧ a.trial = b.trial ∧
      separated (a.text :: a.functions) ≠ separated (b.text :: b.functions) ∧ a.id ≠ b.id := by
  intro a b
  have differs : a.digest.abbreviation ≠ b.digest.abbreviation := by decide +kernel
  have digested : separated (a.text :: a.functions) ≠ separated (b.text :: b.functions) := by decide
  have names := (@id_identifies a b fun same => absurd same differs).1
  exact ⟨by decide, rfl, digested, fun same => digested (names.1 same).2.2⟩

/-- A zero character and the name of the first function behind a text take the place of that function:
two units of different texts and different functions have one name, whatever digests do. -/
theorem id_not_apart :
    let text := "int f(void) { return 1; }\nint g(void) { return 2; }\n"
    let a : SourceUnit := ⟨"pair.c", text, ["f", "g"], 1⟩
    let b : SourceUnit := ⟨"pair.c", text ++ "\x00f", ["g"], 1⟩
    separated (a.text :: a.functions) = separated (b.text :: b.functions) ∧ a.id = b.id ∧
      a.text ≠ b.text ∧ a.functions ≠ b.functions := by
  intro text a b
  have digested : separated (a.text :: a.functions) = separated (b.text :: b.functions) := by decide
  have digest : a.digest = b.digest := congrArg Digest.compute digested
  exact ⟨digested, id_eq_iff.2 ⟨rfl, congrArg _ digest, rfl⟩, by decide, by decide⟩

end SourceUnit

end Graft
