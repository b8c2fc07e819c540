import Graft.Proofs.Compiler.Cache
import Graft.Proofs.Variant.Merging

/-!
What the file name of a variant tells. Between the number of the trial and the first dot behind it stands
a tag, with the window and the attempts but not their ordinals (`Variant.tag`). The selections that can be
merged have no gap, so the tag leaves no choice of the ordinals: no tag of a variant is the start of
another one's (`Variant.tag_append_inj`), and what begins with the name of a variant tells its selection
(`ComesFrom.fileName_append_inj`).
-/

namespace Graft

open Code Hash Text

namespace Text

/-- A separator that does not stand before itself cuts a text in one way. -/
theorem append_cons_inj_of_front {separator : Char} {before before' after after' : List Char}
    (h : separator ∉ before) (h' : separator ∉ before') :
    before ++ separator :: after = before' ++ separator :: after' ↔
      before = before' ∧ after = after' := by
  have backwards (front rest : List Char) :
      (front ++ separator :: rest).reverse = rest.reverse ++ separator :: front.reverse := by simp
  rw [← List.reverse_inj, backwards, backwards,
    append_cons_inj (by simpa using h) (by simpa using h'), List.reverse_inj, List.reverse_inj,
    and_comm]

/-- Pieces without the separator are told by what they are joined to. -/
theorem intercalate_inj {separator : Char} {pieces others : List (List Char)}
    (filled : pieces ≠ []) (none : ∀ piece ∈ pieces, separator ∉ piece)
    (filled' : others ≠ []) (none' : ∀ piece ∈ others, separator ∉ piece)
    (same : [separator].intercalate pieces = [separator].intercalate others) : pieces = others := by
  have split := congrArg (List.splitOn separator) same
  rwa [List.splitOn_intercalate _ none filled, List.splitOn_intercalate _ none' filled'] at split

/-- What pieces are joined to holds the separator and what the pieces hold. -/
theorem mem_of_mem_intercalate {separator c : Char} {pieces : List (List Char)}
    (member : c ∈ [separator].intercalate pieces) : c = separator ∨ ∃ piece ∈ pieces, c ∈ piece := by
  induction pieces with
  | nil => cases member
  | cons piece rest ih =>
      cases rest with
      | nil => exact .inr ⟨piece, List.mem_singleton_self piece, by simpa using member⟩
      | cons next others =>
          rw [List.intercalate_cons_cons, List.mem_append, List.mem_append, List.mem_singleton] at member
          obtain (here | rfl) | later := member
          · exact .inr ⟨piece, List.mem_cons_self, here⟩
          · exact .inl rfl
          · obtain same | ⟨other, listed, inside⟩ := ih later
            · exact .inl same
            · exact .inr ⟨other, List.mem_cons_of_mem _ listed, inside⟩

/-- A numeral holds nothing but digits. -/
theorem not_mem_repr {c : Char} (other : c.isDigit = false) (n : Nat) : c ∉ n.repr.toList := by
  intro member
  rw [isDigit_of_mem_repr member] at other
  cases other

theorem map_repr_injective {numbers others : List Nat}
    (same : numbers.map (·.repr.toList) = others.map (·.repr.toList)) : numbers = others := by
  refine List.map_injective_iff.2 (fun a b digits => ?_) same
  exact repr_injective (String.toList_inj.1 digits)

end Text

namespace Path

theorem slash_of_fileName? {path name : String} (found : fileName? path = some name) :
    '/' ∉ name.toList := by
  unfold fileName? at found
  split at found
  · cases found
  · cases found
  · next last =>
      obtain rfl := Option.some.inj found
      obtain ⟨listed, -⟩ := List.mem_filter.1 (List.mem_of_getLast? last)
      obtain ⟨piece, split, rfl⟩ := List.mem_map.1 listed
      simpa using not_mem_of_mem_splitAtChar split

/-- Cutting a name leaves nothing but what is in it. -/
theorem mem_of_mem_cutName {name : String} {c : Char} :
    (c ∈ (cutName name).1.toList → c ∈ name.toList) ∧
      ∀ extension, (cutName name).2 = some extension → c ∈ extension.toList → c ∈ name.toList := by
  unfold cutName
  split
  · next first before after cut =>
      refine ⟨fun member => ?_, ?_⟩
      · exact List.mem_of_mem_take (by simpa using member)
      · rintro extension same member
        obtain rfl := Option.some.inj same
        rw [(eq_append_of_cutLast? cut).1]
        exact List.mem_append_right _ (List.mem_cons_of_mem _ (by simpa using member))
  · exact ⟨id, nofun⟩

end Path

namespace SourceUnit

theorem slash_stem (unit : SourceUnit) : '/' ∉ unit.stem.toList := by
  unfold stem Path.stem?
  cases found : Path.fileName? unit.path with
  | none => decide
  | some name => exact fun member => Path.slash_of_fileName? found (Path.mem_of_mem_cutName.1 member)

theorem slash_extension (unit : SourceUnit) : '/' ∉ unit.extension.toList := by
  unfold extension Path.extension?
  cases found : Path.fileName? unit.path with
  | none => decide
  | some name =>
      rw [Option.bind_some]
      cases cut : (Path.cutName name).2 with
      | none => decide
      | some extension =>
          exact fun member => Path.slash_of_fileName? found (Path.mem_of_mem_cutName.2 _ cut member)

end SourceUnit

namespace OrdinalMap

/-- A map is determined by its keys and the values in their order. -/
theorem eq_of_keys_of_values {α : Type} {map other : OrdinalMap α} (keys : map.keys = other.keys)
    (values : map.values = other.values) : map = other := by
  have entries : map.entries = other.entries :=
    (List.zip_of_prod keys values).trans (List.zip_of_prod rfl rfl).symm
  cases map
  cases other
  congr

end OrdinalMap

namespace Variant

variable {unit : SourceUnit} {selection other : Selection} {variant first second : Variant}

def hyphened (attempts : List Nat) : List Char :=
  ['-'].intercalate (attempts.map (·.repr.toList))

/-- The texts between the underscores of a tag: the window, and the attempts if there are any. -/
def tagPieces (window : Nat) (attempts : List Nat) : List (List Char) :=
  window.repr.toList :: if attempts = [] then [] else ['a' :: hyphened attempts]

def tag (variant : Variant) : List Char :=
  ['_'].intercalate (tagPieces variant.window variant.provenance.values)

def nameFront (unit : SourceUnit) : List Char :=
  (unit.stem ++ "_" ++ unit.count.repr ++ "_trial_" ++ unit.trial.repr ++ "_merge_").toList

theorem toList_fileName (variant : Variant) (unit : SourceUnit) :
    (variant.fileName unit).toList = nameFront unit ++ variant.tag ++ '.' :: unit.extension.toList := by
  have joined (attempts : List Nat) :
      ("-".intercalate (attempts.map toString)).toList = hyphened attempts := by
    rw [String.toList_intercalate, List.map_map]
    rfl
  have empty : variant.provenance.isEmpty = decide (variant.provenance.values = []) := by
    rw [OrdinalMap.isEmpty, OrdinalMap.values]
    cases variant.provenance.entries <;> rfl
  have shown (text : String) : toString text = text := rfl
  simp only [fileName, tag, tagPieces, nameFront, empty, shown]
  by_cases none : variant.provenance.values = []
  · simp [none]
  · simp [none, joined, List.intercalate_cons_cons]

theorem mem_hyphened {attempts : List Nat} {c : Char} (member : c ∈ hyphened attempts) :
    c.isDigit = true ∨ c = '-' := by
  obtain separator | ⟨numeral, listed, inside⟩ := mem_of_mem_intercalate member
  · exact .inr separator
  · obtain ⟨attempt, -, rfl⟩ := List.mem_map.1 listed
    exact .inl (isDigit_of_mem_repr inside)

theorem mem_tagPieces {window : Nat} {attempts : List Nat} {piece : List Char} {c : Char}
    (listed : piece ∈ tagPieces window attempts) (member : c ∈ piece) :
    c.isDigit = true ∨ c = '-' ∨ c = 'a' := by
  rw [tagPieces, List.mem_cons] at listed
  obtain rfl | listed := listed
  · exact .inl (isDigit_of_mem_repr member)
  · split at listed
    · cases listed
    · obtain rfl := List.mem_singleton.1 listed
      obtain rfl | member := List.mem_cons.1 member
      · exact .inr (.inr rfl)
      · exact (mem_hyphened member).imp_right .inl

/-- A tag holds digits, hyphens, underscores and the letter in front of the attempts, and nothing else. -/
theorem not_mem_tag {c : Char} (digit : c.isDigit = false) (mark : c ∉ ['-', 'a', '_'])
    (variant : Variant) : c ∉ variant.tag := by
  intro member
  simp only [List.mem_cons, List.not_mem_nil, or_false, not_or] at mark
  obtain ⟨hyphen, letter, underscore⟩ := mark
  obtain separator | ⟨piece, listed, inside⟩ := mem_of_mem_intercalate member
  · exact underscore separator
  · obtain found | found | found := mem_tagPieces listed inside
    · rw [digit] at found
      cases found
    · exact hyphen found
    · exact letter found

theorem hyphened_inj {attempts others : List Nat} (filled : attempts ≠ []) (filled' : others ≠ [])
    (same : hyphened attempts = hyphened others) : attempts = others := by
  have plain (numbers : List Nat) :
      ∀ numeral ∈ numbers.map (·.repr.toList), '-' ∉ numeral := by
    intro numeral listed
    obtain ⟨n, -, rfl⟩ := List.mem_map.1 listed
    exact not_mem_repr (by decide) n
  apply map_repr_injective
  exact intercalate_inj (by simpa using filled) (plain attempts) (by simpa using filled')
    (plain others) same

/-- A tag tells the window and the attempts. -/
theorem tag_inj (same : first.tag = second.tag) :
    first.window = second.window ∧ first.provenance.values = second.provenance.values := by
  have plain (window : Nat) (attempts : List Nat) : ∀ piece ∈ tagPieces window attempts, '_' ∉ piece := by
    intro piece listed member
    obtain digit | hyphen | letter := mem_tagPieces listed member
    · exact absurd digit (by decide)
    · exact absurd hyphen (by decide)
    · exact absurd letter (by decide)
  have pieces := intercalate_inj (List.cons_ne_nil _ _) (plain _ _) (List.cons_ne_nil _ _) (plain _ _)
    same
  obtain ⟨windows, attempts⟩ := List.cons.inj pieces
  refine ⟨repr_injective (String.toList_inj.1 windows), ?_⟩
  by_cases none : first.provenance.values = []
  · by_cases none' : second.provenance.values = []
    · rw [none, none']
    · simp [none, none'] at attempts
  · by_cases none' : second.provenance.values = []
    · simp [none, none'] at attempts
    · simp only [none, none', if_false, List.cons.injEq, true_and, and_true] at attempts
      exact hyphened_inj none none' attempts

/-- No tag is the start of another one's, up to the dot behind it. -/
theorem tag_append_inj {rest behind : List Char}
    (same : first.tag ++ '.' :: rest = second.tag ++ '.' :: behind) :
    first.tag = second.tag ∧ rest = behind := by
  have plain : ∀ variant : Variant, '.' ∉ variant.tag := not_mem_tag (by decide) (by decide)
  exact (append_cons_inj_of_front (plain first) (plain second)).1 same

theorem slash_fileName (variant : Variant) (unit : SourceUnit) :
    '/' ∉ (variant.fileName unit).toList := by
  intro member
  rw [toList_fileName, List.mem_append, List.mem_append, List.mem_cons] at member
  obtain (front | inTag) | dot | extension := member
  · simp only [nameFront, String.toList_append, List.mem_append] at front
    obtain ((((stem | joint) | count) | joint) | trial) | joint := front
    · exact unit.slash_stem stem
    · exact absurd joint (by decide)
    · exact not_mem_repr (by decide) unit.count count
    · exact absurd joint (by decide)
    · exact not_mem_repr (by decide) unit.trial trial
    · exact absurd joint (by decide)
  · exact not_mem_tag (by decide) (by decide) variant inTag
  · exact absurd dot (by decide)
  · exact unit.slash_extension extension

theorem isName_fileName {variant : Variant} {unit : SourceUnit}
    (zero : '\x00' ∉ (variant.fileName unit).toList) : Path.IsName (variant.fileName unit) := by
  apply Path.isName_of_mem (c := '_')
  · intro c member
    constructor
    · rintro rfl
      exact slash_fileName variant unit member
    · rintro rfl
      exact zero member
  · simp [toList_fileName, nameFront]
  · decide

/-! Variants that selections make -/

/-- How a variant of a unit comes about from a selection: it is merged from the candidates of a store,
or nothing is selected and it is the unit's own text. -/
inductive ComesFrom (unit : SourceUnit) : Selection → Variant → Prop
  | merged {σ : Type} {store : CandidateStore σ} {content : σ} {spans : List Span}
      {selection : Selection} {variant : Variant}
      (made : merge store content unit spans selection = .ok variant) :
      ComesFrom unit selection variant
  | unchanged : ComesFrom unit ∅ (unchanged unit)

namespace ComesFrom

/-- A variant names the attempts that it is made of, and these have the ordinals from one up to its
window. -/
theorem contiguous (h : ComesFrom unit selection variant) :
    variant.provenance = selection ∧ OrdinalMap.keys selection = List.range' 1 variant.window := by
  cases h with
  | unchanged => exact ⟨rfl, rfl⟩
  | @merged _ store content spans _ _ made =>
      obtain ⟨result, comes⟩ := exists_comesTo store content unit spans selection
      have same := made.symm.trans (eq_of_comesTo comes)
      cases comes with
      | woven fits selected within holds woven =>
          obtain rfl := Except.ok.inj same
          exact ⟨rfl, selected⟩
      | _ => cases same

theorem tag_inj (h : ComesFrom unit selection first) (h' : ComesFrom unit other second)
    (same : first.tag = second.tag) : selection = other := by
  obtain ⟨rfl, keys⟩ := h.contiguous
  obtain ⟨rfl, keys'⟩ := h'.contiguous
  obtain ⟨window, values⟩ := Variant.tag_inj same
  refine OrdinalMap.eq_of_keys_of_values ?_ values
  rw [keys, keys', window]

/-- What begins with the name of a variant tells its selection. -/
theorem fileName_append_inj (h : ComesFrom unit selection first) (h' : ComesFrom unit other second)
    {rest behind : List Char}
    (same : (first.fileName unit).toList ++ rest = (second.fileName unit).toList ++ behind) :
    selection = other ∧ rest = behind := by
  simp only [toList_fileName, List.append_assoc, List.cons_append] at same
  obtain ⟨tags, ends⟩ := tag_append_inj (List.append_cancel_left same)
  exact ⟨h.tag_inj h' tags, List.append_cancel_left ends⟩

theorem fileName_inj (h : ComesFrom unit selection first) (h' : ComesFrom unit other second) :
    first.fileName unit = second.fileName unit ↔ selection = other := by
  constructor
  · intro same
    have chars := congrArg (String.toList · ++ []) same
    exact (h.fileName_append_inj h' chars).1
  · rintro rfl
    obtain ⟨named, keys⟩ := h.contiguous
    obtain ⟨named', keys'⟩ := h'.contiguous
    have windows : first.window = second.window := by
      simpa using congrArg List.length (keys.symm.trans keys')
    rw [fileName, fileName, named, named', windows]

/-- The key under which the result for a variant is kept tells its selection and its text, unless
digests collide. -/
theorem key_inj (h : ComesFrom unit selection first) (h' : ComesFrom unit other second)
    {cache : Compiler.CompileCache}
    (apart : cache.key (first.fileName unit) first.text = cache.key (second.fileName unit) second.text →
      Digest.separated [cache.fingerprint, first.fileName unit, first.text] =
        Digest.separated [cache.fingerprint, second.fileName unit, second.text])
    (same : cache.key (first.fileName unit) first.text =
      cache.key (second.fileName unit) second.text) :
    selection = other ∧ first.text = second.text := by
  have whole := Digest.separated_inj.1 (apart same)
  simp only [String.intercalate_cons_cons, String.intercalate_singleton, String.append_assoc,
    String.append_right_inj] at whole
  have chars := congrArg String.toList whole
  simp only [String.toList_append] at chars
  obtain ⟨selected, texts⟩ := h.fileName_append_inj h' chars
  exact ⟨selected, String.toList_inj.1 (List.append_cancel_left texts)⟩

end ComesFrom

end Variant

end Graft
