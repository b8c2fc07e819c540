/-!
Places in a text. Offsets and columns count bytes of UTF-8, lines and columns start at 1, and a
place is carried along by walking over characters: `advance_append` says that walking over two
stretches is walking over their concatenation. All of them are numbers without a bound, which have 32
bits in a text of less than four gibibytes (`Code.numbers_fit`). `cut?` takes a text apart at a byte offset, and
answers nothing inside a character.
-/

namespace Graft.Text

def byteLength : List Char → Nat
  | [] => 0
  | c :: rest => c.utf8Size + byteLength rest

@[simp] theorem byteLength_nil : byteLength [] = 0 := rfl

@[simp] theorem byteLength_cons (c : Char) (rest : List Char) :
    byteLength (c :: rest) = c.utf8Size + byteLength rest := rfl

@[simp] theorem byteLength_append (first second : List Char) :
    byteLength (first ++ second) = byteLength first + byteLength second := by
  induction first with
  | nil => simp
  | cons c rest ih => simp [ih, Nat.add_assoc]

/-- The characters before and after a byte offset; nothing when the offset lies inside a character
or beyond the end. -/
def cut? : List Char → Nat → Option (List Char × List Char)
  | rest, 0 => some ([], rest)
  | [], _ + 1 => none
  | c :: rest, offset + 1 =>
      if offset + 1 < c.utf8Size then none
      else (cut? rest (offset + 1 - c.utf8Size)).map fun (before, after) => (c :: before, after)

/-- What `cut?` takes apart, it takes apart without loss and at the offset asked for. -/
theorem eq_append_of_cut? {text before after : List Char} {offset : Nat}
    (h : cut? text offset = some (before, after)) :
    text = before ++ after ∧ byteLength before = offset := by
  fun_induction cut? text offset generalizing before after with
  | case1 rest => simp_all
  | case2 => simp at h
  | case3 => simp at h
  | case4 c rest offset large ih =>
      obtain ⟨⟨first, second⟩, hcut, heq⟩ := Option.map_eq_some_iff.1 h
      simp only [Prod.mk.injEq] at heq
      obtain ⟨rfl, rfl⟩ := heq
      obtain ⟨hrest, hlen⟩ := ih hcut
      refine ⟨by simp [hrest], ?_⟩
      rw [byteLength_cons, hlen]
      omega

/-- The characters between two byte offsets; nothing when they come in the wrong order or one of
them lies inside a character. -/
def slice? (text : List Char) (start stop : Nat) : Option (List Char) := do
  if stop < start then none
  let (_, rest) ← cut? text start
  let (found, _) ← cut? rest (stop - start)
  return found

/-- Whether a byte offset lies between two characters of the text, or at one of its ends. -/
def isBoundary (text : List Char) (offset : Nat) : Bool :=
  (cut? text offset).isSome

/-- A place in a text: the byte offset, and the line and column that a reader counts. -/
structure Place where
  offset : Nat
  line : Nat
  column : Nat
  deriving Repr, DecidableEq, Inhabited

namespace Place

def origin : Place := ⟨0, 1, 1⟩

def step (place : Place) (c : Char) : Place :=
  if c = '\n' then ⟨place.offset + 1, place.line + 1, 1⟩
  else ⟨place.offset + c.utf8Size, place.line, place.column + c.utf8Size⟩

def advance (place : Place) (passed : List Char) : Place :=
  passed.foldl step place

@[simp] theorem advance_nil (place : Place) : place.advance [] = place := rfl

@[simp] theorem advance_cons (place : Place) (c : Char) (rest : List Char) :
    place.advance (c :: rest) = (place.step c).advance rest := rfl

theorem advance_append (place : Place) (first second : List Char) :
    place.advance (first ++ second) = (place.advance first).advance second := by
  simp [advance]

theorem offset_step (place : Place) (c : Char) :
    (place.step c).offset = place.offset + c.utf8Size := by
  unfold step
  split
  · next h => subst h; rfl
  · rfl

theorem line_step (place : Place) (c : Char) :
    (place.step c).line = place.line + if c = '\n' then 1 else 0 := by
  unfold step
  split <;> rfl

theorem offset_advance (place : Place) (passed : List Char) :
    (place.advance passed).offset = place.offset + byteLength passed := by
  induction passed generalizing place with
  | nil => simp
  | cons c rest ih => simp [ih, offset_step, Nat.add_assoc]

/-- Walking over a stretch passes as many lines as there are line ends in it. -/
theorem line_advance (place : Place) (passed : List Char) :
    (place.advance passed).line = place.line + passed.count '\n' := by
  induction passed generalizing place with
  | nil => simp
  | cons c rest ih =>
      rw [advance_cons, ih, line_step, List.count_cons]
      simp only [beq_iff_eq]
      omega

end Place

/-- The place that a byte offset stands for; the end of the text for an offset past it, and the
start of the character for one inside a character. -/
def placeAt (text : List Char) (offset : Nat) : Place :=
  go .origin text
where
  go (place : Place) : List Char → Place
    | [] => place
    | c :: rest =>
        if place.offset + c.utf8Size ≤ offset then go (place.step c) rest else place

end Graft.Text
