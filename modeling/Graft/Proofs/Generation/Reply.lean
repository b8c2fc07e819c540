import Graft.Generation.Reply
import Graft.Proofs.Text.Search
import Graft.Proofs.Text.Trim

/-!
The code taken out of a reply. Backticks in front of a fence may make it begin earlier, but not on another
line (`find?_fence`), so the block is what stands behind the first line feed; its code ends at the next fence,
or with the reply. Trimming the reply, the block and its end leaves a code that is `Fenceable` as it is. The
main statement is `extractCode_recovers`.
-/

namespace Graft.Generation

open Graft.Text

/-- That a code can be told from the block that it stands in. -/
structure Fenceable (code : List Char) : Prop where
  unfenced : ¬fence <:+: code
  start : code.head? ≠ some '\n'
  visible : ∃ c ∈ code, isBlank c = false
  solid : ∀ c ∈ code.getLast?, isBlank c = false

variable {front info code body block rest blanks : List Char} {reply : String} {c : Char}

theorem Fenceable.exists_last (fenceable : Fenceable code) :
    ∃ init last, code = init ++ [last] ∧ isBlank last = false := by
  obtain ⟨c, mem, -⟩ := fenceable.visible
  rcases List.eq_nil_or_concat' code with rfl | ⟨init, last, rfl⟩
  · cases mem
  · exact ⟨init, last, rfl, fenceable.solid last (by simp)⟩

/-! Fences -/

theorem not_mem_fence (other : c ≠ '`') : c ∉ fence := by
  simp [fence, other]

/-- Two backticks behind another character make no fence. -/
theorem not_infix_append_dropLast (unfenced : ¬fence <:+: front) (other : c ≠ '`') :
    ¬fence <:+: front ++ [c] ++ fence.dropLast := by
  intro inside
  rw [List.append_assoc, List.singleton_append] at inside
  rcases infix_of_infix_append_cons (not_mem_fence other) inside with early | late
  · exact unfenced early
  · exact absurd late.length_le (by decide)

/-- The first fence is found where it stands, or some backticks earlier. -/
theorem find?_fence (unfenced : ¬fence <:+: front) (rest : List Char) :
    ∃ stem ticks, '\n' ∉ ticks ∧
      find? fence (front ++ fence ++ rest) = some (stem, ticks ++ rest) := by
  obtain ⟨ticks, parts, all⟩ := exists_dropEndWhile_append (· == '`') front
  have ends : ∀ c ∈ (dropEndWhile (· == '`') front).getLast?, (c == '`') = false :=
    fun c => @solid_of_getLast?_dropEndWhile (· == '`') c front
  generalize dropEndWhile (· == '`') front = stem at parts ends
  have moved : ticks ++ fence = fence ++ ticks := by
    have three : fence = List.replicate 3 '`' := rfl
    have same : ∀ c ∈ ticks, c = '`' := fun c mem => beq_iff_eq.1 (all c mem)
    rw [List.eq_replicate_of_mem same, three, List.replicate_append_replicate,
      List.replicate_append_replicate, Nat.add_comm]
  have first : ¬fence <:+: stem ++ fence.dropLast := by
    rcases List.eq_nil_or_concat' stem with rfl | ⟨init, last, rfl⟩
    · decide
    · have other : last ≠ '`' := beq_eq_false_iff_ne.1 (ends last (by simp))
      have within : init <:+: front := ⟨[], last :: ticks, by simp [← parts]⟩
      exact not_infix_append_dropLast (fun inside => unfenced (inside.trans within)) other
  have text : front ++ fence ++ rest = stem ++ fence ++ (ticks ++ rest) := by
    rw [← parts, List.append_assoc stem, moved, List.append_assoc, List.append_assoc,
      List.append_assoc]
  refine ⟨stem, ticks, fun mem => absurd (all _ mem) (by decide), ?_⟩
  rw [text, find?_append first]

/-! Blocks -/

theorem blockBody_append (onOneLine : '\n' ∉ info) (body : List Char) :
    blockBody (info ++ '\n' :: body) =
      match find? fence body with
      | some (code, _) => code
      | none => body := by
  rewrite [blockBody, cutFirst?_append onOneLine]
  rfl

/-- A code with a line feed and a fence behind it is the body of its block. -/
theorem blockBody_of_closed (onOneLine : '\n' ∉ info) (unfenced : ¬fence <:+: code) (rest : List Char) :
    blockBody (info ++ '\n' :: (code ++ ['\n'] ++ fence ++ rest)) = code ++ ['\n'] := by
  have first := not_infix_append_dropLast unfenced (by decide : '\n' ≠ '`')
  rw [blockBody_append onOneLine, find?_append first]

/-- A code without a fence behind it is the body of its block. -/
theorem blockBody_of_open (onOneLine : '\n' ∉ info) (unfenced : ¬fence <:+: code) :
    blockBody (info ++ '\n' :: code) = code := by
  rw [blockBody_append onOneLine, find?_eq_none_iff.2 unfenced]

/-- The line feeds behind a code are not part of it. -/
theorem blockCode_append (fenceable : Fenceable code) {feeds : List Char} (all : ∀ c ∈ feeds, c = '\n') :
    blockCode (code ++ feeds) = code := by
  have solid : dropEndWhile isBlank code = code := dropEndWhile_of_getLast? fenceable.solid
  obtain ⟨init, last, rfl, visible⟩ := fenceable.exists_last
  have start : (init ++ [last] ++ feeds).dropWhile (· == '\n') = init ++ [last] ++ feeds := by
    apply dropWhile_of_head?
    intro c head
    rw [beq_eq_false_iff_ne]
    rintro rfl
    rw [List.head?_append_of_ne_nil _ (by simp)] at head
    exact fenceable.start head
  have other : (last == '\n') = false := by
    rw [beq_eq_false_iff_ne]
    rintro rfl
    cases visible
  have gone : dropEndWhile (· == '\n') feeds = [] :=
    dropEndWhile_of_all fun c mem => beq_iff_eq.2 (all c mem)
  rw [blockCode, trimWhile, start, List.append_assoc, List.singleton_append,
    @dropEndWhile_append_cons (· == '\n') last other, gone, solid]

/-! Replies -/

/-- Trimming a reply with a fence leaves the fence alone. -/
theorem trim_fenced (front block : List Char) : trim (front ++ fence ++ block) =
    front.dropWhile isBlank ++ fence ++ dropEndWhile isBlank block := by
  have tick : isBlank '`' = false := by decide
  have text : front ++ fence ++ block = front ++ '`' :: ('`' :: '`' :: block) := by
    simp [fence]
  have trimmed : front.dropWhile isBlank ++ '`' :: ('`' :: '`' :: block) =
      front.dropWhile isBlank ++ ['`', '`'] ++ '`' :: block := by
    simp
  rw [trim, trimWhile, text, dropWhile_append_cons tick, trimmed, dropEndWhile_append_cons tick]
  simp [fence]

/-- The code of a reply with a fence is that of the block behind it. -/
theorem extractCode_fenced (unfenced : ¬fence <:+: front) (fenceable : Fenceable code)
    (recovers : ∀ ticks, '\n' ∉ ticks →
      blockCode (blockBody (ticks ++ dropEndWhile isBlank block)) = code) :
    extractCode (String.ofList (front ++ fence ++ block)) = some (String.ofList code) := by
  have none : ¬fence <:+: front.dropWhile isBlank := fun inside =>
    unfenced (inside.trans (List.dropWhile_suffix isBlank).isInfix)
  obtain ⟨stem, ticks, onOneLine, found⟩ := find?_fence none (dropEndWhile isBlank block)
  have visible : code.all isBlank = false := by
    simpa using fenceable.visible
  rw [extractCode, String.toList_ofList, trim_fenced, found]
  simp only [recovers ticks onOneLine, visible, Bool.false_eq_true, if_false]

/-- The code of a reply without a fence is the reply. -/
theorem extractCode_of_unfenced (unfenced : ¬fence <:+: reply.toList) :
    extractCode reply = if isBlankText reply then none else some (trimmed reply) := by
  have absent : ¬fence <:+: trim reply.toList := fun inside =>
    unfenced (inside.trans (infix_trim reply.toList))
  rw [extractCode, find?_eq_none_iff.2 absent]
  simp only [all_trim]
  rfl

/-- The code of a reply can be seen, and there is no white space at its end. -/
theorem solid_of_extractCode {code : String} (taken : extractCode reply = some code) :
    isBlankText code = false ∧ ∀ c ∈ code.toList.getLast?, isBlank c = false := by
  have trimmed (text : List Char) (taken : (if (dropEndWhile isBlank text).all isBlank then none
      else some (String.ofList (dropEndWhile isBlank text))) = some code) :
      isBlankText code = false ∧ ∀ c ∈ code.toList.getLast?, isBlank c = false := by
    obtain ⟨visible, same⟩ := Option.ite_none_left_eq_some.1 taken
    obtain rfl := Option.some.inj same
    rw [isBlankText, String.toList_ofList]
    exact ⟨Bool.eq_false_iff.2 visible, fun c => solid_of_getLast?_dropEndWhile⟩
  rw [extractCode] at taken
  cases found : find? fence (trim reply.toList) with
  | none =>
      rw [found] at taken
      exact trimmed _ taken
  | some parts =>
      rw [found] at taken
      exact trimmed _ taken

/-- The code of a fenced block is recovered as it is, whatever stands in front of the block, on its first line
and behind it, also when the block is not closed. A reply without a fence is its own code, unless it is blank.
And no code is blank or has white space at its end. -/
theorem extractCode_recovers :
    (∀ front info code rest, ¬fence <:+: front → '\n' ∉ info → Fenceable code →
      extractCode (String.ofList
        (front ++ fence ++ (info ++ '\n' :: (code ++ ['\n'] ++ fence ++ rest)))) =
          some (String.ofList code)) ∧
      (∀ front info code blanks, ¬fence <:+: front → '\n' ∉ info → Fenceable code →
        (∀ c ∈ blanks, isBlank c = true) →
          extractCode (String.ofList (front ++ fence ++ (info ++ '\n' :: (code ++ blanks)))) =
            some (String.ofList code)) ∧
      (∀ reply : String, ¬fence <:+: reply.toList →
        extractCode reply = if isBlankText reply then none else some (trimmed reply)) ∧
      ∀ reply code, extractCode reply = some code →
        isBlankText code = false ∧ ∀ c ∈ code.toList.getLast?, isBlank c = false := by
  refine ⟨?_, ?_, fun reply => extractCode_of_unfenced, fun reply code => solid_of_extractCode⟩
  · intro front info code rest unfenced onOneLine fenceable
    apply extractCode_fenced unfenced fenceable
    intro ticks sameLine
    have trimmed : dropEndWhile isBlank (info ++ '\n' :: (code ++ ['\n'] ++ fence ++ rest)) =
        info ++ '\n' :: (code ++ ['\n'] ++ fence ++ dropEndWhile isBlank rest) := by
      have closed : info ++ '\n' :: (code ++ ['\n'] ++ fence ++ rest) =
          (info ++ '\n' :: (code ++ ['\n'] ++ fence.dropLast)) ++ '`' :: rest := by
        simp [fence]
      rw [closed, dropEndWhile_append_cons (by decide)]
      simp [fence]
    have first : '\n' ∉ ticks ++ info := by
      simp [sameLine, onOneLine]
    rw [trimmed, ← List.append_assoc, blockBody_of_closed first fenceable.unfenced,
      blockCode_append fenceable (by simp)]
  · intro front info code blanks unfenced onOneLine fenceable blank
    apply extractCode_fenced unfenced fenceable
    intro ticks sameLine
    have trimmed : dropEndWhile isBlank (info ++ '\n' :: (code ++ blanks)) = info ++ '\n' :: code := by
      obtain ⟨init, last, rfl, visible⟩ := fenceable.exists_last
      have ends : info ++ '\n' :: (init ++ [last] ++ blanks) =
          (info ++ '\n' :: init) ++ last :: blanks := by
        simp
      rw [ends, dropEndWhile_append_cons visible, dropEndWhile_of_all blank]
      simp
    have first : '\n' ∉ ticks ++ info := by
      simp [sameLine, onOneLine]
    rw [trimmed, ← List.append_assoc, blockBody_of_open first fenceable.unfenced]
    have recovered := blockCode_append fenceable (List.forall_mem_nil _)
    rwa [List.append_nil] at recovered

/-- A code that is indented and ends in backticks, between fences with backticks on both sides, and in a block
that is not closed. -/
theorem extractCode_between_backticks :
    let front := "So``".toList
    let info := "`c".toList
    let code := "  f``".toList
    (¬fence <:+: front ∧ '\n' ∉ info ∧ Fenceable code) ∧
      extractCode (String.ofList
        (front ++ fence ++ (info ++ '\n' :: (code ++ ['\n'] ++ fence ++ "` ".toList)))) =
          some (String.ofList code) ∧
      extractCode (String.ofList (front ++ fence ++ (info ++ '\n' :: (code ++ "\n ".toList)))) =
        some (String.ofList code) := by
  intro front info code
  have unfenced : ¬fence <:+: front := by decide
  have onOneLine : '\n' ∉ info := by decide
  have fenceable : Fenceable code := {
    unfenced := by decide
    start := by decide
    visible := ⟨'f', by decide, by decide⟩
    solid := by rintro c ⟨⟩; rfl }
  have blank : ∀ c ∈ "\n ".toList, isBlank c = true := List.all_eq_true.1 rfl
  obtain ⟨closed, unclosed, -, -⟩ := extractCode_recovers
  exact ⟨⟨unfenced, onOneLine, fenceable⟩,
    closed front info code "` ".toList unfenced onOneLine fenceable,
    unclosed front info code "\n ".toList unfenced onOneLine fenceable blank⟩

end Graft.Generation
