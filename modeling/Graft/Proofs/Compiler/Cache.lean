import Graft.Compiler.Cache
import Graft.Proofs.Files.Step
import Graft.Proofs.Identity
import Graft.Proofs.Json.Decoder

/-!
Results of compilations in the files of a cache. A result that was kept reads back as it was
(`CompileResult.read_compact`); what is found under a key is read off one node (`CompileCache.At.get?_eq`),
and keeping a result changes that node alone (`CompileCache.At.put`). Keys of files are the same only
for the same name and text, unless digests collide (`CompileCache.key_inj`).
-/

namespace Graft

open Text

namespace Json

/-- Whole numbers are read as they are printed. -/
theorem numeral?_ofInt {n : Int} (h : n.natAbs ≤ maxUnsigned 64) {rest : List Char}
    (closes : Closes rest) :
    numeral? ((Numeral.ofInt n).render.toList ++ rest) = some (.ofInt n, rest) := by
  by_cases negative : n < 0
  · have printed : (Numeral.ofInt n).render.toList = '-' :: n.natAbs.repr.toList := by
      simp [Numeral.ofInt, Numeral.render, negative]
    rw [printed, List.cons_append, numeral?_minus h (by omega) closes]
    simp [Numeral.ofInt, negative]
  · have printed : (Numeral.ofInt n).render.toList = n.natAbs.repr.toList := by
      simp [Numeral.ofInt, Numeral.render, negative]
    rw [printed, numeral?_repr h closes]
    simp [Numeral.ofInt, Numeral.ofNat, negative]

theorem i32_int {n : Int} (low : -(Nat.pow 2 31 : Int) ≤ n) (high : n < (Nat.pow 2 31 : Int)) :
    Decoder.i32 (int n) = some n := by
  have value : (if decide (n < 0) = true then -(n.natAbs : Int) else n.natAbs) = n := by
    split
    · next negative =>
        have negative := of_decide_eq_true negative
        omega
    · next positive =>
        have positive : ¬ n < 0 := fun negative => positive (decide_eq_true negative)
        omega
  simp only [Decoder.i32, int, Numeral.ofInt, value]
  simp_all

/-- What starts like a number is read as one. -/
theorem value?_number {c : Char} {text rest : List Char} {numeral : Numeral}
    (start : c = '-' ∨ c.isDigit = true) (found : numeral? (c :: text) = some (numeral, rest))
    (fuel room : Nat) : value? (fuel + 1) room (c :: text) = some (.number numeral, rest) := by
  have differs : ∀ other : Char, other ≠ '-' → other.isDigit = false → c ≠ other := by
    rintro other sign digit rfl
    rcases start with rfl | isDigit
    · exact sign rfl
    · rw [digit] at isDigit
      cases isDigit
  have visible : isSpace c = false := by
    have all : ∀ other ∈ [' ', '\t', '\n', '\r'], c ≠ other := by
      simp only [List.forall_mem_cons]
      exact ⟨differs _ (by decide) rfl, differs _ (by decide) rfl, differs _ (by decide) rfl,
        differs _ (by decide) rfl, by simp⟩
    simp only [List.forall_mem_cons] at all
    simp [isSpace, all.1, all.2.1, all.2.2.1, all.2.2.2.1]
  have skipped : skipSpace (c :: text) = c :: text :=
    List.dropWhile_cons_of_neg (by simp [visible])
  simp only [value?, skipped]
  split
  case h_7 =>
    rw [found]
    rfl
  all_goals
    next start => exact absurd (List.cons.inj start).1 (differs _ (by decide) rfl)

theorem value?_int {n : Int} (h : n.natAbs ≤ maxUnsigned 64) {rest : List Char}
    (closes : Closes rest) (fuel room : Nat) :
    value? (fuel + 1) room ((Numeral.ofInt n).render.toList ++ rest) = some (int n, rest) := by
  have found := numeral?_ofInt h closes
  obtain ⟨c, digits, same, isDigit, -⟩ := exists_toList_repr n.natAbs
  by_cases negative : n < 0
  · have printed : (Numeral.ofInt n).render.toList = '-' :: n.natAbs.repr.toList := by
      simp [Numeral.ofInt, Numeral.render, negative]
    rw [printed, List.cons_append] at found ⊢
    exact value?_number (.inl rfl) found fuel room
  · have printed : (Numeral.ofInt n).render.toList = c :: digits := by
      simp [Numeral.ofInt, Numeral.render, negative, same]
    rw [printed, List.cons_append] at found ⊢
    exact value?_number (.inr isDigit) found fuel room

end Json

namespace Compiler

open Json Hash

def CompileResult.InRange (result : CompileResult) : Prop :=
  -(Nat.pow 2 31 : Int) ≤ result.exitCode ∧ result.exitCode < (Nat.pow 2 31 : Int)

theorem CompileResult.toList_compact (result : CompileResult) :
    result.toJson.compact.toList = '\x7b' :: '"' :: ("exit_code".toList.flatMap escaped ++
      '"' :: ':' :: ((Numeral.ofInt result.exitCode).render.toList ++
        ',' :: '"' :: ("output".toList.flatMap escaped ++
          '"' :: ':' :: '"' :: (result.output.toList.flatMap escaped ++ '"' :: ['\x7d'])))) := by
  have whole : result.toJson.compact = "\x7b" ++ ",".intercalate
      [quote "exit_code" ++ ":" ++ (Numeral.ofInt result.exitCode).render,
        quote "output" ++ ":" ++ quote result.output] ++ "\x7d" := rfl
  simp [whole, toList_quote]

/-- What a result is kept as is read as the object that it was printed from. -/
theorem CompileResult.read?_compact {result : CompileResult} (h : result.InRange) :
    read? result.toJson.compact = some result.toJson := by
  have small : result.exitCode.natAbs ≤ maxUnsigned 64 := by
    have bound : (Nat.pow 2 31 : Int) = 2147483648 := by decide
    have wide : maxUnsigned 64 = 18446744073709551615 := by decide
    have low := h.1
    have high := h.2
    omega
  have text := result.toList_compact
  -- enough rounds for the object, its members and their values
  obtain ⟨fuel, room⟩ : ∃ fuel, result.toJson.compact.toList.length + 1 = fuel + 5 := by
    rw [text]
    exact ⟨_, rfl⟩
  have brace : ∀ text, skipSpace ('\x7b' :: text) = '\x7b' :: text := fun _ => rfl
  have quoted : ∀ text, skipSpace ('"' :: text) = '"' :: text := fun _ => rfl
  have colon : ∀ text, skipSpace (':' :: text) = ':' :: text := fun _ => rfl
  have comma : ∀ text, skipSpace (',' :: text) = ',' :: text := fun _ => rfl
  have code (text : List Char) : value? (fuel + 3) 126
      ((Numeral.ofInt result.exitCode).render.toList ++ ',' :: text) =
        some (int result.exitCode, ',' :: text) :=
    value?_int small (closes_cons (.inl rfl)) (fuel + 2) 126
  have output : members? (fuel + 3) 126 ('"' :: ("output".toList.flatMap escaped ++
      '"' :: ':' :: '"' :: (result.output.toList.flatMap escaped ++ '"' :: ['\x7d']))) =
        some ([("output", .string result.output)], []) := by
    simp only [members?, value?, quoted, colon, string?_escaped, Option.bind_eq_bind,
      Option.bind_some]
    rfl
  have members : members? (fuel + 4) 126 ('"' :: ("exit_code".toList.flatMap escaped ++
      '"' :: ':' :: ((Numeral.ofInt result.exitCode).render.toList ++
        ',' :: '"' :: ("output".toList.flatMap escaped ++
          '"' :: ':' :: '"' :: (result.output.toList.flatMap escaped ++ '"' :: ['\x7d']))))) =
        some ([("exit_code", int result.exitCode), ("output", .string result.output)], []) := by
    rw [members?]
    simp only [quoted, colon, comma, string?_escaped, code, output, Option.bind_eq_bind,
      Option.bind_some]
    rfl
  have found : value? (fuel + 5) 127 result.toJson.compact.toList = some (result.toJson, []) := by
    have nested : (127 : Nat) ≠ 0 := by decide
    rw [text, value?, brace]
    simp only [quoted, nested, ↓reduceIte, Nat.reduceSub]
    split
    · next other => exact absurd (List.cons.inj other).1 (by decide)
    · rw [members]
      rfl
  unfold read?
  simp only [room, maxDepth, found, Option.bind_eq_bind, Option.bind_some]
  rfl

theorem CompileResult.decode_toJson {result : CompileResult} (h : result.InRange) :
    CompileResult.decode result.toJson = some result := by
  have decoded := i32_int h.1 h.2
  unfold CompileResult.decode
  apply record_object
  rw [required_bind rfl decoded, required_bind rfl (string_string _)]
  rfl

/-- A result reads back from what it is kept as. -/
theorem CompileResult.read_compact {result : CompileResult} (h : result.InRange) :
    (read? result.toJson.compact).bind CompileResult.decode = some result := by
  rw [CompileResult.read?_compact h, Option.bind_some, CompileResult.decode_toJson h]

def entryOf (node : Option FileNode) : Option CompileResult := do
  let text ← (FileTree.textOf node).toOption
  CompileResult.decode (← read? text)

namespace CompileCache

variable {cache : CompileCache} {place : Location} {tree after : FileTree} {key other : Digest}
  {result : CompileResult}

theorem isName_entryName (key : Digest) : Path.IsName (entryName key) := by
  have whole : (entryName key).toList = hexOf key.bytes.toList ++ ['.', 'j', 's', 'o', 'n'] := by
    simp [entryName, Digest.toHex]
  apply Path.isName_of_mem (c := 'j')
  · intro c mem
    rw [whole, List.mem_append] at mem
    rcases mem with digit | ending
    · obtain ⟨n, rfl⟩ := exists_of_mem_hexOf digit
      have all : ∀ n : Fin 16, hexDigit n ≠ '/' ∧ hexDigit n ≠ '\x00' := by decide
      exact all n
    · simp only [List.mem_cons, List.not_mem_nil, or_false] at ending
      rcases ending with rfl | rfl | rfl | rfl | rfl <;> decide
  · simp [whole]
  · decide

theorem entryName_inj : entryName key = entryName other ↔ key = other := by
  refine ⟨fun same => Digest.toHex_injective ?_, fun same => same ▸ rfl⟩
  exact String.append_left_inj _ |>.1 same

theorem entryName_ne (key : Digest) (rest : String) : entryName key ≠ ".tmp" ++ rest := by
  intro same
  have chars := congrArg String.toList same
  simp only [entryName, Digest.toHex, String.toList_append, String.toList_ofList] at chars
  cases bytes : key.bytes.toList with
  | nil => simpa [bytes] using key.bytes.length_toList
  | cons byte others =>
      rw [bytes, hexOf] at chars
      have digit : ∀ n : Fin 16, hexDigit n ≠ '.' := by decide
      have small := byte.toNat_lt
      exact digit ⟨byte.toNat / 16, by omega⟩ (List.cons.inj chars).1

/-- That the directory of the cache is at a place, or can be made there. -/
structure At (cache : CompileCache) (place : Location) (tree : FileTree) : Prop where
  wellFormed : tree.WellFormed
  leads : tree.LeadsTo cache.directory place
  free : ∀ content executable, tree.node? place ≠ some (.file content executable)

/-- What is found under a key is read off one node. -/
theorem At.get?_eq (h : At cache place tree) (key : Digest) :
    cache.get? key tree = entryOf (tree.node? (place ++ [entryName key])) := by
  rw [get?, h.leads.readText_join h.wellFormed h.free (isName_entryName key)]
  rfl

theorem At.of_nodes (current : tree.node? tree.current = some .directory)
    (parents : ∀ entry ∈ tree.nodes, tree.node? entry.1.dropLast = some .directory)
    (unique : (tree.nodes.map (·.1)).Nodup) (zero : '\x00' ∉ cache.directory.toList)
    (followed : tree.follow (tree.start cache.directory) (FileTree.names cache.directory) = .ok place)
    (there : tree.node? place = some .directory) : At cache place tree where
  wellFormed :=
    { current
      unique
      parents := by
        intro location node found
        cases location with
        | nil => rfl
        | cons name below =>
            exact parents _ ((FileTree.mem_nodes_iff unique (List.cons_ne_nil name below)).2 found) }
  leads := ⟨zero, .inl followed⟩
  free := by
    rw [there]
    exact nofun

/-- That results are found in a tree as they are in another one. -/
def Spared (cache : CompileCache) (place : Location) (before after : FileTree) : Prop :=
  At cache place before → At cache place after ∧ ∀ key, cache.get? key after = cache.get? key before

theorem Spared.of_nodes (at_ : At cache place after)
    (same : after.nodes.filter (·.1.dropLast = place) = tree.nodes.filter (·.1.dropLast = place)) :
    cache.Spared place tree after := by
  have entries (nodes : List (Location × FileNode)) (name : String) :
      (nodes.filter (·.1.dropLast = place)).lookup (place ++ [name]) =
        nodes.lookup (place ++ [name]) := by
    induction nodes with
    | nil => rfl
    | cons entry others ih =>
        obtain ⟨location, node⟩ := entry
        by_cases own : place ++ [name] = location
        · subst own
          simp
        · have differs : (place ++ [name] == location) = false := by simpa using own
          rw [List.lookup_cons, differs, ← ih, List.filter_cons]
          split
          · rw [List.lookup_cons, differs]
          · rfl
  intro before
  refine ⟨at_, fun key => ?_⟩
  have inside : place ++ [entryName key] ≠ [] := by simp
  rw [at_.get?_eq, before.get?_eq, FileTree.node?_of_ne_nil _ inside,
    FileTree.node?_of_ne_nil _ inside, ← entries, same, entries]

def Keeps (cache : CompileCache) (place : Location) (key : Digest) (result : CompileResult)
    (tree : FileTree) : Prop :=
  ∃ steps, tree.planDirectory cache.directory = .ok (place, steps) ∧
    (tree.carryOut (tree.draft place) (steps ++ FileTree.replaceSteps (tree.draft place)
      (place ++ [entryName key]) (encode result.toJson.compact))).2 = none

theorem Keeps.of_done {steps : List FileStep}
    (planned : tree.planDirectory cache.directory = .ok (place, steps))
    (done : tree.carryOut (tree.draft place) (steps ++ FileTree.replaceSteps (tree.draft place)
      (place ++ [entryName key]) (encode result.toJson.compact)) = (after, none)) :
    cache.Keeps place key result tree ∧ cache.put key result tree = after := by
  refine ⟨⟨steps, planned, by rw [done]⟩, ?_⟩
  simp only [CompileCache.put, planned, done]

/-- A result that is kept is found under its key, and nothing else is found otherwise than before. -/
theorem At.put (h : At cache place tree) (fits : result.InRange)
    (keeps : cache.Keeps place key result tree) :
    At cache place (cache.put key result tree) ∧
      cache.get? key (cache.put key result tree) = some result ∧
      ∀ other ≠ key, cache.get? other (cache.put key result tree) = cache.get? other tree := by
  obtain ⟨steps, planned, done⟩ := keeps
  let target := place ++ [entryName key]
  let content := encode result.toJson.compact
  let all := steps ++ FileTree.replaceSteps (tree.draft place) target content
  have kept : cache.put key result tree = (tree.carryOut (tree.draft place) all).1 := by
    simp [CompileCache.put, planned, all, target, content]
  have performed : tree.perform all = (cache.put key result tree, none) :=
    FileTree.perform_of_carryOut (Prod.ext kept.symm done)
  obtain ⟨grown, made, grows, wf, leads, there⟩ :=
    FileTree.perform_planDirectory h.wellFormed planned
  rw [FileTree.perform_append_of_done made] at performed
  have apart : target ≠ tree.draft place := FileTree.append_ne_draft tree place (entryName_ne key)
  have sibling : grown.node? target.dropLast = some .directory := by
    rwa [List.dropLast_concat]
  obtain ⟨free, placed⟩ := FileTree.placed_of_perform wf (by simp [target]) sibling apart performed
  have stays := placed.keeps free there
  have at_ : At cache place (cache.put key result tree) := by
    refine ⟨placed.wellFormed, ?_, ?_⟩
    · exact leads.mono there placed.current fun found => placed.keeps free found
    · rw [stays]
      exact nofun
  refine ⟨at_, ?_, fun other differs => ?_⟩
  · rw [at_.get?_eq, placed.node, if_pos rfl, entryOf, FileTree.textOf_encode]
    exact CompileResult.read_compact fits
  · have elsewhere : place ++ [entryName other] ≠ target := by
      simpa [target, entryName_inj] using differs
    rw [at_.get?_eq, h.get?_eq, placed.node, if_neg elsewhere]
    -- a directory on the way to the cache holds no result, as nothing does
    cases before : tree.node? (place ++ [entryName other]) with
    | some node => rw [grows.kept before]
    | none =>
        rcases grows.added before with none | directory
        · rw [none]
        · rw [directory]
          rfl

/-- Files of the same key have the same name and the same text, unless digests collide. -/
theorem key_inj {fileName text name content : String} (zero : '\x00' ∉ fileName.toList)
    (zero' : '\x00' ∉ name.toList)
    (apart : cache.key fileName text = cache.key name content →
      Digest.separated [cache.fingerprint, fileName, text] =
        Digest.separated [cache.fingerprint, name, content])
    (same : cache.key fileName text = cache.key name content) : fileName = name ∧ text = content := by
  have whole := Digest.separated_inj.1 (apart same)
  simp only [String.intercalate_cons_cons, String.intercalate_singleton, String.append_assoc,
    String.append_right_inj] at whole
  have chars := congrArg String.toList whole
  simp only [String.toList_append, show "\x00".toList = ['\x00'] from rfl,
    List.singleton_append] at chars
  have pieces := congrArg (splitAtChar '\x00') chars
  simp only [splitAtChar_append, splitAtChar_of_not_mem zero, splitAtChar_of_not_mem zero',
    List.singleton_append, List.cons.injEq] at pieces
  have names := pieces.1
  rw [names, List.append_cancel_left_eq, List.cons.injEq, String.toList_inj] at chars
  exact ⟨String.toList_inj.1 names, chars.2⟩

end CompileCache

end Compiler

end Graft
