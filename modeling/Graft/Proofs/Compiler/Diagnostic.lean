import Graft.Compiler.Diagnostic
import Graft.Proofs.Text.Lines
import Graft.Proofs.Text.Numeral
import Graft.Proofs.Text.Trim

/-!
Records read back from the lines that write them. A line is read from its first colon that has a number and a
record behind it. In a record that is `Plain` no colon of the file has a digit behind it, so the first such
colon is the one behind the file (`split?_append`), whatever the message says; from there on each part is
read up to its own end (`takeRecord?_recordText`). The main statement is `diagnostics_intercalate`.
-/

namespace Graft.Compiler.Diagnostic

open Graft.Text

/-- That a record can be told from the line that writes it. -/
structure Plain (record : Diagnostic) : Prop where
  file_ne_empty : record.file ≠ ""
  file_inLine : '\n' ∉ record.file.toList
  /-- No colon in the file has a decimal digit behind it. -/
  unnumbered : record.file.toList.IsChain fun a b => a = ':' → isDecimalDigit b = false
  line_le : record.line ≤ maxUnsigned 32
  column_le : ∀ column ∈ record.column, column ≤ maxUnsigned 32
  severity_mem : record.severity ∈ severities
  message_inLine : '\n' ∉ record.message.toList
  message_start : ∀ c ∈ record.message.toList.head?, isBlank c = false
  message_end : ∀ c ∈ record.message.toList.getLast?, isBlank c = false

variable {record : Diagnostic} {rest passed file : List Char} {c : Char}

/-- What stands on the line between the colon behind the line number and the severity. -/
def columnText (column : Option Nat) : List Char :=
  match column with
  | some column => column.repr.toList ++ [':']
  | none => []

/-- What stands on the line of a record between the colon behind the file and the one behind the severity. -/
def recordText (record : Diagnostic) : List Char :=
  record.line.repr.toList ++ ':' :: (columnText record.column ++ ' ' :: record.severity.toList)

theorem toList_render (record : Diagnostic) : record.render.toList =
    record.file.toList ++ ':' :: recordText record ++ ':' :: ' ' :: record.message.toList := by
  cases column : record.column <;>
    simp [render, recordText, columnText, column, toString]

/-! The parts of a record -/

theorem isDecimalDigit_of_isDigit (digit : c.isDigit = true) : isDecimalDigit c = true := by
  have small : c.toNat < 0x80 := by
    simp only [Char.isDigit, Bool.and_eq_true, decide_eq_true_eq] at digit
    have upper : c.toNat ≤ 57 := UInt32.le_iff_toNat_le.1 digit.2
    omega
  rw [isDecimalDigit, if_pos small]
  exact digit

theorem takeCount?_repr (n : Nat) (rest : List Char) :
    takeCount? (n.repr.toList ++ ':' :: rest) = some (n.repr.toList, rest) := by
  have digits : (n.repr.toList ++ ':' :: rest).takeWhile isDecimalDigit = n.repr.toList := by
    rw [List.takeWhile_append_of_pos fun c mem => isDecimalDigit_of_isDigit (isDigit_of_mem_repr mem),
      List.takeWhile_cons_of_neg (by decide), List.append_nil]
  obtain ⟨first, others, same⟩ := List.exists_cons_of_ne_nil (toList_repr_ne_nil n)
  rw [takeCount?, digits, List.drop_left]
  simp only [same]

theorem takeCount?_cons (other : isDecimalDigit c = false) (rest : List Char) :
    takeCount? (c :: rest) = none := by
  have nothing : (c :: rest).takeWhile isDecimalDigit = [] :=
    List.takeWhile_cons_of_neg (Bool.eq_false_iff.1 other)
  simp only [takeCount?, nothing]

theorem takeRecord?_cons (other : isDecimalDigit c = false) (rest : List Char) :
    takeRecord? (c :: rest) = none := by
  rw [takeRecord?, takeCount?_cons other]
  rfl

/-- The first severity that fits is the one that is written, since none of them starts another one. -/
theorem takeMessage?_severity {severity : String} (mem : severity ∈ severities) (rest : List Char) :
    takeMessage? (' ' :: (severity.toList ++ ':' :: rest)) = some (severity, rest.dropWhile isBlank) := by
  simp only [severities, List.mem_cons, List.not_mem_nil, or_false] at mem
  rcases mem with rfl | rfl | rfl | rfl <;> rfl

theorem takeRecord?_recordText (plain : record.Plain) (rest : List Char) :
    takeRecord? (recordText record ++ ':' :: rest) =
      some (record.line.repr.toList, record.column.map fun column => column.repr.toList,
        record.severity, rest.dropWhile isBlank) := by
  have message := takeMessage?_severity plain.severity_mem rest
  rw [takeRecord?, recordText, List.append_assoc, List.cons_append, takeCount?_repr]
  cases record.column with
  | none =>
      have unnumbered : takeCount? (' ' :: (record.severity.toList ++ ':' :: rest)) = none :=
        takeCount?_cons (by decide) _
      simp [columnText, unnumbered, message]
  | some column =>
      have numbered := takeCount?_repr column (' ' :: (record.severity.toList ++ ':' :: rest))
      simp only [columnText, List.append_assoc, List.cons_append, List.nil_append,
        Option.bind_eq_bind, Option.bind_some, numbered, message]
      rfl

/-! The file -/

/-- The file ends at the first colon with a record behind it, and that is no colon of its own. -/
theorem split?_append (unnumbered : file.IsChain fun a b => a = ':' → isDecimalDigit b = false)
    {found : List Char × Option (List Char) × String × List Char}
    (reads : takeRecord? rest = some found) (filled : passed ≠ [] ∨ file ≠ []) :
    split? passed (file ++ ':' :: rest) = some (passed.reverse ++ file, found) := by
  induction file generalizing passed with
  | nil =>
      have started : passed ≠ [] := filled.resolve_right (absurd rfl)
      simp [split?, started, reads]
  | cons c file ih =>
      have later : split? (c :: passed) (file ++ ':' :: rest) =
          some ((c :: passed).reverse ++ file, found) :=
        ih (List.isChain_of_isChain_cons unnumbered) (.inl (List.cons_ne_nil c passed))
      have noRecord (colon : c = ':') : takeRecord? (file ++ ':' :: rest) = none := by
        cases file with
        | nil => exact takeRecord?_cons (by decide) rest
        | cons next file =>
            have nextPlain := (List.isChain_cons_cons.1 unnumbered).1 colon
            exact takeRecord?_cons nextPlain (file ++ ':' :: rest)
      have here : (if c = ':' ∧ passed ≠ [] then takeRecord? (file ++ ':' :: rest) else none) = none := by
        split
        · next both => exact noRecord both.1
        · rfl
      rw [List.cons_append, split?]
      simp only [here, later, List.reverse_cons, List.append_assoc, List.singleton_append]

/-! Lines -/

theorem readU32?_repr {n : Nat} (small : n ≤ maxUnsigned 32) : readU32? n.repr = some n :=
  readNat?_repr small

/-- The message is what is left of it at the end of the line, without the space in front. -/
theorem dropWhile_message (plain : record.Plain) :
    (dropEndWhile isBlank (' ' :: record.message.toList)).dropWhile isBlank = record.message.toList := by
  rw [dropEndWhile_cons, dropEndWhile_of_getLast? plain.message_end]
  cases filled : record.message.toList with
  | nil => rfl
  | cons c rest =>
      have start : (c :: rest).dropWhile isBlank = c :: rest :=
        dropWhile_of_head? (filled ▸ plain.message_start)
      exact start

/-- A line reads as the record that it writes. -/
theorem ofLine?_render (plain : record.Plain) : ofLine? record.render = some record := by
  have trimmed : dropEndWhile isBlank record.render.toList = record.file.toList ++
      ':' :: (recordText record ++ ':' :: dropEndWhile isBlank (' ' :: record.message.toList)) := by
    rw [toList_render, dropEndWhile_append_cons (by decide)]
    simp
  have filled : record.file.toList ≠ [] := by
    intro empty
    exact plain.file_ne_empty (String.toList_eq_nil_iff.1 empty)
  have reads := takeRecord?_recordText plain (dropEndWhile isBlank (' ' :: record.message.toList))
  rw [dropWhile_message plain] at reads
  have parts : split? [] (record.file.toList ++
      ':' :: (recordText record ++ ':' :: dropEndWhile isBlank (' ' :: record.message.toList))) =
        some (record.file.toList, record.line.repr.toList,
          record.column.map fun column => column.repr.toList, record.severity, record.message.toList) :=
    split?_append plain.unnumbered reads (.inr filled)
  have column : (record.column.map fun column => column.repr.toList).bind
      (fun digits => readU32? (String.ofList digits)) = record.column := by
    cases number : record.column with
    | none => rfl
    | some column =>
        rw [Option.map_some, Option.bind_some, String.ofList_toList]
        exact readU32?_repr (plain.column_le column number)
  rw [ofLine?, trimmed, parts]
  simp only [Option.bind_eq_bind, Option.bind_some, column, String.ofList_toList,
    readU32?_repr plain.line_le]
  rfl

/-- A record that is plain is written on one line. -/
theorem inLine_render (plain : record.Plain) : '\n' ∉ record.render.toList := by
  have number (n : Nat) : '\n' ∉ n.repr.toList := by
    intro mem
    have digit := isDigit_of_mem_repr mem
    cases digit
  have severity : '\n' ∉ record.severity.toList := by
    have words : ∀ severity ∈ severities, '\n' ∉ severity.toList := by decide
    exact words _ plain.severity_mem
  have column : '\n' ∉ columnText record.column := by
    cases record.column with
    | none => exact List.not_mem_nil
    | some column => simp [columnText, -Nat.toList_repr, number]
  rw [toList_render, recordText]
  simp [plain.file_inLine, plain.message_inLine, severity, column, -Nat.toList_repr, number]

/-- The line does not end in a carriage return, which would be lost. -/
theorem getLast?_render (plain : record.Plain) : record.render.toList.getLast? ≠ some '\r' := by
  intro last
  rw [toList_render, List.getLast?_append, List.getLast?_cons_cons, List.getLast?_cons] at last
  cases message : record.message.toList.getLast? with
  | none => simp [message] at last
  | some c =>
      have solid := plain.message_end c message
      simp only [message, Option.getD_some, Option.some_or, Option.some.injEq] at last
      rw [last] at solid
      cases solid

end Graft.Compiler.Diagnostic

namespace Graft.Compiler

open Graft.Text Diagnostic

/-- What writes plain records, one on each line, reads as these records, whatever colons, numbers and
severities stand in their files and messages. -/
theorem diagnostics_intercalate (records : List Diagnostic) (plain : ∀ record ∈ records, record.Plain) :
    diagnostics ("\n".intercalate (records.map render)) = records := by
  have written : lines ("\n".intercalate (records.map render)) = records.map render := by
    apply lines_intercalate
    · exact List.forall_mem_map.2 fun record mem => inLine_render (plain record mem)
    · refine List.forall_mem_map.2 ?_
      intro record _
      rw [toList_render]
      simp
    · exact List.forall_mem_map.2 fun record mem => getLast?_render (plain record mem)
  rw [diagnostics, written, List.filterMap_map]
  have read : ∀ record ∈ records, (ofLine? ∘ render) record = some record :=
    fun record mem => ofLine?_render (plain record mem)
  rw [List.filterMap_congr read, List.filterMap_some]

/-- A file on a drive, the largest numbers, and messages that look like records or are empty. -/
theorem diagnostics_of_drive :
    let records : List Diagnostic :=
      [⟨"C:\\a b\\u.c", 4294967295, some 0, "fatal error", "v.h:1:2: error: no"⟩,
        ⟨":", 0, none, "note", ""⟩]
    (∀ record ∈ records, record.Plain) ∧
      diagnostics ("\n".intercalate (records.map render)) = records := by
  intro records
  have plain : ∀ record ∈ records, record.Plain := by
    intro record mem
    simp only [records, List.mem_cons, List.not_mem_nil, or_false] at mem
    rcases mem with rfl | rfl
    all_goals
      constructor
      case message_start | message_end => rintro c ⟨⟩ <;> rfl
      all_goals decide
  exact ⟨plain, diagnostics_intercalate records plain⟩

end Graft.Compiler
