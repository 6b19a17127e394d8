/-
**procwatch: the name in a status file.**

`readName` is the loop of `find_processes` over `/proc/<pid>/status`: it fills a buffer of 128 bytes, takes
a line out of it with control characters as blanks, and looks for `Name:` on it. A line that fills the
buffer makes the loop spin, so the number of its iterations is an argument.

* `readName_shown` — **the name of a file whose Name line ends within 127 bytes**, and how it is shown.
* `infix_clean` — text without blanks and control characters is shown as it is.
-/

import Baps.Zapscan.Strip

namespace Baps.Procwatch

open Zapscan (ascii)

/-! ### The code -/

/-- `strstr`: what begins with the first occurrence. -/
def strstr (needle : List UInt8) : List UInt8 → Option (List UInt8)
  | [] => if needle = [] then some [] else none
  | byte :: rest =>
      if needle.isPrefixOf (byte :: rest) then some (byte :: rest) else strstr needle rest

/-- `buf[x] == '\n' || buf[x] == '\r'`. -/
def isLineEnd (byte : UInt8) : Bool := byte == 10 || byte == 13

/-- A byte in `status`: `' ' > buf[x]`, where `char` is signed, makes it a blank. -/
def clean (byte : UInt8) : UInt8 := if byte < 32 ∨ 128 ≤ byte then 32 else byte

/-- The loop that takes a line out of the buffer: the line in `status`, and what stays in `buf`. -/
def takeLine : List UInt8 → Option (List UInt8 × List UInt8)
  | [] => none
  | byte :: rest =>
      if isLineEnd byte then some ([], rest)
      else (takeLine rest).map fun taken => (clean byte :: taken.1, taken.2)

/-- The buffer, what has not been read of the file, and `feof`. -/
structure Reader where
  buf : List UInt8
  file : List UInt8
  eof : Bool

/-- `sizeof(buf) - 1`. -/
def bufRoom : Nat := 127

/-- `fread` behind what is in the buffer. -/
def Reader.fill (reader : Reader) : Reader :=
  let room := bufRoom - reader.buf.length
  { buf := reader.buf ++ reader.file.take room
    file := reader.file.drop room
    eof := reader.eof || decide (reader.file.length < room) }

/-- `STATUS_LINE_ARG`. -/
def statusLineArg : List UInt8 := ascii "Name:"

/-- The loop that finds the Name line, for so many iterations at most: `cmd_line`, or none for `NULL`. -/
def readName : Nat → Reader → Option (Option (List UInt8))
  | 0, _ => none
  | steps + 1, reader =>
      let filled := reader.fill
      match takeLine filled.buf with
      | some (status, rest) =>
          match strstr statusLineArg status with
          | some found => some (some (found.drop statusLineArg.length))
          | none => readName steps { filled with buf := rest }
      | none => if filled.eof then some none else readName steps filled

/-! ### Searching -/

section Search

variable {needle text : List UInt8}

theorem strstr_isSome : (strstr needle text).isSome = true ↔ needle <:+: text := by
  induction text with
  | nil =>
    unfold strstr
    by_cases empty : needle = []
    · simp [empty]
    · simp [empty]
  | cons byte rest ih =>
    unfold strstr
    rw [List.infix_cons_iff, ← ih, ← List.isPrefixOf_iff_prefix]
    by_cases here : needle.isPrefixOf (byte :: rest) = true
    · simp [here]
    · simp [here]

/-- What is searched for at the beginning is found there. -/
theorem strstr_append (needle text : List UInt8) :
    strstr needle (needle ++ text) = some (needle ++ text) := by
  have begins : needle.isPrefixOf (needle ++ text) = true :=
    List.isPrefixOf_iff_prefix.mpr (List.prefix_append needle text)
  cases whole : needle ++ text with
  | nil =>
    have empty := (List.append_eq_nil_iff.mp whole).1
    rw [strstr, if_pos empty]
  | cons byte rest =>
    rw [strstr, if_pos (whole ▸ begins)]

/-- A byte that is neither a blank nor a control character. -/
def Printable (byte : UInt8) : Prop := 32 < byte ∧ byte < 128

theorem clean_printable {byte : UInt8} (printable : Printable byte) : clean byte = byte := by
  unfold clean
  rw [if_neg]
  rintro (control | high)
  · exact absurd (UInt8.lt_trans control printable.1) (UInt8.lt_irrefl byte)
  · exact absurd printable.2 (UInt8.not_lt.mpr high)

/-- Only a printable byte is shown as one. -/
theorem eq_of_clean {byte shown : UInt8} (same : clean byte = shown) (printable : Printable shown) :
    byte = shown := by
  unfold clean at same
  split at same
  · rw [← same] at printable
    exact absurd printable.1 (UInt8.lt_irrefl 32)
  · exact same

theorem map_clean (printable : ∀ byte ∈ needle, Printable byte) : needle.map clean = needle :=
  (List.map_congr_left fun byte member => clean_printable (printable byte member)).trans
    (List.map_id needle)

/-- **Text without blanks and control characters is shown as it is.** -/
theorem infix_clean (printable : ∀ byte ∈ needle, Printable byte) :
    needle <:+: text.map clean ↔ needle <:+: text := by
  constructor
  · rintro ⟨before, behind, eq⟩
    obtain ⟨start, rest, rfl, startEq, restEq⟩ := List.map_eq_append_iff.mp eq.symm
    obtain ⟨first, middle, rfl, firstEq, middleEq⟩ := List.map_eq_append_iff.mp startEq
    have same : middle = needle := by
      rw [← middleEq]
      refine ((List.map_congr_left fun byte member => ?_).trans (List.map_id middle)).symm
      have inNeedle : clean byte ∈ needle := middleEq ▸ List.mem_map_of_mem member
      exact (eq_of_clean rfl (printable _ inNeedle)).symm
    exact ⟨first, rest, by rw [same]⟩
  · intro inside
    exact map_clean printable ▸ inside.map clean

end Search

/-! ### Status files -/

/-- A line and its end. -/
structure TextLine where
  bytes : List UInt8
  lineEnd : UInt8
  plain : ∀ byte ∈ bytes, isLineEnd byte = false
  ends : isLineEnd lineEnd = true

/-- The bytes of a line. -/
def TextLine.contents (line : TextLine) : List UInt8 := line.bytes ++ [line.lineEnd]

/-- A status file whose Name line is complete within 127 bytes. -/
structure StatusFile where
  before : List TextLine
  name : TextLine
  text : List UInt8
  rest : List UInt8
  others : ∀ line ∈ before, ¬ statusLineArg <:+: line.bytes
  begins : name.bytes = statusLineArg ++ text
  complete : (before.flatMap TextLine.contents ++ name.contents).length ≤ bufRoom

/-- The bytes of a status file. -/
def StatusFile.contents (file : StatusFile) : List UInt8 :=
  file.before.flatMap TextLine.contents ++ file.name.contents ++ file.rest

/-- The text of the Name line as procwatch sees it. -/
def StatusFile.shown (file : StatusFile) : List UInt8 := file.text.map clean

section Files

variable {line : TextLine} {reader : Reader} {rest stream : List UInt8}

theorem takeLine_line (line : TextLine) (rest : List UInt8) :
    takeLine (line.contents ++ rest) = some (line.bytes.map clean, rest) := by
  obtain ⟨bytes, lineEnd, plain, ends⟩ := line
  show takeLine (bytes ++ [lineEnd] ++ rest) = some (bytes.map clean, rest)
  induction bytes with
  | nil => exact if_pos ends
  | cons byte others ih =>
    have here : ¬ isLineEnd byte = true := by
      rw [plain byte List.mem_cons_self]
      exact Bool.false_ne_true
    have later := ih fun other member => plain other (List.mem_cons_of_mem _ member)
    rw [List.cons_append, List.cons_append, takeLine, if_neg here, later]
    rfl

/-- Filling the buffer of a stream. -/
theorem Reader.fill_stream (reader : Reader) (small : reader.buf.length ≤ bufRoom) :
    reader.fill.buf = (reader.buf ++ reader.file).take bufRoom ∧
      reader.fill.buf ++ reader.fill.file = reader.buf ++ reader.file := by
  unfold Reader.fill
  constructor
  · rw [List.take_append, List.take_of_length_le small]
  · rw [List.append_assoc, List.take_append_drop]

/-- **One iteration takes a line**, when there is one within 127 bytes. -/
theorem readName_line (steps : Nat) (small : reader.buf.length ≤ bufRoom)
    (starts : reader.buf ++ reader.file = line.contents ++ rest)
    (complete : line.contents.length ≤ bufRoom) :
    ∃ next : Reader, next.buf.length ≤ bufRoom ∧ next.buf ++ next.file = rest ∧
      next.eof = reader.fill.eof ∧ readName (steps + 1) reader =
        match strstr statusLineArg (line.bytes.map clean) with
        | some found => some (some (found.drop statusLineArg.length))
        | none => readName steps next := by
  obtain ⟨buf, stream⟩ := reader.fill_stream small
  rw [starts] at buf stream
  rw [List.take_append, List.take_of_length_le complete] at buf
  have taken : takeLine reader.fill.buf =
      some (line.bytes.map clean, rest.take (bufRoom - line.contents.length)) := by
    rw [buf, takeLine_line]
  refine ⟨{ reader.fill with buf := rest.take (bufRoom - line.contents.length) }, ?_, ?_, rfl, ?_⟩
  · rw [List.length_take]
    omega
  · rw [buf, List.append_assoc] at stream
    exact List.append_cancel_left stream
  · rw [readName, taken]

theorem statusLineArg_printable : ∀ byte ∈ statusLineArg, Printable byte := by
  rw [show statusLineArg = [78, 97, 109, 101, 58] from rfl]
  simp [Printable]

/-- A line without `Name:` is passed. -/
theorem strstr_others (apart : ¬ statusLineArg <:+: line.bytes) :
    strstr statusLineArg (line.bytes.map clean) = none := by
  rw [← Option.not_isSome_iff_eq_none, strstr_isSome, infix_clean statusLineArg_printable]
  exact apart

/-- The Name line has `Name:` in front. -/
theorem strstr_name {text : List UInt8} (begins : line.bytes = statusLineArg ++ text) :
    strstr statusLineArg (line.bytes.map clean) = some (statusLineArg ++ text.map clean) := by
  rw [begins, List.map_append, map_clean statusLineArg_printable]
  exact strstr_append statusLineArg (text.map clean)

/-- The lines before the Name line are passed one by one. -/
theorem readName_before (before : List TextLine) (name : TextLine) {text : List UInt8} (steps : Nat)
    (others : ∀ line ∈ before, ¬ statusLineArg <:+: line.bytes)
    (begins : name.bytes = statusLineArg ++ text)
    (complete : (before.flatMap TextLine.contents ++ name.contents).length ≤ bufRoom)
    (small : reader.buf.length ≤ bufRoom)
    (starts : reader.buf ++ reader.file = before.flatMap TextLine.contents ++ name.contents ++ rest) :
    readName (before.length + 1 + steps) reader = some (some (text.map clean)) := by
  induction before generalizing reader with
  | nil =>
    obtain ⟨next, -, -, -, step⟩ := readName_line steps small starts complete
    rw [List.length_nil, Nat.zero_add, Nat.add_comm, step, strstr_name begins]
    exact congrArg (some ∘ some) (List.drop_left)
  | cons line later ih =>
    rw [List.flatMap_cons, List.append_assoc] at complete
    rw [List.flatMap_cons, List.append_assoc, List.append_assoc, ← List.append_assoc (later.flatMap _)]
      at starts
    have first : line.contents.length ≤ bufRoom := by
      rw [List.length_append] at complete
      omega
    have tail : (later.flatMap TextLine.contents ++ name.contents).length ≤ bufRoom := by
      rw [List.length_append] at complete
      omega
    obtain ⟨next, nextSmall, nextStarts, -, step⟩ :=
      readName_line (later.length + 1 + steps) small starts first
    have count : (line :: later).length + 1 + steps = later.length + 1 + steps + 1 := by
      rw [List.length_cons]
      omega
    rw [count, step, strstr_others (others line List.mem_cons_self)]
    exact ih (fun other member => others other (List.mem_cons_of_mem _ member)) tail nextSmall nextStarts

theorem length_before (before : List TextLine) :
    before.length ≤ (before.flatMap TextLine.contents).length := by
  induction before with
  | nil => exact Nat.le_refl 0
  | cons line later ih =>
    rw [List.flatMap_cons, List.length_append, List.length_cons, TextLine.contents, List.length_append,
      List.length_singleton]
    omega

/-- **The Name line is found.** -/
theorem readName_shown (file : StatusFile) (steps : Nat) :
    readName (bufRoom + steps) ⟨[], file.contents, false⟩ = some (some file.shown) := by
  have lines := length_before file.before
  have ends : 1 ≤ file.name.contents.length := by simp [TextLine.contents]
  have complete := file.complete
  rw [List.length_append] at complete
  have count : bufRoom + steps =
      file.before.length + 1 + (bufRoom - (file.before.length + 1) + steps) := by omega
  rw [count]
  exact readName_before file.before file.name _ file.others file.begins file.complete (Nat.zero_le _) rfl

/-- A line that fills the buffer makes the loop spin. -/
theorem readName_spins (steps : Nat) (full : reader.buf.length = bufRoom) (going : reader.eof = false)
    (unended : takeLine reader.buf = none) : readName steps reader = none := by
  have same : reader.fill = reader := by
    obtain ⟨buf, file, eof⟩ := reader
    simp only [Reader.fill, full, Nat.sub_self, List.take_zero, List.append_nil, List.drop_zero,
      Nat.not_lt_zero, decide_false, Bool.or_false]
  induction steps with
  | zero => rfl
  | succ steps ih =>
    rw [readName, same, unended]
    simp only [going, Bool.false_eq_true, if_false]
    exact ih

end Files

end Baps.Procwatch
