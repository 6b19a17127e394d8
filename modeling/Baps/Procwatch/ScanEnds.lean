/-
**procwatch: when a scan of `/proc` ends.**

The line loop ends with the file, or with the Name line. A line that fills the buffer is never taken out of
it, and then there is no room to read on: nothing is asked for, so the end of the file is never seen, and
the loop goes round for ever.

* `Short` — no 127 bytes without a line end, but behind `Name:`.
* `readName_short`, `short_of_readName` — **a file is read to its end or its Name line if it is short, and
  only then.**
* `findProcessesIn_eq` — the scan in its arrays is `findProcesses`; it never leaves them.
* `find_processes_ends_iff` — **when a scan ends**: if every name has been seen before the first file that is
  not short.
-/

import Baps.Procwatch.Watch
import Baps.Procwatch.LineLoop
import Baps.Text.Lines
import Baps.Zapscan.Scan

namespace Baps.Procwatch

open Zapscan (ascii decimal)

/-! ### Files that end -/

/-- There are no 127 bytes without a line end in a file, unless `Name:` comes before them. -/
def Short (file : List UInt8) : Prop :=
  ∀ before row rest, file = before ++ (row ++ rest) → (∀ byte ∈ row, isLineEnd byte = false) →
    ¬ statusLineArg <:+: before → row.length < bufRoom

/-- The text of the first line with `Name:` on it, as procwatch sees it. -/
def nameText (file : List UInt8) : Option (List UInt8) :=
  (Text.lines isLineEnd file).findSome? fun line =>
    (strstr statusLineArg (line.map clean)).map fun found => found.drop statusLineArg.length

section Streams

variable {line : TextLine} {before row rest more file stream : List UInt8}

/-- A stream begins with a line, or there is none in it. -/
theorem stream_cases (stream : List UInt8) :
    (∃ (line : TextLine) (rest : List UInt8), stream = line.contents ++ rest) ∨
      ∀ byte ∈ stream, isLineEnd byte = false := by
  induction stream with
  | nil => exact .inr fun _ member => absurd member List.not_mem_nil
  | cons byte stream ih =>
    cases ends : isLineEnd byte with
    | true => exact .inl ⟨⟨[], byte, fun _ member => absurd member List.not_mem_nil, ends⟩, stream, rfl⟩
    | false =>
      rcases ih with ⟨⟨bytes, lineEnd, plain, last⟩, rest, rfl⟩ | plain
      · exact .inl ⟨⟨byte :: bytes, lineEnd, List.forall_mem_cons.mpr ⟨ends, plain⟩, last⟩, rest, rfl⟩
      · exact .inr (List.forall_mem_cons.mpr ⟨ends, plain⟩)

theorem takeLine_plain (plain : ∀ byte ∈ stream, isLineEnd byte = false) : takeLine stream = none := by
  induction stream with
  | nil => rfl
  | cons byte stream ih =>
    obtain ⟨here, later⟩ := List.forall_mem_cons.mp plain
    rw [takeLine, if_neg (by rw [here]; exact Bool.false_ne_true), ih later, Option.map_none]

theorem contents_length (line : TextLine) : line.contents.length = line.bytes.length + 1 := by
  rw [TextLine.contents, List.length_append, List.length_singleton]

/-- A row that begins before a symbol that is not in it ends before it. -/
theorem prefix_before {apart : UInt8} (other : apart ∉ row) (begins : row <+: before ++ apart :: rest) :
    row <+: before := by
  by_cases short : row.length ≤ before.length
  · exact List.prefix_of_prefix_length_le begins (List.prefix_append _ _) short
  · have longer : before ++ [apart] <+: row := by
      refine List.prefix_of_prefix_length_le ⟨rest, List.append_cons .. |>.symm⟩ begins ?_
      rw [List.length_append, List.length_singleton]
      omega
    exact absurd (longer.subset List.mem_concat_self) other

/-- What does not have a symbol in it is found before the symbol or behind it. -/
theorem infix_around {apart : UInt8} (other : apart ∉ row) (inside : row <:+: before ++ apart :: rest) :
    row <:+: before ∨ row <:+: rest := by
  induction before with
  | nil =>
    rcases List.infix_cons_iff.mp inside with begins | later
    · exact .inl (prefix_before other begins).isInfix
    · exact .inr later
  | cons byte before ih =>
    rcases List.infix_cons_iff.mp inside with begins | later
    · exact .inl (prefix_before other begins).isInfix
    · rcases ih later with early | late
      · exact .inl (List.infix_cons early)
      · exact .inr late

/-- A line end is not in a row without one. -/
theorem lineEnd_not_mem (line : TextLine) (plain : ∀ byte ∈ row, isLineEnd byte = false) :
    line.lineEnd ∉ row := by
  intro member
  have none := plain _ member
  rw [line.ends] at none
  cases none

theorem contents_append (line : TextLine) (rest : List UInt8) :
    line.contents ++ rest = line.bytes ++ line.lineEnd :: rest :=
  (List.append_cons _ _ _).symm

/-- A row without a line end is in the first line, or behind it. -/
theorem row_cases (same : line.contents ++ rest = before ++ (row ++ more))
    (plain : ∀ byte ∈ row, isLineEnd byte = false) : row.length ≤ line.bytes.length ∨
      ∃ later, before = line.contents ++ later ∧ rest = later ++ (row ++ more) := by
  rw [contents_append] at same
  rcases List.append_eq_append_iff.mp same with ⟨front, rfl, behind⟩ | ⟨tail, bytes, inside⟩
  · cases front with
    | nil =>
      left
      have none : row <+: [] := prefix_before (lineEnd_not_mem line plain) ⟨more, behind.symm⟩
      rw [List.prefix_nil.mp none]
      exact Nat.zero_le _
    | cons byte later =>
      obtain ⟨rfl, tail⟩ := List.cons_eq_cons.mp behind
      exact .inr ⟨later, (contents_append line later).symm, tail⟩
  · left
    have shorter : row <+: tail := prefix_before (lineEnd_not_mem line plain) ⟨more, inside⟩
    rw [bytes, List.length_append]
    exact Nat.le_add_left_of_le shorter.length_le

theorem statusLineArg_plain : ∀ byte ∈ statusLineArg, isLineEnd byte = false := by
  rw [show statusLineArg = [78, 97, 109, 101, 58] from rfl]
  simp [isLineEnd]

/-! ### Short files -/

/-- The first line of a short file fits into the buffer. -/
theorem Short.first (short : Short (line.contents ++ rest)) : line.contents.length ≤ bufRoom := by
  have fits := short [] line.bytes (line.lineEnd :: rest) (contents_append line rest) line.plain (by decide)
  rw [contents_length]
  exact fits

/-- Behind a line without `Name:`, a short file goes on as one. -/
theorem Short.behind (short : Short (line.contents ++ rest)) (other : ¬ statusLineArg <:+: line.bytes) :
    Short rest := by
  rintro before row more rfl plain apart
  refine short (line.contents ++ before) row more (List.append_assoc _ _ _).symm plain fun inside => ?_
  rw [contents_append] at inside
  rcases infix_around (lineEnd_not_mem line statusLineArg_plain) inside with here | later
  · exact other here
  · exact apart later

/-- A file that begins with the Name line is short if that line is. -/
theorem short_of_name (fits : line.contents.length ≤ bufRoom) (named : statusLineArg <:+: line.bytes) :
    Short (line.contents ++ rest) := by
  intro before row more same plain apart
  rcases row_cases same plain with inside | ⟨later, rfl, -⟩
  · rw [contents_length] at fits
    omega
  · rw [contents_append] at apart
    exact absurd (List.infix_append_of_infix_left named) apart

/-- A line in front that fits into the buffer leaves a file short. -/
theorem short_append (fits : line.contents.length ≤ bufRoom) (short : Short rest) :
    Short (line.contents ++ rest) := by
  intro before row more same plain apart
  rcases row_cases same plain with inside | ⟨later, rfl, behind⟩
  · rw [contents_length] at fits
    omega
  · exact short later row more behind plain fun inside => apart (List.infix_append_of_infix_right inside)

/-- A file of fewer than 127 bytes. -/
theorem short_of_length (few : stream.length < bufRoom) : Short stream := by
  rintro before row more rfl - -
  rw [List.length_append, List.length_append] at few
  omega

/-! ### The loop over a short file -/

theorem nameText_line (line : TextLine) (rest : List UInt8) : nameText (line.contents ++ rest) =
    match strstr statusLineArg (line.bytes.map clean) with
    | some found => some (found.drop statusLineArg.length)
    | none => nameText rest := by
  rw [contents_append]
  by_cases empty : line.bytes = []
  · rw [nameText, empty, List.nil_append, Text.lines_empty isLineEnd line.ends]
    rfl
  · rw [nameText, Text.lines_line isLineEnd line.plain empty line.ends, List.findSome?_cons]
    cases strstr statusLineArg (line.bytes.map clean) with
    | none => rfl
    | some found => rfl

theorem nameText_plain (plain : ∀ byte ∈ stream, isLineEnd byte = false) : nameText stream = none := by
  rw [nameText, Text.lines, (Text.unfinished_symbols isLineEnd plain []).1]
  rfl

/-- The buffer has room left once the end of the file has been seen. -/
structure Reader.Good (reader : Reader) : Prop where
  small : reader.buf.length ≤ bufRoom
  ended : reader.eof = true → (reader.buf ++ reader.file).length < bufRoom

variable {reader : Reader}

/-- **When the end of the file is seen**: when what is left does not fill the buffer. -/
theorem Reader.Good.fill_eof (good : reader.Good) :
    reader.fill.eof = decide ((reader.buf ++ reader.file).length < bufRoom) := by
  have small := good.small
  show (reader.eof || decide (reader.file.length < bufRoom - reader.buf.length)) = _
  cases ended : reader.eof with
  | true => rw [Bool.true_or, decide_eq_true (good.ended ended)]
  | false =>
    rw [Bool.false_or, decide_eq_decide, List.length_append]
    omega

/-- **An iteration that has a line.** -/
theorem Reader.Good.takes (good : reader.Good) (steps : Nat)
    (starts : reader.buf ++ reader.file = line.contents ++ rest) (fits : line.contents.length ≤ bufRoom) :
    ∃ next : Reader, next.Good ∧ next.buf ++ next.file = rest ∧ readName (steps + 1) reader =
      match strstr statusLineArg (line.bytes.map clean) with
      | some found => some (some (found.drop statusLineArg.length))
      | none => readName steps next := by
  obtain ⟨next, small, stream, eof, step⟩ := readName_line steps good.small starts fits
  refine ⟨next, ⟨small, fun ended => ?_⟩, stream, step⟩
  rw [eof, good.fill_eof, starts, decide_eq_true_iff, List.length_append] at ended
  rw [stream]
  omega

/-- **An iteration without one**: the loop ends with the file, or spins. -/
theorem Reader.Good.unended (good : reader.Good) (steps : Nat)
    (plain : ∀ byte ∈ (reader.buf ++ reader.file).take bufRoom, isLineEnd byte = false) :
    readName (steps + 1) reader =
      if (reader.buf ++ reader.file).length < bufRoom then some none else none := by
  obtain ⟨buf, -⟩ := reader.fill_stream good.small
  have taken : takeLine reader.fill.buf = none := by
    rw [buf]
    exact takeLine_plain plain
  have eof := good.fill_eof
  rw [readName, taken]
  by_cases few : (reader.buf ++ reader.file).length < bufRoom
  · rw [decide_eq_true few] at eof
    rw [if_pos few]
    exact if_pos eof
  · rw [decide_eq_false few] at eof
    have full : reader.fill.buf.length = bufRoom := by
      rw [buf, List.length_take]
      omega
    rw [if_neg few]
    show (if reader.fill.eof = true then _ else _) = _
    rw [if_neg (by rw [eof]; exact Bool.false_ne_true)]
    exact readName_spins steps full eof taken

/-- **A short file is read** to its end or its Name line. -/
theorem readName_short {steps : Nat} (good : reader.Good) (short : Short (reader.buf ++ reader.file))
    (enough : (reader.buf ++ reader.file).length < steps) :
    readName steps reader = some (nameText (reader.buf ++ reader.file)) := by
  induction steps generalizing reader with
  | zero => exact absurd enough (Nat.not_lt_zero _)
  | succ steps ih =>
    rcases stream_cases (reader.buf ++ reader.file) with ⟨line, rest, starts⟩ | plain
    · rw [starts] at short enough ⊢
      obtain ⟨next, good', stream, step⟩ := good.takes steps starts short.first
      rw [step, nameText_line]
      cases found : strstr statusLineArg (line.bytes.map clean) with
      | some text => rfl
      | none =>
        have other : ¬ statusLineArg <:+: line.bytes := by
          rw [← infix_clean statusLineArg_printable, ← strstr_isSome, found]
          exact Bool.false_ne_true
        rw [List.length_append, contents_length] at enough
        rw [← stream] at short enough ⊢
        exact ih good' (short.behind other) (by omega)
    · have few := short [] _ [] (List.append_nil _).symm plain (by decide)
      rw [good.unended steps fun byte member => plain byte (List.mem_of_mem_take member), if_pos few,
        nameText_plain plain]

/-- **Only a short file is.** -/
theorem short_of_readName {steps : Nat} {cmdLine : Option (List UInt8)} (good : reader.Good)
    (ends : readName steps reader = some cmdLine) :
    Short (reader.buf ++ reader.file) ∧ cmdLine = nameText (reader.buf ++ reader.file) := by
  induction steps generalizing reader with
  | zero => cases ends
  | succ steps ih =>
    rcases stream_cases (reader.buf ++ reader.file) with ⟨line, rest, starts⟩ | plain
    · by_cases fits : line.contents.length ≤ bufRoom
      · obtain ⟨next, good', stream, step⟩ := good.takes steps starts fits
        rw [step] at ends
        rw [starts, nameText_line]
        cases found : strstr statusLineArg (line.bytes.map clean) with
        | some text =>
          rw [found] at ends
          have named : statusLineArg <:+: line.bytes := by
            rw [← infix_clean statusLineArg_printable, ← strstr_isSome, found]
            rfl
          exact ⟨short_of_name fits named, (Option.some.inj ends).symm⟩
        | none =>
          rw [found] at ends
          obtain ⟨short, text⟩ := ih good' ends
          rw [stream] at short text
          exact ⟨short_append fits short, text⟩
      · -- the line fills the buffer
        have plain : ∀ byte ∈ (reader.buf ++ reader.file).take bufRoom, isLineEnd byte = false := by
          rw [contents_length] at fits
          rw [starts, contents_append, List.take_append_of_le_length (by omega)]
          exact fun byte member => line.plain byte (List.mem_of_mem_take member)
        have many : ¬ (reader.buf ++ reader.file).length < bufRoom := by
          rw [starts, List.length_append]
          omega
        rw [good.unended steps plain, if_neg many] at ends
        cases ends
    · have taken : ∀ byte ∈ (reader.buf ++ reader.file).take bufRoom, isLineEnd byte = false :=
        fun byte member => plain byte (List.mem_of_mem_take member)
      rw [good.unended steps taken] at ends
      by_cases few : (reader.buf ++ reader.file).length < bufRoom
      · rw [if_pos few] at ends
        exact ⟨short_of_length few, by rw [nameText_plain plain, Option.some.inj ends]⟩
      · rw [if_neg few] at ends
        cases ends

end Streams

/-! ### The scan in its arrays -/

/-- The largest `int`. -/
def intMax : Nat := 2147483647

/-- The pid of an entry that is looked at, in an `int`. -/
def pidInt (entry : List UInt8) : Option Nat := (pidOf entry).map fun pid => min pid intMax

/-- What is done to the arrays before a status file is opened: `buf` is terminated, and `status` has the path. -/
def openStatus (pid : Nat) (status buf : Cells) : Except Fault (Cells × Cells) := do
  let buf ← writeCells buf 0 [0]
  let status ← writeCells status 0 (ascii "/proc/" ++ decimal pid ++ ascii "/status" ++ [0])
  .ok (status, buf)

/-- The variables when a status file has been opened. -/
def opened (status buf : Cells) (file : List UInt8) : Locals := ⟨status, buf, 0, file, false, false, none⟩

/-- The loop over the entries. -/
def scanFiles (steps : Nat) (proc : Proc) : List (List UInt8) → Cells → Cells → Scan → Except Fault Scan
  | [], _, _, state => .ok state
  | entry :: rest, status, buf, state =>
      if 0 < state.unfound ∨ 0 < state.offline then
        match pidInt entry with
        | none => scanFiles steps proc rest status buf state
        | some pid => do
            let (status, buf) ← openStatus pid status buf
            match proc.status pid with
            | none => scanFiles steps proc rest status buf state
            | some file => do
                let last ← readStatus steps (opened status buf file)
                match last.cmdLine with
                | none => scanFiles steps proc rest last.status last.buf state
                | some line =>
                    scanFiles steps proc rest last.status last.buf
                      (checkNames line state.list state.unfound state.offline)
      else .ok state

/-- `find_processes`, with its arrays as it finds them on the stack. -/
def findProcessesIn (steps : Nat) (proc : Option Proc) (list : List AppMonitor) (status buf : Cells) :
    Except Fault (Int × List AppMonitor) :=
  if list.length = 0 then .ok (0, list)
  else
    match proc with
    | none => .ok (-1, list)
    | some proc => do
        let reset := list.map fun monitor => { monitor with valid := false }
        let unfound := reset.countP fun monitor => monitor.online
        let offline := reset.countP fun monitor => !monitor.online
        let scanned ← scanFiles steps proc proc.entries status buf ⟨reset, unfound, offline⟩
        .ok (scanned.unfound, scanned.list)

/-- `/proc` as it is looked up with pids in an `int`. -/
def Proc.clamped (proc : Proc) : Proc := ⟨proc.entries, fun pid => proc.status (min pid intMax)⟩

/-- What has not ended spins. -/
def orSpinning {α : Type} : Option α → Except Fault α
  | none => .error .spinning
  | some result => .ok result

section Arrays

variable {status buf : Cells} {pid : Nat}

/-- The path of a status file fits into the array. -/
theorem openStatus_ok (small : pid ≤ intMax) : ∃ path terminated, openStatus pid status buf = .ok (path, terminated) := by
  have digits : (decimal pid).length ≤ 10 := by
    rw [decimal, List.length_map, Nat.length_toDigits_le_iff (by decide) (by decide)]
    exact Nat.lt_of_le_of_lt small (by decide)
  have fits : 0 + (ascii "/proc/" ++ decimal pid ++ ascii "/status" ++ [0]).length ≤ 128 := by
    have front : (ascii "/proc/").length = 6 := rfl
    have back : (ascii "/status").length = 7 := rfl
    simp only [List.length_append, List.length_singleton, front, back]
    omega
  obtain ⟨terminated, first, -⟩ := writeCells_ok buf (show 0 + [(0 : UInt8)].length ≤ 128 by decide)
  obtain ⟨path, second, -⟩ := writeCells_ok status fits
  refine ⟨path, terminated, ?_⟩
  rw [openStatus, first]
  show (writeCells _ _ _ >>= _) = _
  rw [second]
  rfl

/-- **The loop over a status file is `readName`**, and leaves its arrays to the next one. -/
theorem readStatus_opened (steps : Nat) (status buf : Cells) (file : List UInt8) :
    EndsAs (readStatus steps (opened status buf file)) (readName steps ⟨[], file, false⟩) :=
  readStatus_eq steps (Nat.zero_le _) rfl

/-- **The scan is `scan`.** -/
theorem scanFiles_eq (steps : Nat) (proc : Proc) (entries : List (List UInt8)) (state : Scan) :
    scanFiles steps proc entries status buf state = orSpinning (scan steps proc.clamped entries state) := by
  induction entries generalizing status buf state with
  | nil => rfl
  | cons entry rest ih =>
    rw [scanFiles, scan]
    by_cases looks : 0 < state.unfound ∨ 0 < state.offline
    · rw [if_pos looks, if_pos looks]
      cases pid : pidOf entry with
      | none =>
        have int : pidInt entry = none := by rw [pidInt, pid, Option.map_none]
        have skipped : cmdLine steps proc.clamped entry = some none := by rw [cmdLine, pid, Option.bind_none]
        rw [int, skipped]
        exact ih state
      | some pid' =>
        have int : pidInt entry = some (min pid' intMax) := by rw [pidInt, pid, Option.map_some]
        have looked : (pidOf entry).bind proc.clamped.status = proc.status (min pid' intMax) := by
          rw [pid, Option.bind_some]
          rfl
        obtain ⟨path, terminated, run⟩ := @openStatus_ok status buf _ (Nat.min_le_right pid' intMax)
        rw [cmdLine, looked]
        simp only [int, run, bind, Except.bind]
        cases proc.status (min pid' intMax) with
        | none => exact ih state
        | some file =>
          have loop := readStatus_opened steps path terminated file
          cases ended : readName steps ⟨[], file, false⟩ with
          | none =>
            rw [ended] at loop
            have spins : readStatus steps (opened path terminated file) = .error .spinning := loop
            simp only [spins, ended]
            rfl
          | some found =>
            rw [ended] at loop
            obtain ⟨last, run, cmdLine⟩ := loop
            simp only [run, cmdLine, ended]
            cases found with
            | none => exact ih state
            | some line => exact ih _
    · rw [if_neg looks, if_neg looks]
      rfl

/-- **`find_processes` in its arrays is `findProcesses`.** -/
theorem findProcessesIn_eq (steps : Nat) (proc : Option Proc) (list : List AppMonitor) :
    findProcessesIn steps proc list status buf =
      orSpinning (findProcesses steps (proc.map Proc.clamped) list) := by
  unfold findProcessesIn findProcesses
  split
  · rfl
  · cases proc with
    | none => rfl
    | some proc =>
      show (scanFiles steps proc proc.entries status buf _ >>= _) = _
      rw [scanFiles_eq]
      show _ = orSpinning (scan steps proc.clamped proc.entries _ >>= _)
      cases scan steps proc.clamped proc.entries _ with
      | none => rfl
      | some scanned => rfl

end Arrays

/-! ### Scans that end -/

/-- The status file of an entry, if there is one that can be opened. -/
def Proc.fileOf (proc : Proc) (entry : List UInt8) : Option (List UInt8) := (pidInt entry).bind proc.status

/-- The Name text of an entry. -/
def Proc.nameOf (proc : Proc) (entry : List UInt8) : Option (List UInt8) := (proc.fileOf entry).bind nameText

/-- Every name has been seen before the first file that is not short. -/
def InTime (proc : Proc) (list : List AppMonitor) (texts entries : List (List UInt8)) : Prop :=
  ∀ before entry rest file, entries = before ++ entry :: rest → proc.fileOf entry = some file → ¬ Short file →
    ∀ monitor ∈ list, hit (texts ++ before.filterMap proc.nameOf) monitor.name = true

/-- The state of a scan in which these texts were seen. -/
def marked (texts : List (List UInt8)) (list : List AppMonitor) : Scan :=
  ⟨list.map (mark texts), unfoundIn texts list, offlineIn texts list⟩

section Scans

variable {steps : Nat} {proc : Proc} {list : List AppMonitor} {texts entries rest : List (List UInt8)}
  {entry : List UInt8} {cmd : Option (List UInt8)}

/-- A scan goes on while a name has not been seen. -/
theorem marked_looks_iff : (0 < (marked texts list).unfound ∨ 0 < (marked texts list).offline) ↔
    ¬ ∀ monitor ∈ list, hit texts monitor.name = true := by
  constructor
  · intro looks all
    have unfound : unfoundIn texts list = 0 :=
      List.countP_eq_zero.mpr fun monitor member => by simp [all monitor member]
    have offline : offlineIn texts list = 0 :=
      List.countP_eq_zero.mpr fun monitor member => by simp [all monitor member]
    simp only [marked, unfound, offline] at looks
    omega
  · intro unseen
    by_contra done
    simp only [marked] at done
    exact unseen fun monitor member => hit_of_zero (by omega) (by omega) member

theorem cmdLine_fileOf (steps : Nat) (proc : Proc) (entry : List UInt8) : cmdLine steps proc.clamped entry =
    match proc.fileOf entry with
    | none => some none
    | some file => readName steps ⟨[], file, false⟩ := by
  rw [cmdLine, Proc.fileOf, pidInt]
  cases pidOf entry with
  | none => rfl
  | some pid => rfl

/-- Before anything has been read of a file. -/
theorem good_start (file : List UInt8) : Reader.Good ⟨[], file, false⟩ :=
  ⟨Nat.zero_le _, fun ended => absurd ended Bool.false_ne_true⟩

/-- **A file that is short gives its Name text.** -/
theorem cmdLine_short (short : ∀ file, proc.fileOf entry = some file → Short file ∧ file.length < steps) :
    cmdLine steps proc.clamped entry = some (proc.nameOf entry) := by
  rw [cmdLine_fileOf, Proc.nameOf]
  cases found : proc.fileOf entry with
  | none => rfl
  | some file =>
    obtain ⟨short, enough⟩ := short file found
    exact readName_short (good_start file) short enough

theorem short_of_cmdLine (ends : cmdLine steps proc.clamped entry = some cmd) :
    (∀ file, proc.fileOf entry = some file → Short file) ∧ cmd = proc.nameOf entry := by
  rw [cmdLine_fileOf] at ends
  rw [Proc.nameOf]
  cases found : proc.fileOf entry with
  | none =>
    rw [found] at ends
    exact ⟨fun file same => absurd same (Option.some_ne_none file).symm, (Option.some.inj ends).symm⟩
  | some file =>
    rw [found] at ends
    obtain ⟨short, text⟩ := short_of_readName (good_start file) ends
    exact ⟨fun other same => Option.some.inj same ▸ short, text⟩

/-- **An entry that has been read** adds its text to what was seen. -/
theorem scan_marked (looks : ¬ ∀ monitor ∈ list, hit texts monitor.name = true)
    (read : cmdLine steps proc entry = some cmd) :
    scan steps proc (entry :: rest) (marked texts list) =
      scan steps proc rest (marked (texts ++ cmd.toList) list) := by
  rw [scan, if_pos (marked_looks_iff.mpr looks), read]
  cases cmd with
  | none => rw [Option.toList_none, List.append_nil]
  | some line =>
    have step := checkNames_mark texts line list 0 0
    simp only [Int.zero_add] at step
    show scan steps proc rest (checkNames line (list.map (mark texts)) (unfoundIn texts list)
      (offlineIn texts list)) = _
    rw [step]
    rfl

theorem inTime_cons : InTime proc list texts (entry :: rest) ↔
    (∀ file, proc.fileOf entry = some file → ¬ Short file →
      ∀ monitor ∈ list, hit texts monitor.name = true) ∧
    InTime proc list (texts ++ (proc.nameOf entry).toList) rest := by
  have collected (before : List (List UInt8)) : texts ++ (entry :: before).filterMap proc.nameOf =
      texts ++ (proc.nameOf entry).toList ++ before.filterMap proc.nameOf := by
    rw [List.append_assoc, List.filterMap_cons]
    cases proc.nameOf entry with
    | none => rfl
    | some text => rfl
  constructor
  · intro inTime
    refine ⟨fun file found long monitor member => ?_, fun before other more file same found long => ?_⟩
    · have seen := inTime [] entry rest file rfl found long monitor member
      rwa [List.filterMap_nil, List.append_nil] at seen
    · rw [← collected]
      exact inTime (entry :: before) other more file (by rw [same, List.cons_append]) found long
  · rintro ⟨first, later⟩ before other more file same found long
    cases before with
    | nil =>
      obtain ⟨rfl, rfl⟩ := List.cons_eq_cons.mp same
      rw [List.filterMap_nil, List.append_nil]
      exact first file found long
    | cons same' before =>
      obtain ⟨rfl, behind⟩ := List.cons_eq_cons.mp same
      rw [collected]
      exact later before other more file behind found long

/-- When every name has been seen, there is time. -/
theorem inTime_of_hit (all : ∀ monitor ∈ list, hit texts monitor.name = true) :
    InTime proc list texts entries := by
  intro before entry rest file _ _ _ monitor member
  rw [hit_append, all monitor member, Bool.true_or]

/-- **A scan ends** in as many iterations a file as the longest file has bytes. -/
theorem scan_ends (inTime : InTime proc list texts entries)
    (enough : ∀ entry ∈ entries, ∀ file, proc.fileOf entry = some file → file.length < steps) :
    ∃ state, scan steps proc.clamped entries (marked texts list) = some state := by
  induction entries generalizing texts with
  | nil => exact ⟨_, rfl⟩
  | cons entry rest ih =>
    obtain ⟨first, later⟩ := inTime_cons.mp inTime
    by_cases all : ∀ monitor ∈ list, hit texts monitor.name = true
    · exact ⟨_, if_neg fun looks => marked_looks_iff.mp looks all⟩
    · have read : cmdLine steps proc.clamped entry = some (proc.nameOf entry) := by
        refine cmdLine_short fun file found => ⟨?_, enough entry List.mem_cons_self file found⟩
        by_contra long
        exact all (first file found long)
      rw [scan_marked all read]
      exact ih later fun other member => enough other (List.mem_cons_of_mem _ member)

/-- **Only such a scan ends.** -/
theorem inTime_of_scan {state : Scan} (ends : scan steps proc.clamped entries (marked texts list) = some state) :
    InTime proc list texts entries := by
  induction entries generalizing texts with
  | nil =>
    intro before entry rest file same
    exact absurd same.symm (List.append_ne_nil_of_right_ne_nil before (List.cons_ne_nil _ _))
  | cons entry rest ih =>
    by_cases all : ∀ monitor ∈ list, hit texts monitor.name = true
    · exact inTime_of_hit all
    · cases read : cmdLine steps proc.clamped entry with
      | none =>
        rw [scan, if_pos (marked_looks_iff.mpr all), read] at ends
        cases ends
      | some cmd =>
        obtain ⟨short, text⟩ := short_of_cmdLine read
        rw [scan_marked all read, text] at ends
        exact inTime_cons.mpr ⟨fun file found long => absurd (short file found) long, ih ends⟩

/-- The files of a directory have a longest one. -/
theorem exists_enough (proc : Proc) (entries : List (List UInt8)) :
    ∃ steps, ∀ entry ∈ entries, ∀ file, proc.fileOf entry = some file → file.length < steps := by
  induction entries with
  | nil => exact ⟨0, fun _ member => absurd member List.not_mem_nil⟩
  | cons entry rest ih =>
    obtain ⟨steps, enough⟩ := ih
    refine ⟨steps + ((proc.fileOf entry).getD []).length + 1, List.forall_mem_cons.mpr ⟨?_, ?_⟩⟩
    · intro file found
      rw [found, Option.getD_some]
      omega
    · intro other member file found
      have less := enough other member file found
      omega

theorem ok_ne_error {α : Type} (result : α) (fault : Fault) : (.ok result : Except Fault α) ≠ .error fault := by
  intro same
  cases same

theorem spinning_ne_outside {α : Type} : (.error .spinning : Except Fault α) ≠ .error .outside := by
  intro same
  cases same

/-- A scan that has not ended has left no array. -/
theorem orSpinning_ne_outside {α : Type} (result : Option α) : orSpinning result ≠ .error .outside := by
  cases result with
  | none => exact spinning_ne_outside
  | some result => exact ok_ne_error result .outside

theorem readStatus_ne_outside (steps : Nat) (status buf : Cells) (file : List UInt8) :
    readStatus steps (opened status buf file) ≠ .error .outside := by
  have loop := readStatus_opened steps status buf file
  cases ended : readName steps ⟨[], file, false⟩ with
  | none =>
    rw [ended] at loop
    rw [show readStatus steps (opened status buf file) = .error .spinning from loop]
    exact spinning_ne_outside
  | some cmdLine =>
    rw [ended] at loop
    obtain ⟨last, run, -⟩ := loop
    rw [run]
    exact ok_ne_error last .outside

/-- **When the loop over a status file ends.** -/
theorem readStatus_ends_iff (status buf : Cells) (file : List UInt8) :
    (∃ steps last, readStatus steps (opened status buf file) = .ok last) ↔ Short file := by
  constructor
  · rintro ⟨steps, last, run⟩
    have loop := readStatus_opened steps status buf file
    cases ended : readName steps ⟨[], file, false⟩ with
    | none =>
      rw [ended] at loop
      exact absurd (run.symm.trans loop) (ok_ne_error last .spinning)
    | some cmdLine => exact (short_of_readName (good_start file) ended).1
  · intro short
    have loop := readStatus_opened (file.length + 1) status buf file
    have read : readName (file.length + 1) ⟨[], file, false⟩ = some (nameText file) :=
      readName_short (good_start file) short (Nat.lt_succ_self _)
    rw [read] at loop
    obtain ⟨last, run, -⟩ := loop
    exact ⟨_, last, run⟩

/-- **When `find_processes` ends.** -/
theorem findProcessesIn_ends_iff (proc : Proc) (list : List AppMonitor) (status buf : Cells) :
    (∃ steps result, findProcessesIn steps (some proc) list status buf = .ok result) ↔
      InTime proc list [] proc.entries := by
  cases list with
  | nil => exact ⟨fun _ => inTime_of_hit fun _ member => absurd member List.not_mem_nil, fun _ => ⟨0, _, rfl⟩⟩
  | cons first others =>
    obtain ⟨reset, unfound, offline⟩ := reset_mark (first :: others)
    have nonempty : ¬ (first :: others).length = 0 := Nat.succ_ne_zero others.length
    have unfolded (steps : Nat) : findProcesses steps (some proc.clamped) (first :: others) =
        (scan steps proc.clamped proc.entries (marked [] (first :: others))).map fun scanned =>
          (scanned.unfound, scanned.list) := by
      rw [findProcesses, if_neg nonempty]
      simp only [reset, unfound, offline]
      show (scan steps proc.clamped proc.entries (marked [] (first :: others)) >>= _) = _
      cases scan steps proc.clamped proc.entries (marked [] (first :: others)) with
      | none => rfl
      | some scanned => rfl
    constructor
    · rintro ⟨steps, result, run⟩
      rw [findProcessesIn_eq, Option.map_some, unfolded] at run
      cases ended : scan steps proc.clamped proc.entries (marked [] (first :: others)) with
      | none =>
        rw [ended] at run
        exact absurd run.symm (ok_ne_error result .spinning)
      | some state => exact inTime_of_scan ended
    · intro inTime
      obtain ⟨steps, enough⟩ := exists_enough proc proc.entries
      obtain ⟨state, ended⟩ := scan_ends inTime enough
      refine ⟨steps, (state.unfound, state.list), ?_⟩
      rw [findProcessesIn_eq, Option.map_some, unfolded, ended]
      rfl

end Scans

/-- **When a scan of `/proc` ends.** It never leaves its arrays. Its loop over a status file ends if and only if
the file is short; so the scan ends if and only if every name it looks for is part of the Name text of an
entry before the first one whose file is not. -/
theorem find_processes_ends_iff (proc : Proc) (list : List AppMonitor) (status buf : Cells) :
    ((∀ steps, findProcessesIn steps (some proc) list status buf ≠ .error .outside) ∧
      ((∃ steps result, findProcessesIn steps (some proc) list status buf = .ok result) ↔
        ∀ before entry rest file, proc.entries = before ++ entry :: rest → proc.fileOf entry = some file →
          ¬ Short file → ∀ monitor ∈ list, ∃ text ∈ before.filterMap proc.nameOf, monitor.name <:+: text)) ∧
    ∀ file : List UInt8, (∀ steps, readStatus steps (opened status buf file) ≠ .error .outside) ∧
      ((∃ steps last, readStatus steps (opened status buf file) = .ok last) ↔ Short file) := by
  refine ⟨⟨fun steps => ?_, ?_⟩, fun file => ⟨fun steps => readStatus_ne_outside steps status buf file,
    readStatus_ends_iff status buf file⟩⟩
  · rw [findProcessesIn_eq]
    exact orSpinning_ne_outside _
  · rw [findProcessesIn_ends_iff]
    unfold InTime
    simp only [List.nil_append, hit_infix_iff]

/-- A file of 127 bytes without a line end is never read to its end. -/
theorem full_line_spins : ¬ ∃ steps last,
    readStatus steps (opened (List.Vector.replicate 128 0) (List.Vector.replicate 128 0)
      (List.replicate 127 120)) = .ok last := by
  intro ends
  have short := (readStatus_ends_iff _ _ _).mp ends
  have less := short [] (List.replicate 127 120) [] (List.append_nil _).symm
    (fun byte member => by rw [List.eq_of_mem_replicate member]; rfl) (by decide)
  rw [List.length_replicate] at less
  exact absurd less (by decide)

end Baps.Procwatch
