/-
**procwatch: the line loop in its arrays.**

`find_processes` fills `buf[128]` from a status file, copies a line into `status[128]`, and moves what follows
it to the front of `buf`. Here every access to the two arrays is checked, and one outside them is a fault;
so is a loop that has not ended in the iterations it was given.

* `shift_ok`, `extract_ok` — the two inner loops stay inside the arrays, and do what `takeLine` does.
* `body_ok` — **one iteration** is inside, and is one of `readName`.
* `readStatus_eq` — **the loop is `readName`**: it never leaves the arrays, and it spins if `readName` does.
-/

import Baps.Procwatch.NameLine
import Baps.Memory.Buffer

namespace Baps.Procwatch

open Memory

/-! ### The arrays -/

/-- What goes wrong: an access outside an array, or a loop that does not end. -/
inductive Fault
  | outside
  | spinning
  deriving DecidableEq, Repr

/-- `char [128]`. -/
abbrev Cells := List.Vector UInt8 128

/-- A byte of an array. -/
def readCell (cells : Cells) (i : Nat) : Except Fault UInt8 :=
  match cells.toList[i]? with
  | some byte => .ok byte
  | none => .error .outside

/-- Bytes into an array. -/
def writeCells (cells : Cells) (i : Nat) (bytes : List UInt8) : Except Fault Cells :=
  match store cells i bytes with
  | some stored => .ok stored
  | none => .error .outside

/-- The string in an array. -/
def stringIn (cells : Cells) : Except Fault (List UInt8) :=
  if cells.toList.contains 0 then .ok (cells.toList.takeWhile (· ≠ 0)) else .error .outside

/-! ### The code -/

/-- The loop that moves the bytes from `x` on to `y`, with so many of them left. -/
def shift : Nat → Nat → Nat → Cells → Except Fault (Cells × Nat)
  | 0, _, y, buf => .ok (buf, y)
  | left + 1, x, y, buf => do
      let byte ← readCell buf x
      let buf ← writeCells buf y [byte]
      shift left (x + 1) (y + 1) buf

/-- What the loop that extracts a line leaves. -/
structure Extracted where
  status : Cells
  buf : Cells
  n : Nat
  validLine : Bool

/-- The loop that extracts a line from `n` bytes, at byte `x`, with so many of them left. -/
def extract (n : Nat) : Nat → Nat → Cells → Cells → Except Fault Extracted
  | 0, _, status, buf => .ok ⟨status, buf, n, false⟩
  | left + 1, x, status, buf => do
      let byte ← readCell buf x
      if isLineEnd byte then
        let status ← writeCells status x [0]
        let (buf, y) ← shift (n - (x + 1)) (x + 1) 0 buf
        let buf ← writeCells buf y [0]
        .ok ⟨status, buf, y, true⟩
      else
        let status ← writeCells status x [clean byte]
        extract n left (x + 1) status buf

/-- The variables of the loop over a status file, what has not been read of it, and `feof`. -/
structure Locals where
  status : Cells
  buf : Cells
  n : Nat
  file : List UInt8
  eof : Bool
  validLine : Bool
  cmdLine : Option (List UInt8)

/-- An iteration of the loop. -/
def Locals.body (locals : Locals) : Except Fault Locals :=
  -- the size that is asked for wraps round
  if bufRoom < locals.n then .error .outside
  else do
    let data := locals.file.take (bufRoom - locals.n)
    let buf ← writeCells locals.buf locals.n data
    let n := locals.n + data.length
    let extracted ← extract n (min n 128) 0 locals.status buf
    let next : Locals :=
      { status := extracted.status
        buf := extracted.buf
        n := extracted.n
        file := locals.file.drop (bufRoom - locals.n)
        eof := locals.eof || decide (locals.file.length < bufRoom - locals.n)
        validLine := extracted.validLine
        cmdLine := none }
    if next.validLine then
      let line ← stringIn next.status
      .ok { next with cmdLine := (strstr statusLineArg line).map fun found => found.drop statusLineArg.length }
    else .ok next

/-- The loop, for so many iterations at most. It ends where the condition fails, or a Name line is found. -/
def readStatus : Nat → Locals → Except Fault Locals
  | 0, locals => if locals.validLine || !locals.eof then .error .spinning else .ok locals
  | steps + 1, locals =>
      if locals.validLine || !locals.eof then do
        let next ← locals.body
        if next.validLine && next.cmdLine.isSome then .ok next else readStatus steps next
      else .ok locals

/-! ### Inside the arrays -/

section Inside

variable {cells status buf : Cells} {n x y left i : Nat} {bytes : List UInt8}

theorem length_cells (cells : Cells) : cells.toList.length = 128 := cells.toList_length

theorem length_front (small : n ≤ 127) : (front cells n).length = n := by
  rw [front, List.length_take, length_cells]
  omega

theorem readCell_ok (here : i < cells.toList.length) : readCell cells i = .ok cells.toList[i] := by
  rw [readCell, List.getElem?_eq_getElem here]

theorem writeCells_ok (cells : Cells) (inside : i + bytes.length ≤ 128) :
    ∃ stored, writeCells cells i bytes = .ok stored ∧
      stored.toList = cells.toList.take i ++ bytes ++ cells.toList.drop (i + bytes.length) := by
  unfold writeCells store
  rw [dif_pos inside]
  exact ⟨_, rfl, rfl⟩

/-- One byte into an array: what it leaves before, and behind. -/
theorem writeCells_one (cells : Cells) (byte : UInt8) (inside : i < 128) :
    ∃ stored, writeCells cells i [byte] = .ok stored ∧
      front stored i = front cells i ∧ front stored (i + 1) = front cells i ++ [byte] ∧
      stored.toList.drop (i + 1) = cells.toList.drop (i + 1) := by
  obtain ⟨stored, run, list⟩ := @writeCells_ok i [byte] cells inside
  have before : (cells.toList.take i).length = i := by
    rw [List.length_take, length_cells, Nat.min_eq_left inside.le]
  have upto : (cells.toList.take i ++ [byte]).length = i + 1 := by
    rw [List.length_append, before, List.length_singleton]
  refine ⟨stored, run, ?_, ?_, ?_⟩
  · rw [front, list, List.append_assoc, List.take_append_of_le_length before.ge, List.take_of_length_le before.le]
    rfl
  · rw [front, list, List.take_append_of_le_length upto.ge, List.take_of_length_le upto.le]
    rfl
  · rw [list, List.length_singleton]
    exact List.drop_left' upto

/-- **The bytes move to the front.** -/
theorem shift_ok (inside : x + left ≤ 128) (behind : y ≤ x) : ∃ moved, shift left x y buf = .ok (moved, y + left) ∧
    front moved (y + left) = front buf y ++ (buf.toList.drop x).take left := by
  induction left generalizing x y buf with
  | zero => exact ⟨buf, rfl, by rw [List.take_zero, List.append_nil, Nat.add_zero]⟩
  | succ left ih =>
    have here : x < buf.toList.length := by
      rw [length_cells]
      omega
    obtain ⟨stored, run, -, upto, rest⟩ := writeCells_one buf buf.toList[x] (show y < 128 by omega)
    obtain ⟨moved, moves, list⟩ :=
      @ih stored (x + 1) (y + 1) (by omega) (Nat.add_le_add_right behind 1)
    have same : stored.toList.drop (x + 1) = buf.toList.drop (x + 1) := by
      have more : x + 1 = y + 1 + (x - y) := by omega
      rw [more, ← List.drop_drop, rest, List.drop_drop]
    have first : (buf.toList.drop x).take (left + 1) = buf.toList[x] :: (buf.toList.drop (x + 1)).take left := by
      rw [List.drop_eq_getElem_cons here, List.take_succ_cons]
    have sum : y + (left + 1) = y + 1 + left := by omega
    refine ⟨moved, ?_, ?_⟩
    · rw [shift, readCell_ok here, sum]
      show (writeCells buf y [buf.toList[x]] >>= _) = _
      rw [run]
      exact moves
    · rw [sum, list, upto, same, first, List.append_assoc, List.singleton_append]

/-- The string in an array that has its bytes, and a zero behind them. -/
theorem stringIn_ok {text : List UInt8} (holds : front cells (i + 1) = text ++ [0]) (nonzero : 0 ∉ text) :
    stringIn cells = .ok text := by
  have parts : cells.toList = text ++ 0 :: cells.toList.drop (i + 1) := by
    rw [List.append_cons, ← holds, front, List.take_append_drop]
  have found : cells.toList.contains 0 = true := by
    rw [parts]
    exact List.contains_iff_mem.mpr (List.mem_append_right _ List.mem_cons_self)
  have chars : ∀ byte ∈ text, decide (byte ≠ 0) = true := fun byte member =>
    decide_eq_true fun zero => nonzero (zero ▸ member)
  rw [stringIn, if_pos found, parts, List.takeWhile_append_of_pos chars, List.takeWhile_cons_of_neg (by decide),
    List.append_nil]

theorem clean_ne_zero (byte : UInt8) : clean byte ≠ 0 := by
  unfold clean
  split
  · decide
  · rename_i shown
    rintro rfl
    exact shown (.inl (by decide))

/-- What is left of the buffer at a byte of it. -/
theorem drop_front (inside : x < n) (here : x < buf.toList.length) :
    (front buf n).drop x = buf.toList[x] :: (front buf n).drop (x + 1) := by
  have within : x < (front buf n).length := by
    rw [front, List.length_take]
    omega
  rw [List.drop_eq_getElem_cons within]
  exact congrArg (· :: _) List.getElem_take

/-- **A byte that ends the line** closes the string, and moves what is behind it to the front. -/
theorem extract_end (small : n ≤ 127) (inside : x < n) (here : x < buf.toList.length)
    (ends : isLineEnd buf.toList[x] = true) : ∃ stored moved,
      extract n (left + 1) x status buf = .ok ⟨stored, moved, n - (x + 1), true⟩ ∧
      front stored (x + 1) = front status x ++ [0] ∧
      front moved (n - (x + 1)) = (front buf n).drop (x + 1) := by
  obtain ⟨stored, writes, -, text, -⟩ := writeCells_one status 0 (show x < 128 by omega)
  obtain ⟨moved, moves, bytes⟩ := @shift_ok buf (x + 1) 0 (n - (x + 1)) (by omega) (Nat.zero_le _)
  rw [Nat.zero_add] at moves bytes
  obtain ⟨final, finishes, same, -, -⟩ := writeCells_one moved 0 (show n - (x + 1) < 128 by omega)
  refine ⟨stored, final, ?_, text, ?_⟩
  · rw [extract, readCell_ok here]
    show (if isLineEnd buf.toList[x] = true then _ else _) = _
    rw [if_pos ends, writes]
    show (shift _ _ _ _ >>= _) = _
    rw [moves]
    show (writeCells _ _ _ >>= _) = _
    rw [finishes]
    rfl
  · rw [same, bytes, front_zero, List.nil_append, front, List.drop_take]

/-- **Any other byte** is shown, and the loop goes on. -/
theorem extract_shown (inside : x < 128) (here : x < buf.toList.length)
    (plain : ¬ isLineEnd buf.toList[x] = true) : ∃ stored,
      extract n (left + 1) x status buf = extract n left (x + 1) stored buf ∧
      front stored (x + 1) = front status x ++ [clean buf.toList[x]] := by
  obtain ⟨stored, writes, -, text, -⟩ := writeCells_one status (clean buf.toList[x]) inside
  refine ⟨stored, ?_, text⟩
  rw [extract, readCell_ok here]
  show (if isLineEnd buf.toList[x] = true then _ else _) = _
  rw [if_neg plain, writes]
  rfl

variable {line rest : List UInt8}

/-- **A line comes out.** -/
theorem extract_line (small : n ≤ 127) (place : x + left = n) (nonzero : 0 ∉ front status x)
    (taken : takeLine ((front buf n).drop x) = some (line, rest)) :
    ∃ extracted, extract n left x status buf = .ok extracted ∧ extracted.validLine = true ∧ extracted.n ≤ 127 ∧
      front extracted.buf extracted.n = rest ∧ stringIn extracted.status = .ok (front status x ++ line) := by
  induction left generalizing x status line with
  | zero =>
    have none : (front buf n).drop x = [] := by
      apply List.drop_eq_nil_of_le
      rw [front, List.length_take]
      omega
    rw [none] at taken
    cases taken
  | succ left ih =>
    have here : x < buf.toList.length := by
      rw [length_cells]
      omega
    rw [drop_front (by omega) here, takeLine] at taken
    by_cases ends : isLineEnd buf.toList[x] = true
    · rw [if_pos ends, Option.some.injEq, Prod.mk.injEq] at taken
      obtain ⟨rfl, rfl⟩ := taken
      obtain ⟨stored, moved, run, text, bytes⟩ := @extract_end status buf n x left small (by omega) here ends
      refine ⟨_, run, rfl, ?_, bytes, ?_⟩
      · show n - (x + 1) ≤ 127
        omega
      · rw [List.append_nil]
        exact stringIn_ok text nonzero
    · rw [if_neg ends] at taken
      obtain ⟨⟨later, behind⟩, tail, eq⟩ := Option.map_eq_some_iff.mp taken
      rw [Prod.mk.injEq] at eq
      obtain ⟨rfl, rfl⟩ := eq
      obtain ⟨stored, step, text⟩ := @extract_shown status buf n x left (by omega) here ends
      have nonzero' : 0 ∉ front stored (x + 1) := by
        rw [text]
        intro member
        rcases List.mem_append.mp member with before | last
        · exact nonzero before
        · exact clean_ne_zero _ (List.mem_singleton.mp last).symm
      obtain ⟨extracted, run, valid, room, bytes, string⟩ := ih (by omega) nonzero' tail
      refine ⟨extracted, step.trans run, valid, room, bytes, ?_⟩
      rw [string, text, List.append_assoc, List.singleton_append]

/-- **No line comes out.** -/
theorem extract_none (small : n ≤ 127) (place : x + left = n) (taken : takeLine ((front buf n).drop x) = none) :
    ∃ shown, extract n left x status buf = .ok ⟨shown, buf, n, false⟩ := by
  induction left generalizing x status with
  | zero => exact ⟨status, rfl⟩
  | succ left ih =>
    have here : x < buf.toList.length := by
      rw [length_cells]
      omega
    rw [drop_front (by omega) here, takeLine] at taken
    by_cases ends : isLineEnd buf.toList[x] = true
    · rw [if_pos ends] at taken
      cases taken
    · rw [if_neg ends, Option.map_eq_none_iff] at taken
      obtain ⟨stored, step, -⟩ := @extract_shown status buf n x left (by omega) here ends
      obtain ⟨shown, run⟩ := ih (by omega) taken
      exact ⟨shown, step.trans run⟩

end Inside

/-! ### The loop -/

/-- The loop as it looks from outside: what is in the buffer, and what has not been read. -/
def Locals.reader (locals : Locals) : Reader := ⟨front locals.buf locals.n, locals.file, locals.eof⟩

section Loop

variable {locals : Locals}

/-- `fread` into the buffer. -/
theorem fread_ok (small : locals.n ≤ 127) : ∃ buf,
    writeCells locals.buf locals.n (locals.file.take (bufRoom - locals.n)) = .ok buf ∧
      locals.n + (locals.file.take (bufRoom - locals.n)).length ≤ 127 ∧
      front buf (locals.n + (locals.file.take (bufRoom - locals.n)).length) = locals.reader.fill.buf := by
  have room : locals.n + (locals.file.take (bufRoom - locals.n)).length ≤ 127 := by
    rw [List.length_take, bufRoom]
    omega
  obtain ⟨buf, writes, list⟩ := writeCells_ok locals.buf (Nat.le_succ_of_le room)
  refine ⟨buf, writes, room, ?_⟩
  have upto : (locals.buf.toList.take locals.n ++ locals.file.take (bufRoom - locals.n)).length =
      locals.n + (locals.file.take (bufRoom - locals.n)).length := by
    rw [List.length_append]
    exact congrArg (· + _) (length_front small)
  rw [front, list, List.take_append_of_le_length upto.ge, List.take_of_length_le upto.le]
  show _ = front locals.buf locals.n ++ locals.file.take (bufRoom - (front locals.buf locals.n).length)
  rw [length_front small]
  rfl

/-- What `fread` leaves of the file. -/
theorem fill_eq (small : locals.n ≤ 127) : locals.reader.fill =
    ⟨locals.reader.fill.buf, locals.file.drop (bufRoom - locals.n),
      locals.eof || decide (locals.file.length < bufRoom - locals.n)⟩ := by
  show Reader.mk _ (locals.file.drop (bufRoom - (front locals.buf locals.n).length))
    (locals.eof || decide (locals.file.length < bufRoom - (front locals.buf locals.n).length)) = _
  rw [length_front small]
  rfl

/-- **One iteration** stays inside the arrays, and does what one of `readName` does. -/
theorem body_ok (small : locals.n ≤ 127) : ∃ next, locals.body = .ok next ∧ next.n ≤ 127 ∧
    match takeLine locals.reader.fill.buf with
    | some (line, rest) => next.validLine = true ∧ next.reader = { locals.reader.fill with buf := rest } ∧
        next.cmdLine = (strstr statusLineArg line).map fun found => found.drop statusLineArg.length
    | none => next.validLine = false ∧ next.reader = locals.reader.fill ∧ next.cmdLine = none := by
  obtain ⟨buf, writes, room, filled⟩ := fread_ok small
  have most : min (locals.n + (locals.file.take (bufRoom - locals.n)).length) 128 =
      locals.n + (locals.file.take (bufRoom - locals.n)).length := by omega
  have running : ¬ bufRoom < locals.n := Nat.not_lt.mpr small
  unfold Locals.body
  rw [if_neg running, fill_eq small]
  show ∃ next, (writeCells _ _ _ >>= _) = _ ∧ _
  rw [writes]
  show ∃ next, (extract _ _ _ _ _ >>= _) = _ ∧ _
  rw [most, ← filled]
  cases taken : takeLine (front buf (locals.n + (locals.file.take (bufRoom - locals.n)).length)) with
  | none =>
    obtain ⟨shown, run⟩ := @extract_none locals.status buf _ 0 _ room (Nat.zero_add _) taken
    rw [run]
    exact ⟨_, rfl, room, rfl, rfl, rfl⟩
  | some result =>
    obtain ⟨line, rest⟩ := result
    obtain ⟨extracted, run, valid, room, bytes, string⟩ :=
      @extract_line locals.status buf _ 0 _ line rest room (Nat.zero_add _) List.not_mem_nil taken
    obtain ⟨status, buf, n, _⟩ := extracted
    subst valid
    rw [run]
    show ∃ next, (stringIn status >>= _) = _ ∧ _
    rw [string]
    refine ⟨_, rfl, room, rfl, ?_, rfl⟩
    exact congrArg (Reader.mk · _ _) bytes

/-- The condition of the loop. -/
def Locals.Going (locals : Locals) : Prop := (locals.validLine || !locals.eof) = true

theorem readStatus_stop (steps : Nat) (stop : ¬ locals.Going) : readStatus steps locals = .ok locals := by
  cases steps with
  | zero => exact if_neg stop
  | succ steps => exact if_neg stop

theorem readStatus_going (steps : Nat) (going : locals.Going) : readStatus (steps + 1) locals =
    locals.body >>= fun next => if next.validLine && next.cmdLine.isSome then .ok next else readStatus steps next :=
  if_pos going

/-- A run ends as `readName` does. -/
def EndsAs (run : Except Fault Locals) : Option (Option (List UInt8)) → Prop
  | none => run = .error .spinning
  | some cmdLine => ∃ last, run = .ok last ∧ last.cmdLine = cmdLine

/-- **The loop is `readName`**: it spins if that does, and otherwise ends with its `cmd_line`. -/
theorem readStatus_eq (steps : Nat) (small : locals.n ≤ 127) (going : locals.Going) :
    EndsAs (readStatus steps locals) (readName steps locals.reader) := by
  induction steps generalizing locals with
  | zero => exact if_pos going
  | succ steps ih =>
    obtain ⟨next, run, room, after⟩ := body_ok small
    have step : readStatus (steps + 1) locals =
        if next.validLine && next.cmdLine.isSome then .ok next else readStatus steps next := by
      rw [readStatus_going steps going, run]
      rfl
    rw [step, readName]
    cases taken : takeLine locals.reader.fill.buf with
    | none =>
      rw [taken] at after
      obtain ⟨valid, reader, cmdLine⟩ := after
      rw [valid, Bool.false_and, if_neg Bool.false_ne_true]
      have eof : next.eof = locals.reader.fill.eof := congrArg Reader.eof reader
      cases ended : locals.reader.fill.eof with
      | true =>
        have stop : ¬ next.Going := by
          rw [Locals.Going, valid, eof, ended]
          exact Bool.false_ne_true
        exact ⟨next, readStatus_stop steps stop, cmdLine⟩
      | false =>
        have more : next.Going := by
          rw [Locals.Going, eof, ended, Bool.not_false, Bool.or_true]
        show EndsAs _ (readName steps locals.reader.fill)
        rw [← reader]
        exact ih room more
    | some result =>
      obtain ⟨line, rest⟩ := result
      rw [taken] at after
      obtain ⟨valid, reader, cmdLine⟩ := after
      cases found : strstr statusLineArg line with
      | none =>
        rw [found, Option.map_none] at cmdLine
        have more : next.Going := by
          rw [Locals.Going, valid, Bool.true_or]
        rw [cmdLine, Option.isSome_none, Bool.and_false, if_neg Bool.false_ne_true]
        simp only [found]
        rw [← reader]
        exact ih room more
      | some text =>
        rw [found, Option.map_some] at cmdLine
        rw [valid, cmdLine, Option.isSome_some, Bool.and_true, if_pos rfl]
        simp only [found]
        exact ⟨next, rfl, cmdLine⟩

end Loop

end Baps.Procwatch
