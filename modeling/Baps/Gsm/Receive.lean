/-
**What `GSM_receive` writes into its buffer.**

The function takes as many bytes as the RXLVL register says, up to 255, and stores them into a static
buffer of 60. Line ends before the first character are skipped; from then on every byte is stored, a
line end as a zero. No zero is added at the end, and what was in the buffer stays behind the last byte.
`payload` is what is left of the bytes read after the leading line ends.

* `receiveStores_eq` — **the stores of a call**: the payload, from the start of the buffer.
* `receive_contained_iff` — **when a call stays in the buffer and leaves a zero in it**: the payload fits,
  and has a terminator or an old one is left.
* `receive_fresh_iff` — **when the string is independent of what was received before**: the payload has a
  terminator.
-/

import Baps.Gsm.Uart
import Baps.Memory.CString
import Mathlib.Data.List.TakeWhile

namespace Baps.Gsm

open Bus Wcfxs Memory

/-! ### The bytes read, and the stores -/

section Call

variable {β : Type} (wire : WideWire β) (port : Int)

/-- The low byte of the RXLVL register. -/
def rxLevel (spi : Spi β) : Nat := (fxReadSpi2uart wire port 0xC800 spi).1.toUInt8.toNat

/-- Bytes read from the receive FIFO. -/
def readBytes : Nat → Spi β → List UInt8
  | 0, _ => []
  | left + 1, spi =>
      let (temp, spi) := fxReadSpi2uart wire port 0x8000 spi
      temp.toUInt8 :: readBytes left spi

/-- The bytes a call reads. -/
def received (spi : Spi β) : List UInt8 :=
  readBytes wire port (rxLevel wire port spi) (fxReadSpi2uart wire port 0xC800 spi).2

/-- The stores of the loop of `GSM_receive`, from `keep_s` on. -/
def keepStores (kept : Nat) : List UInt8 → List Store
  | [] => []
  | char :: rest =>
      if isSeparator char then
        if kept > 0 then (kept, 0) :: keepStores (kept + 1) rest else keepStores kept rest
      else (kept, char) :: keepStores (kept + 1) rest

/-- The stores of a call. -/
def receiveStores (spi : Spi β) : List Store :=
  if rxLevel wire port spi = 0 then [(0, 0x78), (1, 0)] else keepStores 0 (received wire port spi)

theorem receiveLoop_eq (left : Nat) (kept : Nat × Bytes) (spi : Spi β) :
    (receiveLoop wire port left kept spi).1 = (readBytes wire port left spi).foldl keepChar kept := by
  induction left generalizing kept spi with
  | zero => rfl
  | succ left ih => exact ih _ _

theorem keepChar_stores (chars : List UInt8) (kept : Nat) (buffer : Bytes) :
    (chars.foldl keepChar (kept, buffer)).2 = writeAll buffer (keepStores kept chars) := by
  induction chars generalizing kept buffer with
  | nil => rfl
  | cons char rest ih =>
    rw [List.foldl_cons, keepStores, keepChar]
    by_cases separator : isSeparator char = true
    · rw [if_pos separator, if_pos separator]
      by_cases some : kept > 0
      · rw [if_pos some, if_pos some]
        exact ih _ _
      · rw [if_neg some, if_neg some]
        exact ih _ _
    · rw [if_neg separator, if_neg separator]
      exact ih _ _

/-- **A call makes these stores, and returns the string they leave.** -/
theorem gsmReceive_eq (bus : GsmBus β) :
    (gsmReceive wire port bus).2.buffer = writeAll bus.buffer (receiveStores wire port bus.spi) ∧
      (gsmReceive wire port bus).1 = cString (gsmReceive wire port bus).2.buffer := by
  have call : gsmReceive wire port bus =
      if rxLevel wire port bus.spi = 0 then
        (cString (write (write bus.buffer 0 0x78) 1 0),
          ⟨(fxReadSpi2uart wire port 0xC800 bus.spi).2, write (write bus.buffer 0 0x78) 1 0⟩)
      else
        let loop := receiveLoop wire port (rxLevel wire port bus.spi) (0, bus.buffer)
          (fxReadSpi2uart wire port 0xC800 bus.spi).2
        (cString loop.1.2, ⟨loop.2, loop.1.2⟩) := rfl
  rw [call, receiveStores]
  split
  · exact ⟨rfl, rfl⟩
  · refine ⟨?_, rfl⟩
    rw [← keepChar_stores, received, ← receiveLoop_eq]

end Call

/-! ### The payload -/

/-- What is stored for a byte: a zero for a line end. -/
def storedChar (char : UInt8) : UInt8 := if isSeparator char then 0 else char

/-- A byte that ends the string. -/
def isTerminator (char : UInt8) : Prop := isSeparator char = true ∨ char = 0

/-- The bytes that are stored. -/
def payload (chars : List UInt8) : List UInt8 := chars.dropWhile isSeparator

theorem storedChar_eq_zero {char : UInt8} : storedChar char = 0 ↔ isTerminator char := by
  unfold storedChar isTerminator
  by_cases separator : isSeparator char = true <;> simp [separator]

theorem keepStores_row (chars : List UInt8) {kept : Nat} (some : 0 < kept) :
    keepStores kept chars = row kept (chars.map storedChar) := by
  induction chars generalizing kept with
  | nil => rfl
  | cons char rest ih =>
    rw [keepStores, List.map_cons, row, storedChar]
    by_cases separator : isSeparator char = true
    · rw [if_pos separator, if_pos some, if_pos separator, ih (Nat.succ_pos kept)]
    · rw [if_neg separator, if_neg separator, ih (Nat.succ_pos kept)]

/-- **The stores of the loop**: the payload, from the start of the buffer. -/
theorem keepStores_eq (chars : List UInt8) :
    keepStores 0 chars = row 0 ((payload chars).map storedChar) := by
  induction chars with
  | nil => rfl
  | cons char rest ih =>
    rw [keepStores, payload]
    by_cases separator : isSeparator char = true
    · rw [if_pos separator, if_neg (Nat.lt_irrefl 0), List.dropWhile_cons_of_pos separator]
      exact ih
    · rw [if_neg separator, List.dropWhile_cons_of_neg separator, keepStores_row rest Nat.one_pos,
        List.map_cons, row, storedChar, if_neg separator]

section Stores

variable {β : Type} {wire : WideWire β} {port : Int} {spi : Spi β}

theorem receiveStores_eq (some : rxLevel wire port spi ≠ 0) :
    receiveStores wire port spi = row 0 ((payload (received wire port spi)).map storedChar) := by
  rw [receiveStores, if_neg some, keepStores_eq]

theorem length_readBytes (left : Nat) (spi : Spi β) : (readBytes wire port left spi).length = left := by
  induction left generalizing spi with
  | zero => rfl
  | succ left ih =>
    rw [readBytes, List.length_cons, ih]

/-- **The buffer after a call**: the payload in front, the old bytes behind it. -/
theorem buffer_after (some : rxLevel wire port spi ≠ 0) (buffer : Bytes) :
    (∀ i (inside : i < (payload (received wire port spi)).length),
      (gsmReceive wire port ⟨spi, buffer⟩).2.buffer i = storedChar (payload (received wire port spi))[i]) ∧
    ∀ a, (payload (received wire port spi)).length ≤ a →
      (gsmReceive wire port ⟨spi, buffer⟩).2.buffer a = buffer a := by
  rw [(gsmReceive_eq wire port ⟨spi, buffer⟩).1, receiveStores_eq some]
  obtain ⟨inside, outside⟩ := writeAll_row buffer 0 ((payload (received wire port spi)).map storedChar)
  refine ⟨fun i low => ?_, fun a high => outside a (.inr (by simpa using high))⟩
  have byte := inside i (by simpa using low)
  rw [Nat.zero_add] at byte
  rw [byte, List.getElem_map]

end Stores

/-! ### Staying in the buffer -/

section Contained

variable {β : Type} (wire : WideWire β) (port : Int)

/-- A call stores inside its buffer only, and leaves a terminating zero in it. -/
def Contained (bus : GsmBus β) : Prop :=
  (∀ store ∈ receiveStores wire port bus.spi, store.1 < bufferSize) ∧
    ∃ i < bufferSize, (gsmReceive wire port bus).2.buffer i = 0

/-- **When a call stays in its buffer.** Nothing was received; or the payload fits, and it has a
terminator or there is an old one behind it. -/
theorem receive_contained_iff (bus : GsmBus β) :
    Contained wire port bus ↔ rxLevel wire port bus.spi = 0 ∨
      (payload (received wire port bus.spi)).length ≤ bufferSize ∧
        ((∃ char ∈ payload (received wire port bus.spi), isTerminator char) ∨
          ∃ i, (payload (received wire port bus.spi)).length ≤ i ∧ i < bufferSize ∧ bus.buffer i = 0) := by
  by_cases empty : rxLevel wire port bus.spi = 0
  · refine ⟨fun _ => .inl empty, fun _ => ⟨?_, 1, by decide, ?_⟩⟩
    · rw [receiveStores, if_pos empty]
      decide
    · rw [(gsmReceive_eq wire port bus).1, receiveStores, if_pos empty]
      rfl
  · obtain ⟨front, back⟩ := buffer_after empty bus.buffer
    rw [or_iff_right empty, Contained, receiveStores_eq empty, row_inside_iff, List.map_eq_nil_iff,
      List.length_map, Nat.zero_add]
    generalize payload (received wire port bus.spi) = stored at front back ⊢
    have fits : stored = [] ∨ stored.length ≤ bufferSize ↔ stored.length ≤ bufferSize := by
      refine or_iff_right_of_imp fun none => ?_
      rw [none]
      exact Nat.zero_le _
    rw [fits]
    refine and_congr_right fun room => ?_
    constructor
    · rintro ⟨i, inside, nul⟩
      by_cases low : i < stored.length
      · rw [front i low, storedChar_eq_zero] at nul
        exact .inl ⟨_, List.getElem_mem low, nul⟩
      · rw [back i (by omega)] at nul
        exact .inr ⟨i, by omega, inside, nul⟩
    · rintro (⟨char, member, ends⟩ | ⟨i, high, inside, nul⟩)
      · obtain ⟨i, low, rfl⟩ := List.mem_iff_getElem.mp member
        exact ⟨i, by omega, (front i low).trans (storedChar_eq_zero.mpr ends)⟩
      · exact ⟨i, inside, (back i high).trans nul⟩

end Contained

/-- A bus with characters in the receive FIFO. -/
def filledSpi (chars : List UInt8) : Spi (List UInt8) := ⟨-1, fun _ => 0, chars⟩

/-- 61 characters in the FIFO: the last of them is stored behind the buffer. -/
theorem long_line_overruns : ¬ Contained fifo 0 ⟨filledSpi (List.replicate 61 0x41), fun _ => 0⟩ := by
  have beyond : (60, 0x41) ∈ receiveStores fifo 0 (filledSpi (List.replicate 61 0x41)) := by
    decide +kernel
  exact fun contained => absurd (contained.1 _ beyond) (by decide)

/-! ### Stale text -/

section Fresh

variable {β : Type} (wire : WideWire β) (port : Int)

theorem cString_congr {first second : Bytes} {width : Nat} (nul : first width = 0)
    (same : ∀ i ≤ width, first i = second i) : cString first = cString second := by
  by_cases inside : width < bufferSize
  · have ranges : List.range bufferSize =
        List.range width ++ width :: List.range' (width + 1) (bufferSize - width - 1) := by
      have total : bufferSize = width + (bufferSize - width - 1 + 1) := by omega
      rw [← List.range'_succ, List.range'_eq_map_range, ← List.range_add, ← total]
    have fronts : (List.range width).map first = (List.range width).map second :=
      List.map_congr_left fun i member => same i (List.mem_range.mp member).le
    rw [cString, cString, ranges, List.map_append, List.map_append, List.map_cons, List.map_cons, fronts,
      ← same width le_rfl, nul, List.takeWhile_append, List.takeWhile_append]
    simp
  · have all : (List.range bufferSize).map first = (List.range bufferSize).map second :=
      List.map_congr_left fun i member => same i (by have := List.mem_range.mp member; omega)
    rw [cString, cString, all]

section Unterminated

variable {wire port} {spi : Spi β} (some : rxLevel wire port spi ≠ 0)
  (plain : ∀ char ∈ payload (received wire port spi), storedChar char ≠ 0)

include some plain

/-- A payload without a terminator is the whole string if the buffer was empty. -/
theorem receive_after_empty (few : (payload (received wire port spi)).length ≤ 59) :
    (gsmReceive wire port ⟨spi, fun _ => 0⟩).1 = (payload (received wire port spi)).map storedChar := by
  obtain ⟨front, back⟩ := buffer_after some fun _ => 0
  rw [(gsmReceive_eq wire port _).2]
  have room : ((payload (received wire port spi)).map storedChar).length < bufferSize := by
    rw [List.length_map]
    exact Nat.lt_succ_of_le few
  refine cString_eq room (fun i inside => ?_) ?_ ?_
  · rw [front i (by simpa using inside)]
    simp
  · exact back _ (by simp)
  · simpa using plain

/-- If there was text all over it, that goes on to the end of the buffer. -/
theorem receive_after_text :
    (gsmReceive wire port ⟨spi, fun _ => 0x41⟩).1.length = bufferSize := by
  obtain ⟨front, back⟩ := buffer_after some fun _ => 0x41
  rw [(gsmReceive_eq wire port _).2]
  have stale : cString (gsmReceive wire port ⟨spi, fun _ => 0x41⟩).2.buffer =
      (List.range bufferSize).map (gsmReceive wire port ⟨spi, fun _ => 0x41⟩).2.buffer := by
    refine List.takeWhile_eq_self_iff.mpr fun char member => ?_
    obtain ⟨i, -, rfl⟩ := List.mem_map.mp member
    by_cases low : i < (payload (received wire port spi)).length
    · rw [front i low]
      simpa using plain _ (List.getElem_mem low)
    · rw [back i (by omega)]
      decide
  rw [stale, List.length_map, List.length_range]

end Unterminated

/-- **When the string is independent of what was received before**, for drains that are shorter than the
buffer: nothing was received, or the payload has a terminator. -/
theorem receive_fresh_iff (spi : Spi β) (short : rxLevel wire port spi ≤ 59) :
    (∀ first second : Bytes,
      (gsmReceive wire port ⟨spi, first⟩).1 = (gsmReceive wire port ⟨spi, second⟩).1) ↔
    rxLevel wire port spi = 0 ∨ ∃ char ∈ payload (received wire port spi), isTerminator char := by
  by_cases empty : rxLevel wire port spi = 0
  · refine ⟨fun _ => .inl empty, fun _ first second => ?_⟩
    have nothing : ∀ buffer, (gsmReceive wire port ⟨spi, buffer⟩).1 = nothing := fun buffer => by
      rw [(gsmReceive_eq wire port _).2, (gsmReceive_eq wire port _).1, receiveStores, if_pos empty]
      exact cString_nothing buffer
    rw [nothing, nothing]
  · rw [or_iff_right empty]
    constructor
    · intro same
      by_contra unterminated
      have plain : ∀ char ∈ payload (received wire port spi), storedChar char ≠ 0 :=
        fun char member nul => unterminated ⟨char, member, storedChar_eq_zero.mp nul⟩
      have few : (payload (received wire port spi)).length ≤ 59 := by
        have all : (payload (received wire port spi)).length ≤ (received wire port spi).length :=
          (List.dropWhile_suffix _).length_le
        rw [received, length_readBytes] at all
        exact all.trans short
      have lengths := congrArg List.length (same (fun _ => 0) fun _ => 0x41)
      rw [receive_after_empty empty plain few, receive_after_text empty plain, List.length_map] at lengths
      exact absurd lengths (by unfold bufferSize; omega)
    · rintro ⟨char, member, ends⟩ first second
      obtain ⟨i, low, rfl⟩ := List.mem_iff_getElem.mp member
      have front := fun buffer => (buffer_after empty buffer).1
      simp only [(gsmReceive_eq wire port _).2]
      refine cString_congr ((front first i low).trans (storedChar_eq_zero.mpr ends)) fun j before => ?_
      rw [front first j (by omega), front second j (by omega)]

end Fresh

/-- A RING that is ended by a line end is received as such over any old text. -/
theorem receive_fresh_ring :
    (gsmReceive fifo 0 ⟨filledSpi [0x32, 0x0d], fun _ => 0⟩).1 =
      (gsmReceive fifo 0 ⟨filledSpi [0x32, 0x0d], fun _ => 0x41⟩).1 :=
  (receive_fresh_iff fifo 0 (filledSpi [0x32, 0x0d]) (by decide +kernel)).mpr
    (.inr ⟨0x0d, by decide +kernel, .inl rfl⟩) _ _

/-- A stray line end after a RING: the RING is received again. -/
theorem stale_ring :
    rxLevel fifo 0 (filledSpi [0x0d]) ≤ 59 ∧
      (gsmReceive fifo 0 ⟨filledSpi [0x0d], write (fun _ => 0) 0 0x32⟩).1 = [0x32] ∧
      (gsmReceive fifo 0 ⟨filledSpi [0x0d], fun _ => 0⟩).1 = [] := by
  decide +kernel

end Baps.Gsm
