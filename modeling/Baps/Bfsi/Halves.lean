/-
**The halves of the DMA buffers.**

The DMA of the serial port runs round a receive and a transmit buffer, each of two halves of
`8 * samples_per_chunk` bytes, and interrupts at the end of a half. The interrupt looks where the DMA is,
and hands the callback a half of each. Behind the last byte the DMA may still point at the end of the
buffer, which stands for its beginning: the receive side takes that offset modulo 128, the size of the
buffer for eight samples, the transmit side does not.

* `didntswap_iff` — what the debugging counter counts: **halves handed out twice in a row**.
* `isrRead_right_iff` — **when the receive half is the one that is not being filled**: always for eight
  samples, and for no other number of them at every offset.
* `isrWrite_right_iff` — **when the transmit half is the one that is not being sent**: everywhere but at
  the end of the buffer.
-/

import Mathlib.Data.List.Chain
import Mathlib.Algebra.Group.Int.Defs
import Mathlib.Algebra.Group.Basic

namespace Baps.Bfsi

/-! ### The interrupt's choice -/

/-- `PING` and `PONG`. -/
inductive PingPong
  | ping
  | pong
  deriving DecidableEq, Repr

/-- What `bfsi_sport_init` is given, and the addresses of the two buffers. -/
structure Sport where
  samplesPerChunk : Int
  iRxBuffer1 : Int
  iTxBuffer1 : Int

/-- The debugging variables of the receive side. -/
structure ReadLog where
  readchunkFirst : Int
  readchunkSecond : Int
  readchunkDidntswap : Int
  lastreadpingpong : PingPong
  badX : Fin 5 → Int
  lastX : Fin 5 → Int
  logReadchunk : Int

/-- The debugging variables of the transmit side. -/
structure WriteLog where
  writechunkFirst : Int
  writechunkSecond : Int
  writechunkDidntswap : Int
  lastwritepingpong : PingPong

/-- Move the last offsets up, and put a new one in the last place. -/
def remember (lastX : Fin 5 → Int) (x : Int) (i : Fin 5) : Int :=
  if room : i.val + 1 < 5 then lastX ⟨i.val + 1, room⟩ else x

section Processing

variable (sport : Sport) (currAddr : Int)

/-- `isr_read_processing`, with the address of the receive DMA. `x & 0x7f` is `x` modulo 128, in two's
complement. -/
def isrReadProcessing (log : ReadLog) : Int × ReadLog :=
  let x := currAddr - sport.iRxBuffer1
  let (readchunk, readpingpong, log) :=
    if x % 128 ≥ 8 * sport.samplesPerChunk then
      (sport.iRxBuffer1, PingPong.ping, { log with readchunkFirst := log.readchunkFirst + 1 })
    else
      (sport.iRxBuffer1 + sport.samplesPerChunk * 8, PingPong.pong,
        { log with readchunkSecond := log.readchunkSecond + 1 })
  let log := { log with logReadchunk := readchunk, lastX := remember log.lastX x }
  let log :=
    if readpingpong = log.lastreadpingpong then
      { log with readchunkDidntswap := log.readchunkDidntswap + 1, badX := log.lastX }
    else log
  (readchunk, { log with lastreadpingpong := readpingpong })

/-- `isr_write_processing`, with the address of the transmit DMA. -/
def isrWriteProcessing (log : WriteLog) : Int × WriteLog :=
  let x := currAddr - sport.iTxBuffer1
  let (writechunk, writepingpong, log) :=
    if x ≥ 8 * sport.samplesPerChunk then
      (sport.iTxBuffer1, PingPong.ping, { log with writechunkFirst := log.writechunkFirst + 1 })
    else
      (sport.iTxBuffer1 + sport.samplesPerChunk * 8, PingPong.pong,
        { log with writechunkSecond := log.writechunkSecond + 1 })
  let log :=
    if writepingpong = log.lastwritepingpong then
      { log with writechunkDidntswap := log.writechunkDidntswap + 1 }
    else log
  (writechunk, { log with lastwritepingpong := writepingpong })

/-- The half that the receive side chooses. -/
def readHalf (x : Int) : PingPong := if x % 128 ≥ 8 * sport.samplesPerChunk then .ping else .pong

/-- The half that the transmit side chooses. -/
def writeHalf (x : Int) : PingPong := if x ≥ 8 * sport.samplesPerChunk then .ping else .pong

/-- The address of a half. -/
def halfAt (start : Int) : PingPong → Int
  | .ping => start
  | .pong => start + sport.samplesPerChunk * 8

theorem isrRead_fst (log : ReadLog) : (isrReadProcessing sport currAddr log).1 =
    halfAt sport sport.iRxBuffer1 (readHalf sport (currAddr - sport.iRxBuffer1)) := by
  unfold isrReadProcessing readHalf
  by_cases first : (currAddr - sport.iRxBuffer1) % 128 ≥ 8 * sport.samplesPerChunk
  · simp only [first, if_true]
    rfl
  · simp only [first, if_false]
    rfl

theorem isrWrite_fst (log : WriteLog) : (isrWriteProcessing sport currAddr log).1 =
    halfAt sport sport.iTxBuffer1 (writeHalf sport (currAddr - sport.iTxBuffer1)) := by
  unfold isrWriteProcessing writeHalf
  by_cases first : currAddr - sport.iTxBuffer1 ≥ 8 * sport.samplesPerChunk
  · simp only [first, if_true]
    rfl
  · simp only [first, if_false]
    rfl

/-- What an interrupt leaves in the debugging variables. -/
theorem isrRead_log (log : ReadLog) :
    (isrReadProcessing sport currAddr log).2.lastreadpingpong =
      readHalf sport (currAddr - sport.iRxBuffer1) ∧
    (isrReadProcessing sport currAddr log).2.readchunkDidntswap = log.readchunkDidntswap +
      if readHalf sport (currAddr - sport.iRxBuffer1) = log.lastreadpingpong then 1 else 0 := by
  unfold isrReadProcessing readHalf
  by_cases first : (currAddr - sport.iRxBuffer1) % 128 ≥ 8 * sport.samplesPerChunk
  · simp only [first, if_true]
    refine ⟨trivial, ?_⟩
    split <;> simp
  · simp only [first, if_false]
    refine ⟨trivial, ?_⟩
    split <;> simp

end Processing

/-! ### Successive interrupts -/

section Runs

variable (sport : Sport)

/-- The receive halves handed out by interrupts that find the DMA at these addresses, and the debugging
variables after them. -/
def isrReads : List Int → ReadLog → List Int × ReadLog
  | [], log => ([], log)
  | currAddr :: rest, log =>
      let (readchunk, log) := isrReadProcessing sport currAddr log
      let (chunks, log) := isrReads rest log
      (readchunk :: chunks, log)

theorem isrReads_fst (addresses : List Int) (log : ReadLog) : (isrReads sport addresses log).1 =
    addresses.map fun currAddr =>
      halfAt sport sport.iRxBuffer1 (readHalf sport (currAddr - sport.iRxBuffer1)) := by
  induction addresses generalizing log with
  | nil => rfl
  | cons currAddr rest ih =>
    rw [List.map_cons, ← ih (isrReadProcessing sport currAddr log).2, ← isrRead_fst sport currAddr log]
    rfl

/-- **What the counter counts.** It stands still exactly if no half is handed out twice in a row. -/
theorem didntswap_iff (addresses : List Int) (log : ReadLog) :
    log.readchunkDidntswap ≤ (isrReads sport addresses log).2.readchunkDidntswap ∧
    ((isrReads sport addresses log).2.readchunkDidntswap = log.readchunkDidntswap ↔
      (log.lastreadpingpong :: addresses.map fun currAddr =>
        readHalf sport (currAddr - sport.iRxBuffer1)).IsChain (· ≠ ·)) := by
  induction addresses generalizing log with
  | nil => exact ⟨Int.le_refl _, fun _ => List.isChain_singleton _, fun _ => rfl⟩
  | cons currAddr rest ih =>
    obtain ⟨last, count⟩ := isrRead_log sport currAddr log
    obtain ⟨more, still⟩ := ih (isrReadProcessing sport currAddr log).2
    rw [last] at still
    rw [List.map_cons, List.isChain_cons_cons, ← still]
    rw [show (isrReads sport (currAddr :: rest) log).2 =
      (isrReads sport rest (isrReadProcessing sport currAddr log).2).2 from rfl]
    rw [count] at more ⊢
    by_cases again : readHalf sport (currAddr - sport.iRxBuffer1) = log.lastreadpingpong
    · rw [if_pos again] at more ⊢
      refine ⟨by omega, fun same => absurd same (by omega), fun swapped => absurd again.symm swapped.1⟩
    · rw [if_neg again, Int.add_zero] at more ⊢
      exact ⟨more, fun same => ⟨fun same => again same.symm, same⟩, fun swapped => swapped.2⟩

end Runs

/-! ### Which half is free -/

/-- The half that does not hold the byte at an offset, the end of the buffer being its beginning. -/
def otherHalf (samples x : Int) : PingPong := if x % (16 * samples) < 8 * samples then .pong else .ping

theorem otherHalf_inside {samples x : Int} (low : 0 ≤ x) (inside : x < 16 * samples) :
    otherHalf samples x = if x < 8 * samples then .pong else .ping := by
  rw [otherHalf, Int.emod_eq_of_lt low inside]

theorem otherHalf_end {samples : Int} (positive : 0 < samples) : otherHalf samples (16 * samples) = .pong := by
  rw [otherHalf, Int.emod_self, if_pos (by omega)]

/-- The other half, as an address. -/
theorem halfAt_otherHalf (sport : Sport) (start x : Int) :
    halfAt sport start (otherHalf sport.samplesPerChunk x) =
      if x % (16 * sport.samplesPerChunk) < 8 * sport.samplesPerChunk then start + 8 * sport.samplesPerChunk
      else start := by
  rw [otherHalf]
  split
  · rw [halfAt, Int.mul_comm]
  · rfl

theorem halfAt_inj {sport : Sport} (positive : 0 < sport.samplesPerChunk) (start : Int) {one two : PingPong} :
    halfAt sport start one = halfAt sport start two ↔ one = two := by
  cases one <;> cases two <;> simp only [halfAt, reduceCtorEq, iff_false] <;> omega

/-! ### The receive side -/

/-- Where the receive side is right, for a number of samples: everywhere if it is 8; everywhere but at the
end of the buffer if it is less; below offset 128 or the middle, and at the end, if it is more. -/
def ReadsRight (samples x : Int) : Prop :=
  samples = 8 ∨ (samples < 8 ∧ x ≠ 16 * samples) ∨
    (8 < samples ∧ (x < 128 ∨ x < 8 * samples ∨ x = 16 * samples))

theorem readHalf_right_iff {sport : Sport} (positive : 0 < sport.samplesPerChunk) {x : Int} (low : 0 ≤ x)
    (high : x ≤ 16 * sport.samplesPerChunk) :
    readHalf sport x = otherHalf sport.samplesPerChunk x ↔ ReadsRight sport.samplesPerChunk x := by
  unfold readHalf ReadsRight
  generalize sport.samplesPerChunk = samples at positive high ⊢
  rcases Int.lt_or_eq_of_le high with inside | rfl
  · rw [otherHalf_inside low inside]
    split <;> split <;> simp only [reduceCtorEq, true_iff, false_iff] <;> omega
  · rw [otherHalf_end positive]
    simp only [ne_eq, not_true_eq_false, and_false, or_true, and_true, false_or]
    split <;> simp only [reduceCtorEq, true_iff, false_iff] <;> omega

/-- Interrupts at offsets of the receive buffer. -/
theorem isrReads_offsets (sport : Sport) (offsets : List Int) (log : ReadLog) :
    (isrReads sport (offsets.map (sport.iRxBuffer1 + ·)) log).1 =
      offsets.map fun x => halfAt sport sport.iRxBuffer1 (readHalf sport x) := by
  rw [isrReads_fst, List.map_map]
  refine List.map_congr_left fun x _ => ?_
  show halfAt sport _ (readHalf sport (sport.iRxBuffer1 + x - sport.iRxBuffer1)) = _
  rw [add_sub_cancel_left]

/-- Successive interrupts hand out alternate addresses. -/
def ReadsAlternate (sport : Sport) (offsets : List Int) : Prop :=
  ∀ log, (isrReads sport (offsets.map (sport.iRxBuffer1 + ·)) log).1.IsChain (· ≠ ·)

/-- Successive interrupts find the DMA in alternate halves. -/
def HalvesAlternate (samples : Int) (offsets : List Int) : Prop :=
  (∀ x ∈ offsets, 0 ≤ x ∧ x ≤ 16 * samples) ∧ (offsets.map (otherHalf samples)).IsChain (· ≠ ·)

/-- **The receive half is right in every run that keeps to the right offsets.** -/
theorem readsAlternate_of_right {sport : Sport} (positive : 0 < sport.samplesPerChunk) {offsets : List Int}
    (halves : HalvesAlternate sport.samplesPerChunk offsets)
    (right : ∀ x ∈ offsets, ReadsRight sport.samplesPerChunk x) : ReadsAlternate sport offsets := by
  intro log
  have chosen : (offsets.map fun x => halfAt sport sport.iRxBuffer1 (readHalf sport x)) =
      (offsets.map (otherHalf sport.samplesPerChunk)).map (halfAt sport sport.iRxBuffer1) := by
    rw [List.map_map]
    refine List.map_congr_left fun x member => ?_
    obtain ⟨low, high⟩ := halves.1 x member
    rw [(readHalf_right_iff positive low high).mpr (right x member)]
    rfl
  rw [isrReads_offsets, chosen, List.isChain_map]
  exact halves.2.imp fun one two different => fun same => different ((halfAt_inj positive _).mp same)

/-- Two interrupts that hand out the same half. -/
theorem not_readsAlternate {sport : Sport} {one two : Int} (same : readHalf sport one = readHalf sport two) :
    ¬ ReadsAlternate sport [one, two] := by
  intro alternate
  have chain := alternate ⟨0, 0, 0, .ping, fun _ => 0, fun _ => 0, 0⟩
  rw [isrReads_offsets] at chain
  simp only [List.map_cons, List.map_nil, same] at chain
  exact absurd rfl (List.isChain_cons_cons.mp chain).1

/-- **When the receive half is the one that is not being filled.** An interrupt chooses it exactly at the
right offsets; runs of interrupts that find the DMA in alternate halves hand out alternate addresses as
long as they keep to these offsets, and whatever the offsets only for eight samples. -/
theorem isrRead_right_iff (sport : Sport) (positive : 0 < sport.samplesPerChunk) :
    (∀ x log, 0 ≤ x → x ≤ 16 * sport.samplesPerChunk →
      ((isrReadProcessing sport (sport.iRxBuffer1 + x) log).1 =
        (if x % (16 * sport.samplesPerChunk) < 8 * sport.samplesPerChunk then
          sport.iRxBuffer1 + 8 * sport.samplesPerChunk else sport.iRxBuffer1) ↔
        ReadsRight sport.samplesPerChunk x)) ∧
    (∀ offsets, HalvesAlternate sport.samplesPerChunk offsets →
      (∀ x ∈ offsets, ReadsRight sport.samplesPerChunk x) → ReadsAlternate sport offsets) ∧
    ((∀ offsets, HalvesAlternate sport.samplesPerChunk offsets → ReadsAlternate sport offsets) ↔
      sport.samplesPerChunk = 8) := by
  refine ⟨fun x log low high => ?_, fun offsets halves right => readsAlternate_of_right positive halves right,
    fun always => ?_, fun eight offsets halves => ?_⟩
  · rw [isrRead_fst, add_sub_cancel_left, ← halfAt_otherHalf, halfAt_inj positive,
      readHalf_right_iff positive low high]
  · by_contra other
    rcases Int.lt_or_gt_of_ne other with few | many
    · -- from the middle to the end of the buffer
      have same : readHalf sport (8 * sport.samplesPerChunk) = readHalf sport (16 * sport.samplesPerChunk) := by
        rw [readHalf, readHalf, if_pos (by omega), if_pos (by omega)]
      refine not_readsAlternate same (always _ ⟨?_, ?_⟩)
      · simp only [List.forall_mem_cons, List.not_mem_nil, false_imp_iff, implies_true, and_true]
        omega
      · rw [List.map_cons, List.map_cons, otherHalf_inside (by omega) (by omega), if_neg (Int.lt_irrefl _),
          otherHalf_end positive]
        exact List.isChain_pair.mpr (by decide)
    · -- from the beginning to the last byte
      have same : readHalf sport 0 = readHalf sport (16 * sport.samplesPerChunk - 1) := by
        rw [readHalf, readHalf, if_neg (by omega), if_neg (by omega)]
      refine not_readsAlternate same (always _ ⟨?_, ?_⟩)
      · simp only [List.forall_mem_cons, List.not_mem_nil, false_imp_iff, implies_true, and_true]
        omega
      · rw [List.map_cons, List.map_cons, otherHalf_inside (Int.le_refl 0) (by omega), if_pos (by omega),
          otherHalf_inside (by omega) (by omega), if_neg (by omega)]
        exact List.isChain_pair.mpr (by decide)
  · exact readsAlternate_of_right positive halves fun x _ => .inl eight

/-- Eight samples: at the middle of the buffer the first half is free. -/
theorem isrRead_right_eight :
    (isrReadProcessing ⟨8, 0, 256⟩ 64 ⟨0, 0, 0, .ping, fun _ => 0, fun _ => 0, 0⟩).1 = 0 :=
  ((isrRead_right_iff ⟨8, 0, 256⟩ (by decide)).1 64 ⟨0, 0, 0, .ping, fun _ => 0, fun _ => 0, 0⟩ (by decide)
    (by decide)).mpr (.inl rfl)

/-- Four samples: at the end of the buffer the first half, which is filled next, is handed out; and sixteen:
in the second half, the second half. -/
theorem isrRead_wrong :
    (isrReadProcessing ⟨4, 0, 256⟩ 64 ⟨0, 0, 0, .ping, fun _ => 0, fun _ => 0, 0⟩).1 = 0 ∧
      (isrReadProcessing ⟨16, 0, 256⟩ 200 ⟨0, 0, 0, .ping, fun _ => 0, fun _ => 0, 0⟩).1 = 128 := by
  decide

/-! ### The transmit side -/

/-- **When the transmit half is the one that is not being sent**: at every offset but the end of the buffer,
which the receive side takes for its beginning. -/
theorem isrWrite_right_iff (sport : Sport) (positive : 0 < sport.samplesPerChunk) (x : Int) (log : WriteLog)
    (low : 0 ≤ x) (high : x ≤ 16 * sport.samplesPerChunk) :
    (isrWriteProcessing sport (sport.iTxBuffer1 + x) log).1 =
      (if x % (16 * sport.samplesPerChunk) < 8 * sport.samplesPerChunk then
        sport.iTxBuffer1 + 8 * sport.samplesPerChunk else sport.iTxBuffer1) ↔
      x ≠ 16 * sport.samplesPerChunk := by
  rw [isrWrite_fst, add_sub_cancel_left, ← halfAt_otherHalf, halfAt_inj positive, writeHalf]
  rcases Int.lt_or_eq_of_le high with inside | rfl
  · rw [otherHalf_inside low inside]
    split <;> split <;> simp only [reduceCtorEq, true_iff, false_iff] <;> omega
  · rw [otherHalf_end positive, if_pos (by omega)]
    simp

/-- In the first half the second one is free. -/
theorem isrWrite_right_eight : (isrWriteProcessing ⟨8, 0, 256⟩ 270 ⟨0, 0, 0, .ping⟩).1 = 320 :=
  (isrWrite_right_iff ⟨8, 0, 256⟩ (by decide) 14 ⟨0, 0, 0, .ping⟩ (by decide) (by decide)).mpr (by decide)

/-- At the end of the buffer the transmit side hands out the first half, which is sent next; the receive
side would hand out the second. -/
theorem isrWrite_wrong :
    (isrWriteProcessing ⟨8, 0, 256⟩ (256 + 128) ⟨0, 0, 0, .ping⟩).1 = 256 ∧
      (isrReadProcessing ⟨8, 0, 256⟩ 128 ⟨0, 0, 0, .ping, fun _ => 0, fun _ => 0, 0⟩).1 = 64 := by
  decide

end Baps.Bfsi
