/-
**What the decoder reads behind its packet.**

The loop of `g729tolin_framein` takes a step of two bytes for a VAD frame at the end and of ten otherwise,
but unpacks ten bytes in either case. `decodeLoop` has the packet alone, and fails where the source would
read on; `decodeMemory` is the same loop in the memory that the packet lies in.

* `decodeLoop_isSome` — **when every byte that is read belongs to the packet**.
* `decodeMemory_eq` — then the memory around the packet does not matter.
* `framein_reads_iff` — the two together, for every packet and every state.
-/

import Baps.Codec.Decoder

namespace Baps.Codec

open Memory

variable {σ : Type}

/-! ### Bytes of a memory -/

/-- `count` octets of the memory. -/
def octetsAt (memory : Nat → Octet) (offset count : Nat) : List.Vector Octet count :=
  ⟨(List.range count).map fun k => memory (offset + k), by simp⟩

/-- A memory in which the packet lies at offset 0. -/
def Holds (memory : Nat → Octet) (data : List Octet) : Prop :=
  ∀ k (inside : k < data.length), memory k = data[k]

theorem load_of_holds {memory : Nat → Octet} {data : List Octet} (holds : Holds memory data)
    {offset count : Nat} (inside : offset + count ≤ data.length) :
    load data offset count = some (octetsAt memory offset count) := by
  unfold load
  rw [dif_pos inside]
  refine congrArg some (Subtype.ext ?_)
  apply List.ext_getElem
  · simp [octetsAt]
    omega
  · intro k here there
    rw [List.getElem_take, List.getElem_drop]
    have place : offset + k < data.length := by
      rw [List.length_take, List.length_drop] at here
      omega
    rw [← holds (offset + k) place]
    simp [octetsAt]

theorem load_outside {data : List Octet} {offset count : Nat}
    (outside : data.length < offset + count) : load data offset count = none :=
  dif_neg (Nat.not_le.mpr outside)

/-! ### The code, in a memory -/

/-- The loop of `g729tolin_framein` on `datalen` bytes of a memory. -/
def decodeMemory (dec : G729Dec σ) (memory : Nat → Octet) (datalen x : Nat) (pvt : Pvt σ) :
    Option (Int × Pvt σ) :=
  if x < datalen then
    let frameSize := if datalen - x = 2 then 2 else 10
    if pvt.tail + 80 < 8000 then do
      let decoded := dec pvt.inst (unpack (octetsAt memory x 10))
      let pcmBuf ← store pvt.pcmBuf pvt.tail decoded.2.toList
      decodeMemory dec memory datalen (x + frameSize)
        { pvt with
          inst := decoded.1
          pcmBuf := pcmBuf
          samples := pvt.samples + 80
          tail := pvt.tail + 80 }
    else some (-1, pvt)
  else some (0, pvt)
termination_by datalen - x
decreasing_by
  split
  · omega
  · omega

section Loop

variable {dec : G729Dec σ} {data : List Octet} {x : Nat}

/-- The samples of a frame fit where the loop puts them. -/
theorem stores (dec : G729Dec σ) (pvt : Pvt σ) (frame : List.Vector Octet 10)
    (fits : pvt.tail + 80 < 8000) :
    ∃ pcmBuf, store pvt.pcmBuf pvt.tail (dec pvt.inst (unpack frame)).2.toList = some pcmBuf ∧
      front pcmBuf (pvt.tail + 80) =
        front pvt.pcmBuf pvt.tail ++ (dec pvt.inst (unpack frame)).2.toList := by
  have count : (dec pvt.inst (unpack frame)).2.toList.length = 80 := List.Vector.toList_length _
  have inside : pvt.tail + (dec pvt.inst (unpack frame)).2.toList.length ≤ 8000 := by omega
  obtain ⟨pcmBuf, stored, samples⟩ := store_front pvt.pcmBuf inside
  rw [count] at samples
  exact ⟨pcmBuf, stored, samples⟩

/-- **When every byte that is read belongs to the packet**, from byte `x` on: what is left are whole
frames, or the room for samples runs out before the unfinished one. -/
theorem decodeLoop_isSome (dec : G729Dec σ) (data : List Octet) (x : Nat) (pvt : Pvt σ) :
    (decodeLoop dec data x pvt).isSome = true ↔
      (data.length - x) % 10 = 0 ∨ 8000 ≤ pvt.tail + 80 * ((data.length - x) / 10) + 80 := by
  rw [decodeLoop]
  by_cases more : x < data.length
  · rw [if_pos more]
    by_cases fits : pvt.tail + 80 < 8000
    · rw [if_pos fits]
      by_cases whole : x + 10 ≤ data.length
      · obtain ⟨frame, loaded⟩ : ∃ frame, load data x 10 = some frame := ⟨_, dif_pos whole⟩
        obtain ⟨pcmBuf, stored, -⟩ := stores dec pvt frame fits
        have regular : ¬ data.length - x = 2 := by omega
        simp only [loaded, Option.bind_eq_bind, Option.bind_some, stored, if_neg regular]
        rw [decodeLoop_isSome dec data (x + 10)]
        show _ ∨ 8000 ≤ pvt.tail + 80 + _ + 80 ↔ _
        omega
      · rw [load_outside (Nat.lt_of_not_le whole)]
        refine iff_of_false (by simp) ?_
        omega
    · rw [if_neg fits]
      exact iff_of_true rfl (.inr (by omega))
  · rw [if_neg more]
    exact iff_of_true rfl (.inl (by omega))
termination_by data.length - x

/-- **Then the memory around the packet does not matter.** -/
theorem decodeMemory_eq (dec : G729Dec σ) {memory : Nat → Octet} (holds : Holds memory data) (x : Nat)
    (pvt : Pvt σ) (inside : (decodeLoop dec data x pvt).isSome = true) :
    decodeMemory dec memory data.length x pvt = decodeLoop dec data x pvt := by
  rw [decodeLoop] at inside ⊢
  rw [decodeMemory]
  by_cases more : x < data.length
  · rw [if_pos more] at inside ⊢
    rw [if_pos more]
    by_cases fits : pvt.tail + 80 < 8000
    · rw [if_pos fits] at inside ⊢
      rw [if_pos fits]
      by_cases whole : x + 10 ≤ data.length
      · obtain ⟨pcmBuf, stored, -⟩ := stores dec pvt (octetsAt memory x 10) fits
        have regular : ¬ data.length - x = 2 := by omega
        simp only [load_of_holds holds whole, Option.bind_eq_bind, Option.bind_some, stored,
          if_neg regular] at inside ⊢
        exact decodeMemory_eq dec holds (x + 10) _ inside
      · rw [load_outside (Nat.lt_of_not_le whole)] at inside
        exact absurd inside (by simp)
    · rw [if_neg fits, if_neg fits]
  · rw [if_neg more, if_neg more]
termination_by data.length - x

end Loop

/-- **A packet is read up to its end and no further just if** it consists of whole frames of ten bytes, or
the samples of those before the unfinished one leave no room for 80 more. Then the result depends on the
packet and the state only, whatever the memory around the packet holds. -/
theorem framein_reads_iff (dec : G729Dec σ) (pvt : Pvt σ) (data : List Octet) :
    ((g729tolinFramein dec pvt data).isSome = true ↔
      data.length % 10 = 0 ∨ 8000 ≤ pvt.tail + 80 * (data.length / 10) + 80) ∧
    ((g729tolinFramein dec pvt data).isSome = true → ∀ memory, Holds memory data →
      decodeMemory dec memory data.length 0 pvt = g729tolinFramein dec pvt data) := by
  refine ⟨?_, fun inside memory holds => decodeMemory_eq dec holds 0 pvt inside⟩
  have loop := decodeLoop_isSome dec data 0 pvt
  rw [Nat.sub_zero] at loop
  exact loop

/-! ### A VAD frame -/

/-- A packet that is one VAD frame is decoded from ten bytes of the memory. -/
theorem decodeMemory_vad (dec : G729Dec σ) (memory : Nat → Octet) (pvt : Pvt σ) (empty : pvt.tail = 0) :
    ∃ next, decodeMemory dec memory 2 0 pvt = some (0, next) ∧
      front next.pcmBuf 80 = (dec pvt.inst (unpack (octetsAt memory 0 10))).2.toList := by
  have fits : pvt.tail + 80 < 8000 := by omega
  obtain ⟨pcmBuf, stored, samples⟩ := stores dec pvt (octetsAt memory 0 10) fits
  have behind : ∀ next : Pvt σ, decodeMemory dec memory 2 2 next = some (0, next) := by
    intro next
    rw [decodeMemory, if_neg (by decide)]
  rw [empty] at samples
  refine ⟨{ pvt with
      inst := (dec pvt.inst (unpack (octetsAt memory 0 10))).1
      pcmBuf := pcmBuf
      samples := pvt.samples + 80
      tail := pvt.tail + 80 }, ?_, samples⟩
  rw [decodeMemory, if_pos (by decide), if_pos fits]
  simp only [Option.bind_eq_bind, stored, Option.bind_some]
  exact behind _

/-- A library that returns the words of the bits as samples. -/
def echo : G729Dec Unit := fun state bits => (state, bits.tail.tail)

/-- A translator with an empty buffer. -/
def idlePvt : Pvt Unit :=
  ⟨⟨.slinear, 0, 0, .pcmBuf⟩, (), List.Vector.replicate 8000 0, List.Vector.replicate 1000 0, 0, 0⟩

/-- The packet `12 34`, with the same byte all around it. -/
def around (byte : Octet) (k : Nat) : Octet := ([0x12, 0x34] : List Octet).getD k byte

/-- **A VAD frame of two bytes**: eight bytes behind it are unpacked, and heard. -/
theorem vad_reads_behind : g729tolinFramein echo idlePvt [0x12, 0x34] = none ∧
    Holds (around 0x00) [0x12, 0x34] ∧ Holds (around 0xff) [0x12, 0x34] ∧
    decodeMemory echo (around 0x00) 2 0 idlePvt ≠ decodeMemory echo (around 0xff) 2 0 idlePvt := by
  have holds : ∀ byte, Holds (around byte) [0x12, 0x34] := by
    intro byte k inside
    rw [around, List.getD, List.getElem?_eq_getElem inside, Option.getD_some]
  refine ⟨?_, holds _, holds _, fun same => ?_⟩
  · rw [← Option.isNone_iff_eq_none, ← Option.not_isSome, Bool.not_eq_true', ← Bool.not_eq_true]
    unfold g729tolinFramein
    rw [decodeLoop_isSome]
    decide
  · obtain ⟨first, run, samples⟩ := decodeMemory_vad echo (around 0x00) idlePvt rfl
    obtain ⟨second, also, others⟩ := decodeMemory_vad echo (around 0xff) idlePvt rfl
    rw [run, also] at same
    obtain rfl : first = second := (Prod.mk.inj (Option.some.inj same)).2
    have words := samples.symm.trans others
    revert words
    decide +kernel

end Baps.Codec
