/-
**The G.729 translators: what both directions share.**

A translator keeps linear samples in `pcmBuf[0..tail)` and works in frames of 80 samples or 10 bytes. The
library has a bit in every word of an array of 82, behind two words of its own; `pack` and `unpack` are
the loops between this and bytes.

* `pack_eq` — **`pack` makes the bytes whose bits are the words** `0x81`.
* `unpack_eq` — **`unpack` has the words for the bits of the bytes**.
* `packed_unpack` — and back.
* `bits_inverse` — **the two loops undo each other**.
-/

import Baps.Codec.Bits
import Baps.Memory.Buffer

namespace Baps.Codec

open Memory

/-- A `short`. -/
abbrev Short := BitVec 16

/-- The formats of the frames. -/
inductive Subclass
  | slinear
  | g729a
  deriving DecidableEq, Repr

/-- What the data of an outgoing frame are. -/
inductive Data
  | pcmBuf
  | bitstreamBuf
  deriving DecidableEq, Repr

/-- An outgoing frame. -/
structure AstFrame where
  subclass : Subclass
  datalen : Nat
  samples : Nat
  data : Data
  deriving DecidableEq, Repr

/-- `struct ast_translator_pvt`, and `samples` of the structure around it. `inst` is the handle of the
encoder or the decoder. -/
structure Pvt (σ : Type) where
  f : AstFrame
  inst : σ
  pcmBuf : List.Vector Short 8000
  bitstreamBuf : List.Vector Octet 1000
  tail : Nat
  samples : Int

/-- `lintog729_new` and `g729tolin_new`, when they succeed. -/
def create {σ : Type} (reset : σ) (pvt : Pvt σ) : Pvt σ := { pvt with inst := reset, tail := 0 }

/-- `G729AB_ENC`: the encoder of the library, with its state. -/
abbrev G729Enc (σ : Type) := σ → List.Vector Short 80 → σ × List.Vector Short 82

/-- `G729AB_DEC`: the decoder of the library, with its state. -/
abbrev G729Dec (σ : Type) := σ → List.Vector Short 82 → σ × List.Vector Short 80

/-- Whether bit `i` is set in an array of the library. -/
def isSet (tmpBits : List.Vector Short 82) (i : Nat) : Bool := tmpBits.toList.getD (i + 2) 0 == 0x81

/-- A bit of the loop that packs them. -/
def packBit (tmpBits : List.Vector Short 82) (bitStream : List Octet) (i : Nat) : List Octet :=
  if isSet tmpBits i then
    bitStream.modify (i >>> 3) fun byte => byte ||| 1#8 <<< (7 - (i &&& 7))
  else bitStream

/-- The loop that packs the bits into ten bytes, the most significant first. -/
def pack (tmpBits : List.Vector Short 82) : List Octet :=
  (List.range 80).foldl (packBit tmpBits) (List.replicate 10 0)

/-- The word of a bit. -/
def word (value : Bool) : Short := if value then 0x81 else 0x7f

/-- The loop that unpacks ten bytes. -/
def unpack (bitStream : List.Vector Octet 10) : List.Vector Short 82 :=
  ⟨0x6b21 :: 0x0050 :: (List.range 80).map fun i =>
      word ((bitStream.toList.getD (i >>> 3) 0 >>> (7 - (i &&& 7))) &&& 1#8 != 0),
    by simp⟩

section

variable {tmpBits : List.Vector Short 82} {bitStream : List.Vector Octet 10} {i : Nat}

theorem shiftRight_three (i : Nat) : i >>> 3 = i / 8 := Nat.shiftRight_eq_div_pow i 3

theorem and_seven (i : Nat) : i &&& 7 = i % 8 := Nat.and_two_pow_sub_one_eq_mod i 3

/-- The loop after some of its steps. -/
theorem pack_steps (tmpBits : List.Vector Short 82) (count : Nat) (inside : count ≤ 80) :
    let packed := (List.range count).foldl (packBit tmpBits) (List.replicate 10 0)
    packed.length = 10 ∧ ∀ i, bit packed i = (decide (i < count) && isSet tmpBits i) := by
  induction count with
  | zero =>
    refine ⟨List.length_replicate, fun i => ?_⟩
    rw [decide_eq_false (Nat.not_lt_zero i), Bool.false_and]
    exact bit_replicate
  | succ count ih =>
    obtain ⟨size, bits⟩ := ih (by omega)
    rw [List.range_succ, List.foldl_append, List.foldl_cons, List.foldl_nil, packBit]
    set packed := (List.range count).foldl (packBit tmpBits) (List.replicate 10 0)
    by_cases isBit : isSet tmpBits count = true
    · have step : packed.modify (count >>> 3) (fun byte => byte ||| 1#8 <<< (7 - (count &&& 7))) =
          setBit packed count := by
        rw [setBit, shiftRight_three, and_seven]
      rw [if_pos isBit, step]
      refine ⟨by rw [length_setBit, size], fun i => ?_⟩
      rw [bit_setBit (by omega), bits]
      by_cases last : i = count
      · simp [last, isBit]
      · have before : i < count ↔ i < count + 1 := by omega
        simp [last, before]
    · rw [if_neg isBit]
      refine ⟨size, fun i => ?_⟩
      rw [bits]
      by_cases last : i = count
      · simp [last, isBit]
      · have before : i < count ↔ i < count + 1 := by omega
        simp [before]

theorem length_pack : (pack tmpBits).length = 10 := (pack_steps tmpBits 80 le_rfl).1

/-- **The bytes with the bits of the library.** -/
theorem pack_eq : pack tmpBits = octets 10 (isSet tmpBits) := by
  obtain ⟨size, bits⟩ := pack_steps tmpBits 80 le_rfl
  refine ext_bits (by rw [length_pack, length_octets]) fun i inside => ?_
  rw [length_pack] at inside
  rw [bit_octets inside]
  calc
    bit (pack tmpBits) i = (decide (i < 80) && isSet tmpBits i) := bits i
    _ = isSet tmpBits i := by rw [decide_eq_true inside, Bool.true_and]

/-- A bit of a byte, as the loop tests it. -/
theorem shift_and_one (byte : Octet) (small : i < 8) :
    (byte >>> (7 - i) &&& 1#8 != 0) = byte.getMsbD i := by
  have low : byte >>> (7 - i) &&& 1#8 = BitVec.setWidth 8 (BitVec.ofBool (byte.getLsbD (7 - i))) := by
    rw [BitVec.and_one_eq_setWidth_ofBool_getLsbD, BitVec.getLsbD_ushiftRight, Nat.add_zero]
  rw [low, BitVec.getMsbD_eq_getLsbD, decide_eq_true small, Bool.true_and]
  cases byte.getLsbD (8 - 1 - i)
  · rfl
  · rfl

/-- **The words for the bits of the bytes.** -/
theorem unpack_eq : (unpack bitStream).toList =
    0x6b21 :: 0x0050 :: (List.range 80).map fun i => word (bit bitStream.toList i) := by
  show _ :: _ :: List.map _ _ = _
  refine congrArg (List.cons _ ∘ List.cons _) (List.map_congr_left fun i _ => ?_)
  rw [shiftRight_three, and_seven, shift_and_one _ (Nat.mod_lt i (by decide)), bit]

theorem isSet_unpack (inside : i < 80) : isSet (unpack bitStream) i = bit bitStream.toList i := by
  rw [isSet, unpack_eq]
  simp only [List.getD, List.getElem?_cons_succ, List.getElem?_map, List.getElem?_range inside,
    Option.map_some, Option.getD_some]
  cases bit bitStream.toList i
  · rfl
  · rfl

/-- **Unpacked bytes pack to themselves.** -/
theorem packed_unpack : pack (unpack bitStream) = bitStream.toList := by
  have size : bitStream.toList.length = 10 := bitStream.toList_length
  refine ext_bits (by rw [length_pack, size]) fun i inside => ?_
  rw [length_pack] at inside
  rw [pack_eq, bit_octets inside, isSet_unpack inside]

/-- The ten bytes that `pack` makes. -/
def packed (tmpBits : List.Vector Short 82) : List.Vector Octet 10 := ⟨pack tmpBits, length_pack⟩

/-- The word of a bit that was read off a word. -/
theorem word_beq {value : Short} (isWord : value = 0x81 ∨ value = 0x7f) : word (value == 0x81) = value := by
  rcases isWord with rfl | rfl
  · rfl
  · rfl

/-- A bit of packed words. -/
theorem bit_pack (inside : i < 80) : bit (pack tmpBits) i = isSet tmpBits i := by
  rw [pack_eq, bit_octets inside]

/-- **Packed words unpack to themselves**, behind the two words of the library. -/
theorem unpacked_pack (first second : Short) (words : List.Vector Short 80)
    (areWords : ∀ value ∈ words.toList, value = 0x81 ∨ value = 0x7f) :
    (unpack (packed (first ::ᵥ second ::ᵥ words))).toList.drop 2 = words.toList := by
  have size : words.toList.length = 80 := words.toList_length
  rw [unpack_eq, List.drop_succ_cons, List.drop_succ_cons, List.drop_zero]
  apply List.ext_getElem
  · rw [List.length_map, List.length_range, size]
  · intro i here there
    have inside : i < 80 := size ▸ there
    have set : isSet (first ::ᵥ second ::ᵥ words) i = (words.toList[i] == 0x81) := by
      rw [isSet, List.Vector.toList_cons, List.Vector.toList_cons, List.getD_cons_succ, List.getD_cons_succ,
        List.getD_eq_getElem?_getD, List.getElem?_eq_getElem there, Option.getD_some]
    rw [List.getElem_map, List.getElem_range]
    calc
      word (bit (pack (first ::ᵥ second ::ᵥ words)) i) = word (words.toList[i] == 0x81) := by
        rw [bit_pack inside, set]
      _ = words.toList[i] := word_beq (areWords _ (List.getElem_mem there))

end

/-- **The two loops undo each other.** Ten bytes unpack to words that pack to them; eighty words `0x81` and
`0x7f`, behind any two words, pack to bytes that unpack to them. -/
theorem bits_inverse :
    (∀ bitStream : List.Vector Octet 10, pack (unpack bitStream) = bitStream.toList) ∧
    ∀ (first second : Short) (words : List.Vector Short 80),
      (∀ value ∈ words.toList, value = 0x81 ∨ value = 0x7f) →
      (unpack (packed (first ::ᵥ second ::ᵥ words))).toList.drop 2 = words.toList :=
  ⟨fun _ => packed_unpack, unpacked_pack⟩

/-- Eighty bits that are set. -/
theorem bits_inverse_set :
    (unpack (packed (0x6b21 ::ᵥ 0x0050 ::ᵥ List.Vector.replicate 80 0x81))).toList.drop 2 =
      (List.Vector.replicate 80 0x81).toList :=
  bits_inverse.2 0x6b21 0x0050 (List.Vector.replicate 80 0x81) fun _ member =>
    .inl (List.eq_of_mem_replicate member)

end Baps.Codec
