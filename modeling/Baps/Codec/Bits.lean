/-
**The bits of octets, most significant first.**

* `bit octets i` — bit `i` of a list of octets; octets with the same bits are the same (`ext_bits`).
* `octets count bits` — **the octets with given bits** (`bit_octets`).
* `bit_setBit` — what setting a bit does to the others.
-/

import Mathlib.Data.List.Basic

namespace Baps.Codec

/-- An octet. -/
abbrev Octet := BitVec 8

/-- Bit `i`, the most significant of the first octet being bit 0. -/
def bit (octets : List Octet) (i : Nat) : Bool := (octets.getD (i / 8) 0).getMsbD (i % 8)

/-- The octet with these bits. -/
def octet (bits : Nat → Bool) : Octet :=
  BitVec.ofBoolListBE [bits 0, bits 1, bits 2, bits 3, bits 4, bits 5, bits 6, bits 7]

/-- `count` octets with these bits. -/
def octets (count : Nat) (bits : Nat → Bool) : List Octet :=
  (List.range count).map fun k => octet fun i => bits (8 * k + i)

/-- Set bit `i`. -/
def setBit (octets : List Octet) (i : Nat) : List Octet :=
  octets.modify (i / 8) fun byte => byte ||| 1#8 <<< (7 - i % 8)

section

variable {first second stream : List Octet} {count i j : Nat} {bits : Nat → Bool}

@[simp] theorem length_octets : (octets count bits).length = count := by simp [octets]

@[simp] theorem length_setBit : (setBit stream i).length = stream.length := by simp [setBit]

theorem getMsbD_octet (small : i < 8) : (octet bits).getMsbD i = bits i := by
  unfold octet
  rw [BitVec.getMsbD_ofBoolListBE]
  rcases i with _ | _ | _ | _ | _ | _ | _ | _ | i
  all_goals first | rfl | omega

/-- **The octets have their bits.** -/
theorem bit_octets (inside : i < 8 * count) : bit (octets count bits) i = bits i := by
  have place : i / 8 < count := by omega
  have at_place : (octets count bits).getD (i / 8) 0 = octet fun j => bits (8 * (i / 8) + j) := by
    simp [octets, List.getD, place]
  rw [bit, at_place, getMsbD_octet (Nat.mod_lt i (by decide)), Nat.div_add_mod]

/-- **Octets with the same bits are the same.** -/
theorem ext_bits (size : first.length = second.length)
    (same : ∀ i < 8 * first.length, bit first i = bit second i) : first = second := by
  apply List.ext_getElem size
  intro k here there
  apply BitVec.eq_of_getMsbD_eq
  intro i small
  have index : (8 * k + i) / 8 = k ∧ (8 * k + i) % 8 = i := by omega
  have eq := same (8 * k + i) (by omega)
  simpa [bit, index.1, index.2, List.getD, here, there] using eq

/-- The bits of zero octets. -/
theorem bit_replicate : bit (List.replicate count 0) i = false := by
  have zero : (List.replicate count (0 : Octet)).getD (i / 8) 0 = 0 := by
    simp only [List.getD, List.getElem?_replicate]
    split
    · rfl
    · rfl
  rw [bit, zero]
  exact BitVec.getMsbD_zero

theorem getMsbD_one_shiftLeft (small : i < 8) :
    ((1#8) <<< (7 - i)).getMsbD j = decide (j = i) := by
  rw [BitVec.getMsbD_shiftLeft, BitVec.getMsbD_eq_getLsbD, BitVec.getLsbD_one]
  rw [Bool.eq_iff_iff]
  simp only [Nat.zero_lt_succ, decide_true, Bool.true_and, Bool.and_eq_true, decide_eq_true_eq]
  omega

/-- **Setting a bit sets that bit only.** -/
theorem bit_setBit (inside : i < 8 * stream.length) :
    bit (setBit stream i) j = (bit stream j || decide (j = i)) := by
  have place : i / 8 < stream.length := by omega
  by_cases same : j / 8 = i / 8
  · have here : (setBit stream i).getD (j / 8) 0 =
        stream.getD (i / 8) 0 ||| 1#8 <<< (7 - i % 8) := by
      simp [setBit, same, List.getD, place]
    have value : decide (j % 8 = i % 8) = decide (j = i) := by
      rw [decide_eq_decide]
      omega
    rw [bit, here, BitVec.getMsbD_or, getMsbD_one_shiftLeft (Nat.mod_lt i (by decide)), value, bit, same]
  · have here : (setBit stream i).getD (j / 8) 0 = stream.getD (j / 8) 0 := by
      simp [setBit, List.getD, Ne.symm same]
    have other : decide (j = i) = false := decide_eq_false fun eq => same (congrArg (· / 8) eq)
    rw [bit, here, other, Bool.or_false, bit]

end

end Baps.Codec
