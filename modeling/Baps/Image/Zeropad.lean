/-
**zeropad: a kernel image in whole blocks.**

`main` reads the image block by block into one buffer and writes the buffer each time. The buffer is
cleared before the first block only: behind the bytes of an unfinished last block it holds what the block
before has left there.

* `padLoop_eq` — **what is written**: the input, and the end of the buffer as the last full block left it.
* `zeropad_pads_iff` — **when the image is padded with zeros**.
* `zeropad_stale` — an image that is not.
-/

import Mathlib.Data.Vector.Basic
import Mathlib.Tactic.ByContra

namespace Baps.Image

/-! ### The code -/

/-- `fread(buf, 1, blocksize, fin)`: the next bytes of the input, at the beginning of the buffer. -/
def fread {blocksize : Nat} (buf : List.Vector UInt8 blocksize) (fin : List UInt8) :
    List.Vector UInt8 blocksize :=
  ⟨fin.take blocksize ++ buf.toList.drop fin.length, by
    rw [List.length_append, List.length_take, List.length_drop, List.Vector.toList_length]
    omega⟩

/-- The loop of `main`: what it writes, with what is still to be read. `fread` returns less than a block
only at the end of the file, and zero ends the loop. -/
def padLoop {blocksize : Nat} (buf : List.Vector UInt8 blocksize) (fin : List UInt8) : List UInt8 :=
  let n := min blocksize fin.length
  if n = 0 then []
  else (fread buf fin).toList ++ padLoop (fread buf fin) (fin.drop n)
termination_by fin.length
decreasing_by
  rw [List.length_drop]
  omega

/-- `main`, with a block size and an input file: the output file, unless the size is negative. -/
def main (blocksize : Int) (fin : List UInt8) : Option (List UInt8) :=
  if blocksize < 0 then none
  else some (padLoop (List.Vector.replicate blocksize.toNat 0) fin)

/-! ### What is written -/

/-- The bytes of the last full block from where the unfinished one ends. -/
def stale (blocksize : Nat) (fin : List UInt8) : List UInt8 :=
  ((fin.drop ((fin.length / blocksize - 1) * blocksize)).take blocksize).drop (fin.length % blocksize)

/-- What follows the input in the output, when the buffer was `buf` before. -/
def tail {blocksize : Nat} (buf : List.Vector UInt8 blocksize) (fin : List UInt8) : List UInt8 :=
  if fin.length % blocksize = 0 then []
  else if fin.length < blocksize then buf.toList.drop fin.length
  else stale blocksize fin

section Loop

variable {blocksize : Nat} {fin : List UInt8}

theorem padLoop_nil (buf : List.Vector UInt8 blocksize) : padLoop buf [] = [] := by
  rw [padLoop]
  simp

/-- An unfinished block is the last one. -/
theorem padLoop_last (buf : List.Vector UInt8 blocksize) (some_byte : fin ≠ [])
    (short : fin.length < blocksize) : padLoop buf fin = fin ++ buf.toList.drop fin.length := by
  have positive := List.length_pos_iff.mpr some_byte
  have count : min blocksize fin.length = fin.length := Nat.min_eq_right short.le
  rw [padLoop]
  simp only [count, List.drop_length]
  rw [if_neg positive.ne', padLoop_nil, List.append_nil]
  show fin.take blocksize ++ _ = _
  rw [List.take_of_length_le short.le]

/-- A full block is copied. -/
theorem padLoop_full (buf : List.Vector UInt8 blocksize) (positive : 0 < blocksize)
    (full : blocksize ≤ fin.length) :
    ∃ next : List.Vector UInt8 blocksize, next.toList = fin.take blocksize ∧
      padLoop buf fin = fin.take blocksize ++ padLoop next (fin.drop blocksize) := by
  have count : min blocksize fin.length = blocksize := Nat.min_eq_left full
  have block : (fread buf fin).toList = fin.take blocksize := by
    show fin.take blocksize ++ buf.toList.drop fin.length = _
    rw [List.drop_eq_nil_of_le (by rw [List.Vector.toList_length]; exact full), List.append_nil]
  refine ⟨fread buf fin, block, ?_⟩
  rw [padLoop]
  simp only [count]
  rw [if_neg positive.ne', block]

/-- The stale bytes do not change with full blocks before the last one. -/
theorem stale_drop (positive : 0 < blocksize) (two : 2 * blocksize ≤ fin.length) :
    stale blocksize (fin.drop blocksize) = stale blocksize fin := by
  have quotient : fin.length / blocksize = (fin.length - blocksize) / blocksize + 1 := by
    rw [← Nat.add_div_right _ positive, Nat.sub_add_cancel (by omega)]
  have several : 1 ≤ (fin.length - blocksize) / blocksize :=
    (Nat.one_le_div_iff positive).mpr (by omega)
  have place : blocksize + ((fin.length - blocksize) / blocksize - 1) * blocksize =
      (fin.length - blocksize) / blocksize * blocksize := by
    obtain ⟨q, eq⟩ := Nat.exists_eq_add_of_le several
    rw [eq, Nat.add_sub_cancel_left, Nat.add_mul, Nat.one_mul]
  have remainder : (fin.length - blocksize) % blocksize = fin.length % blocksize :=
    (Nat.mod_eq_sub_mod (by omega)).symm
  unfold stale
  rw [List.length_drop, List.drop_drop, remainder, quotient, Nat.add_sub_cancel, place]

/-- The stale bytes when only one block is full. -/
theorem stale_one (one : blocksize ≤ fin.length) (two : fin.length < 2 * blocksize) :
    stale blocksize fin = (fin.take blocksize).drop (fin.length - blocksize) := by
  have quotient : fin.length / blocksize = 1 := Nat.div_eq_of_lt_le (by omega) (by omega)
  have remainder : fin.length % blocksize = fin.length - blocksize := by
    rw [Nat.mod_eq_sub_mod one, Nat.mod_eq_of_lt (by omega)]
  unfold stale
  rw [quotient, remainder, Nat.sub_self, Nat.zero_mul, List.drop_zero]

/-- One full block less. -/
theorem tail_drop {buf next : List.Vector UInt8 blocksize} (positive : 0 < blocksize)
    (full : blocksize ≤ fin.length) (block : next.toList = fin.take blocksize) :
    tail next (fin.drop blocksize) = tail buf fin := by
  have remainder : (fin.length - blocksize) % blocksize = fin.length % blocksize :=
    (Nat.mod_eq_sub_mod full).symm
  have notShort : ¬ fin.length < blocksize := Nat.not_lt.mpr full
  unfold tail
  rw [List.length_drop, remainder, if_neg notShort]
  by_cases whole : fin.length % blocksize = 0
  · rw [if_pos whole, if_pos whole]
  · rw [if_neg whole, if_neg whole]
    by_cases one : fin.length - blocksize < blocksize
    · rw [if_pos one, block, stale_one full (by omega)]
    · rw [if_neg one, stale_drop positive (by omega)]

/-- **What is written.** -/
theorem padLoop_eq (positive : 0 < blocksize) (buf : List.Vector UInt8 blocksize) (fin : List UInt8) :
    padLoop buf fin = fin ++ tail buf fin := by
  by_cases empty : fin = []
  · rw [empty, padLoop_nil]
    simp [tail]
  by_cases short : fin.length < blocksize
  · have remains : fin.length % blocksize ≠ 0 := by
      rw [Nat.mod_eq_of_lt short]
      exact (List.length_pos_iff.mpr empty).ne'
    rw [padLoop_last buf empty short, tail, if_neg remains, if_pos short]
  · have full := Nat.le_of_not_lt short
    obtain ⟨next, block, step⟩ := padLoop_full buf positive full
    rw [step, padLoop_eq positive next (fin.drop blocksize), tail_drop positive full block,
      ← List.append_assoc, List.take_append_drop]
termination_by fin.length
decreasing_by
  rw [List.length_drop]
  omega

/-- The stale bytes are as many as the unfinished block lacks. -/
theorem length_stale (positive : 0 < blocksize) (full : blocksize ≤ fin.length) :
    (stale blocksize fin).length = blocksize - fin.length % blocksize := by
  have whole : fin.length / blocksize * blocksize ≤ fin.length := Nat.div_mul_le_self _ _
  have several : 1 ≤ fin.length / blocksize := (Nat.one_le_div_iff positive).mpr full
  have place : (fin.length / blocksize - 1) * blocksize + blocksize = fin.length / blocksize * blocksize := by
    rw [← Nat.succ_mul, Nat.succ_eq_add_one, Nat.sub_add_cancel several]
  unfold stale
  rw [List.length_drop, List.length_take, List.length_drop]
  omega

end Loop

/-! ### Padding with zeros -/

/-- The output is the input, padded to whole blocks with as few zeros as possible. -/
def PadsWithZeros (blocksize : Nat) (fin out : List UInt8) : Prop :=
  ∃ count, out = fin ++ List.replicate count 0 ∧ blocksize ∣ fin.length + count ∧
    ∀ fewer, blocksize ∣ fin.length + fewer → count ≤ fewer

section Padding

variable {blocksize : Nat} {fin : List UInt8}

/-- The least number of bytes that makes whole blocks. -/
theorem least_count (positive : 0 < blocksize) (remains : fin.length % blocksize ≠ 0) {count : Nat} :
    (blocksize ∣ fin.length + count ∧ ∀ fewer, blocksize ∣ fin.length + fewer → count ≤ fewer) ↔
      count = blocksize - fin.length % blocksize := by
  have bound := Nat.mod_lt fin.length positive
  have split := Nat.div_add_mod fin.length blocksize
  have fills : blocksize ∣ fin.length + (blocksize - fin.length % blocksize) :=
    ⟨fin.length / blocksize + 1, by rw [Nat.mul_add, Nat.mul_one]; omega⟩
  have least : ∀ fewer, blocksize ∣ fin.length + fewer → blocksize - fin.length % blocksize ≤ fewer := by
    intro fewer divides
    by_contra less
    have zero := Nat.mod_eq_zero_of_dvd divides
    rw [Nat.add_mod, Nat.mod_eq_of_lt (a := fewer) (by omega), Nat.mod_eq_of_lt (by omega)] at zero
    omega
  constructor
  · rintro ⟨divides, smallest⟩
    exact Nat.le_antisymm (smallest _ fills) (least count divides)
  · rintro rfl
    exact ⟨fills, least⟩

/-- The zeros must be what is written behind the input. -/
theorem pads_append_iff (positive : 0 < blocksize) (remains : fin.length % blocksize ≠ 0)
    {behind : List UInt8} (size : behind.length = blocksize - fin.length % blocksize) :
    PadsWithZeros blocksize fin (fin ++ behind) ↔ ∀ byte ∈ behind, byte = 0 := by
  constructor
  · rintro ⟨count, same, -⟩
    rw [List.append_cancel_left same]
    exact fun byte member => List.eq_of_mem_replicate member
  · intro zeros
    refine ⟨behind.length, ?_, (least_count positive remains).mpr size⟩
    rw [← List.eq_replicate_of_mem zeros]

theorem main_eq (positive : 0 < blocksize) (fin : List UInt8) :
    main blocksize fin = some (fin ++ tail (List.Vector.replicate blocksize 0) fin) := by
  rw [← padLoop_eq positive]
  exact if_neg (by omega)

theorem pads_whole (whole : fin.length % blocksize = 0) : PadsWithZeros blocksize fin fin :=
  ⟨0, by simp, Nat.dvd_of_mod_eq_zero whole, fun _ _ => Nat.zero_le _⟩

/-- **The image is padded with zeros just if** it is a whole number of blocks, or shorter than one, or the
last full block has zeros wherever the unfinished one does not reach. -/
theorem zeropad_pads_iff (positive : 0 < blocksize) (fin : List UInt8) :
    (∃ out, main blocksize fin = some out ∧ PadsWithZeros blocksize fin out) ↔
      blocksize ∣ fin.length ∨ fin.length < blocksize ∨ ∀ byte ∈ stale blocksize fin, byte = 0 := by
  rw [main_eq positive]
  simp only [Option.some.injEq, exists_eq_left']
  by_cases whole : fin.length % blocksize = 0
  · rw [tail, if_pos whole, List.append_nil]
    exact iff_of_true (pads_whole whole) (.inl (Nat.dvd_of_mod_eq_zero whole))
  have notWhole : ¬ blocksize ∣ fin.length := fun divides => whole (Nat.mod_eq_zero_of_dvd divides)
  by_cases short : fin.length < blocksize
  · refine iff_of_true ?_ (.inr (.inl short))
    rw [tail, if_neg whole, if_pos short]
    refine (pads_append_iff positive whole ?_).mpr fun byte member => ?_
    · rw [List.length_drop, List.Vector.toList_length, Nat.mod_eq_of_lt short]
    · have member := List.mem_of_mem_drop member
      exact List.eq_of_mem_replicate member
  · rw [tail, if_neg whole, if_neg short,
      pads_append_iff positive whole (length_stale positive (Nat.le_of_not_lt short))]
    simp [notWhole, short]

end Padding

/-- A last full block that ends in zeros. -/
theorem zeropad_pads_six : ∃ out, main 4 [1, 2, 0, 0, 5, 6] = some out ∧
    PadsWithZeros 4 [1, 2, 0, 0, 5, 6] out :=
  (zeropad_pads_iff (show 0 < 4 by decide) [1, 2, 0, 0, 5, 6]).mpr <| .inr <| .inr fun _ member =>
    List.eq_of_mem_replicate (n := 2) member

/-- **Five bytes in blocks of four**: three bytes of the first block follow the fifth. -/
theorem zeropad_stale : main 4 [1, 2, 3, 4, 5] = some [1, 2, 3, 4, 5, 2, 3, 4] ∧
    ¬ ∃ out, main 4 [1, 2, 3, 4, 5] = some out ∧ PadsWithZeros 4 [1, 2, 3, 4, 5] out := by
  have runs : main 4 [1, 2, 3, 4, 5] = some ([1, 2, 3, 4, 5] ++ [2, 3, 4]) :=
    main_eq (show 0 < 4 by decide) [1, 2, 3, 4, 5]
  have notZeros : ¬ PadsWithZeros 4 [1, 2, 3, 4, 5] ([1, 2, 3, 4, 5] ++ [2, 3, 4]) := by
    rw [pads_append_iff (by decide) (by decide) (by decide)]
    decide
  refine ⟨runs, ?_⟩
  rintro ⟨out, same, pads⟩
  rw [runs] at same
  exact notZeros (Option.some.inj same ▸ pads)

end Baps.Image
