/-
**Flat byte memory with little-endian 32-bit integers.**

`Bytes` is a byte at every address. `readInt` and `writeInt` are a C `int` in it: four bytes, least
significant first, two's complement.

* `writeInt_apply_of_notMem`, `write_of_ne` — a store changes only its own bytes.
* `readInt_congr` — a load sees only its own bytes.
* `readInt_writeInt` — a load after a store of a representable value gives it back.
-/

import Mathlib.Data.Set.Basic
import Mathlib.Tactic.Ring
import Mathlib.Tactic.IntervalCases

namespace Baps.Memory

/-- A byte at every address. -/
abbrev Bytes := Nat → UInt8

/-- The addresses of an `int` at `address`. -/
def intCells (address : Nat) : Set Nat := {a | address ≤ a ∧ a < address + 4}

/-- Store one byte. -/
def write (memory : Bytes) (address : Nat) (value : UInt8) : Bytes :=
  fun a => if a = address then value else memory a

/-- The unsigned 32-bit word at an address. -/
def readWord (memory : Bytes) (address : Nat) : Nat :=
  (memory address).toNat + 256 * (memory (address + 1)).toNat +
    65536 * (memory (address + 2)).toNat + 16777216 * (memory (address + 3)).toNat

/-- The `int` at an address. -/
def readInt (memory : Bytes) (address : Nat) : Int :=
  if readWord memory address < 2147483648 then readWord memory address
  else readWord memory address - 4294967296

/-- Store an `int`: the four low bytes of the value. -/
def writeInt (memory : Bytes) (address : Nat) (value : Int) : Bytes := fun a =>
  if address ≤ a ∧ a < address + 4 then
    UInt8.ofNat ((value % 4294967296).toNat / 256 ^ (a - address))
  else memory a

@[simp] theorem write_self (memory : Bytes) (address : Nat) (value : UInt8) :
    write memory address value address = value := if_pos rfl

theorem write_of_ne {memory : Bytes} {address a : Nat} {value : UInt8} (other : a ≠ address) :
    write memory address value a = memory a := if_neg other

theorem writeInt_apply_of_notMem {memory : Bytes} {address a : Nat} {value : Int}
    (outside : a ∉ intCells address) : writeInt memory address value a = memory a :=
  if_neg outside

theorem readInt_congr {first second : Bytes} {address : Nat}
    (same : ∀ a ∈ intCells address, first a = second a) :
    readInt first address = readInt second address := by
  have word : readWord first address = readWord second address := by
    simp only [readWord, same address ⟨le_rfl, by omega⟩, same (address + 1) ⟨by omega, by omega⟩,
      same (address + 2) ⟨by omega, by omega⟩, same (address + 3) ⟨by omega, by omega⟩]
  rw [readInt, readInt, word]

theorem readInt_lt (memory : Bytes) (address : Nat) : readInt memory address < 2147483648 := by
  have bytes := fun i => (memory i).toNat_lt
  have word : readWord memory address < 4294967296 := by
    have first := bytes address
    have second := bytes (address + 1)
    have third := bytes (address + 2)
    have fourth := bytes (address + 3)
    rw [readWord]
    omega
  rw [readInt]
  split <;> omega

theorem le_readInt (memory : Bytes) (address : Nat) : -2147483648 ≤ readInt memory address := by
  rw [readInt]
  split <;> omega

/-- The word a store leaves is the value modulo `2^32`. -/
theorem readWord_writeInt (memory : Bytes) (address : Nat) (value : Int) :
    readWord (writeInt memory address value) address = (value % 4294967296).toNat := by
  have small : (value % 4294967296).toNat < 4294967296 := by omega
  simp only [readWord, writeInt, le_refl, Nat.le_add_right, Nat.add_sub_cancel_left, Nat.sub_self,
    Nat.reduceLT, Nat.lt_add_right_iff_pos, Nat.add_lt_add_iff_left, and_self, if_true,
    Nat.reducePow, UInt8.toNat_ofNat', pow_zero, pow_one, Nat.div_one]
  omega

/-- **A load after a store.** -/
theorem readInt_writeInt {memory : Bytes} {address : Nat} {value : Int}
    (lower : -2147483648 ≤ value) (upper : value < 2147483648) :
    readInt (writeInt memory address value) address = value := by
  rw [readInt, readWord_writeInt]
  split <;> omega

end Baps.Memory
