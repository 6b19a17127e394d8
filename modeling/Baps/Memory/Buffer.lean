/-
**Arrays of fixed size, copied piecewise.**

`load` and `store` are `memcpy` out of cells and into a buffer, and fail outside them. `front` is the
beginning of a buffer, which is what both are described by.

* `load_front` — **what is loaded lies behind the cells before it**.
* `store_front` — **what is stored inside comes behind the cells before it**.

`slice` and `blit` are the same two for a buffer whose size is only known when the program runs.
-/

import Mathlib.Data.Vector.Basic

namespace Baps.Memory

variable {α : Type}

/-- `count` cells from `offset` on. -/
def load (cells : List α) (offset count : Nat) : Option (List.Vector α count) :=
  if inside : offset + count ≤ cells.length then
    some ⟨(cells.drop offset).take count, by rw [List.length_take, List.length_drop]; omega⟩
  else none

/-- Store cells from `offset` on. -/
def store {size : Nat} (buffer : List.Vector α size) (offset : Nat) (data : List α) :
    Option (List.Vector α size) :=
  if inside : offset + data.length ≤ size then
    some ⟨buffer.toList.take offset ++ data ++ buffer.toList.drop (offset + data.length), by
      rw [List.length_append, List.length_append, List.length_take, List.length_drop,
        List.Vector.toList_length]
      omega⟩
  else none

/-- The first cells of a buffer. -/
def front {size : Nat} (buffer : List.Vector α size) (count : Nat) : List α := buffer.toList.take count

section

variable {size offset count : Nat} {buffer : List.Vector α size} {data : List α}

@[simp] theorem front_zero (buffer : List.Vector α size) : front buffer 0 = [] := rfl

/-- **A load inside a buffer.** -/
theorem load_front (buffer : List.Vector α size) (inside : offset + count ≤ size) :
    ∃ loaded, load buffer.toList offset count = some loaded ∧
      front buffer (offset + count) = front buffer offset ++ loaded.toList := by
  refine ⟨⟨_, _⟩, dif_pos (by rwa [List.Vector.toList_length]), ?_⟩
  exact List.take_add

/-- A load of cells that are known. -/
theorem load_append (before : List α) (cells : List.Vector α count) (behind : List α) :
    load (before ++ (cells.toList ++ behind)) before.length count = some cells := by
  have size : cells.toList.length = count := cells.toList_length
  unfold load
  rw [dif_pos (by rw [List.length_append, List.length_append, size]; omega)]
  refine congrArg some (Subtype.ext ?_)
  show ((before ++ (cells.toList ++ behind)).drop before.length).take count = cells.toList
  rw [List.drop_left, List.take_append_of_le_length size.ge, List.take_of_length_le size.le]

/-- **A store inside a buffer.** -/
theorem store_front (buffer : List.Vector α size) (inside : offset + data.length ≤ size) :
    ∃ stored, store buffer offset data = some stored ∧
      front stored (offset + data.length) = front buffer offset ++ data := by
  refine ⟨⟨_, _⟩, dif_pos inside, ?_⟩
  have size : (buffer.toList.take offset ++ data).length = offset + data.length := by
    rw [List.length_append, List.length_take, List.Vector.toList_length]
    omega
  exact (List.take_append_of_le_length size.ge).trans (List.take_of_length_le size.le)

end

/-! ### Buffers of any size -/

/-- `count` cells from `offset` on. -/
def slice (cells : List α) (offset count : Nat) : Option (List α) :=
  if offset + count ≤ cells.length then some ((cells.drop offset).take count) else none

/-- Store cells from `offset` on. -/
def blit (cells : List α) (offset : Nat) (data : List α) : Option (List α) :=
  if offset + data.length ≤ cells.length then
    some (cells.take offset ++ data ++ cells.drop (offset + data.length))
  else none

section

variable {cells data stored : List α} {offset count : Nat}

theorem slice_inside (inside : offset + count ≤ cells.length) :
    slice cells offset count = some ((cells.drop offset).take count) := if_pos inside

/-- **A store inside a buffer** keeps its size and what lies before it. -/
theorem blit_inside (inside : offset + data.length ≤ cells.length) :
    ∃ stored, blit cells offset data = some stored ∧ stored.length = cells.length ∧
      stored.take (offset + data.length) = cells.take offset ++ data := by
  have size : (cells.take offset ++ data).length = offset + data.length := by
    rw [List.length_append, List.length_take]
    omega
  refine ⟨_, if_pos inside, ?_, ?_⟩
  · rw [List.length_append, size, List.length_drop]
    omega
  · exact (List.take_append_of_le_length size.ge).trans (List.take_of_length_le size.le)

end

end Baps.Memory
