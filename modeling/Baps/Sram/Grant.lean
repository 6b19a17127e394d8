/-
**How large a granted block is.**

`_l1_sram_alloc` rounds the size up in a `size_t` and compares the result with the sizes of the pieces.
From `2 ^ 32 - 3` on rounding wraps to zero: then any FREE piece is large enough, and the block is its
empty beginning, or the whole piece if no slot is NULL. Nothing between the user and the allocator looks
at the size.

* `align_wrapped` — what rounding makes of the sizes that wrap.
* `alloc_room_iff` — **when a granted block is as large as asked**, from any tiled table.
* `alloc_wrapped` — two callers at one address.
-/

import Baps.Sram.Pool

namespace Baps.Sram

open Memory

section Grant

variable {n : Nat} {pool : Region} {table : Table n} {i : Fin n}

/-- What a call for `size` bytes owes its caller: a piece of the pool that is as large as asked and has no
address in common with a block handed out before, or `NULL` and the table as it was. -/
structure GrantsRoom (pool : Region) (size : Nat) (table : Table n) (result : Nat × Table n) : Prop where
  granted : result.1 ≠ 0 → ∃ i, (result.2 i).flag = .allocated ∧ (result.2 i).paddr = result.1 ∧
    size ≤ (result.2 i).size ∧ InPool pool (result.2 i) ∧
    ∀ block, IsBlock table block → ∀ address, block.Holds address →
      ¬ Span.Holds ⟨(result.2 i).paddr, (result.2 i).size⟩ address
  refused : result.1 = 0 → result.2 = table

/-- Rounding wraps to zero. -/
theorem align_wrapped {size : Nat} (wraps : 2 ^ 32 - 4 < size) (bits : size < 2 ^ 32) :
    align size = 0 := by
  unfold align
  omega

theorem start_ne_zero (tiles : Tiles pool.toSpan (pieces table)) (live : (table i).flag ≠ .null) :
    (table i).paddr ≠ 0 := by
  have low := (inPool_of_tiles tiles live).low
  have positive := pool.start_pos
  omega

/-- A FREE piece, and what begins it, are apart from the blocks. -/
theorem apart_of_free (tiles : Tiles pool.toSpan (pieces table)) (free : (table i).flag = .free)
    {size : Nat} (inside : size ≤ (table i).size) {block : Span} (taken : IsBlock table block)
    {address : Nat} (held : block.Holds address) :
    ¬ Span.Holds ⟨(table i).paddr, size⟩ address := by
  obtain ⟨k, allocated, rfl⟩ := taken
  have ne : k ≠ i := by
    rintro rfl
    rw [free] at allocated
    cases allocated
  have apart := tiles.apart (pieces_live (Flag.live_of_allocated allocated))
    (pieces_live (Flag.live_of_free free)) ne
  intro also
  simp only [Span.Holds] at held also apart
  omega

/-- The block that is in a slot afterwards. -/
theorem GrantsRoom.of_slot {size addr : Nat} {after : Table n} {piece : Piece}
    (at_slot : after i = piece) (start : piece.paddr = addr) (allocated : piece.flag = .allocated) (large : size ≤ piece.size) (inside : InPool pool piece)
    (apart : ∀ block, IsBlock table block → ∀ address, block.Holds address →
      ¬ Span.Holds ⟨piece.paddr, piece.size⟩ address) :
    GrantsRoom pool size table (addr, after) := by
  subst at_slot
  refine ⟨fun _ => ⟨i, allocated, start, large, inside, apart⟩, fun null => ?_⟩
  have low := inside.low
  have positive := pool.start_pos
  simp only at null
  omega

theorem GrantsRoom.of_null (pool : Region) (size : Nat) (table : Table n) :
    GrantsRoom pool size table (0, table) :=
  ⟨fun ne => absurd rfl ne, fun _ => rfl⟩

/-- **A size that does not wrap.** -/
theorem grantsRoom_of_small (tiles : Tiles pool.toSpan (pieces table)) (pid : Int) {size : Nat}
    (small : size ≤ 2 ^ 32 - 4) : GrantsRoom pool size table (l1SramAlloc pid size table) := by
  by_cases zero : size = 0
  · have result : l1SramAlloc pid size table = (0, table) := if_pos zero
    rw [result]
    exact .of_null pool size table
  have rounded := align_eq small
  rcases alloc_cases pid (Nat.pos_of_ne_zero zero) table with
    ⟨result, -⟩ | ⟨i, free, large, ⟨result, -⟩ | ⟨j, null, -, less, result⟩⟩
  · rw [result]
    exact .of_null pool size table
  · -- the whole piece
    have inside := inPool_of_tiles tiles (Flag.live_of_free free)
    rw [result]
    refine .of_slot (Function.update_self i _ table) rfl rfl (rounded.1.trans large)
      ⟨inside.low, inside.size_pos, inside.high⟩ ?_
    exact fun block taken address held => apart_of_free tiles free le_rfl taken held
  · -- its beginning
    have inside := inPool_of_tiles tiles (Flag.live_of_free free)
    have high := inside.high
    rw [result]
    refine .of_slot (Function.update_self i _ _) rfl rfl rounded.1 ⟨inside.low, ?_, ?_⟩ ?_
    · show 0 < align size
      omega
    · show (table i).paddr + align size ≤ pool.start + pool.length
      omega
    · exact fun block taken address held => apart_of_free tiles free large taken held

/-- **A size that wraps** is granted whenever a piece is FREE, and no piece has it. -/
theorem not_grantsRoom_of_wrapped (tiles : Tiles pool.toSpan (pieces table)) (pid : Int) {size : Nat}
    (wraps : 2 ^ 32 - 4 < size) (bits : size < 2 ^ 32) (free : (table i).flag = .free) :
    ¬ GrantsRoom pool size table (l1SramAlloc pid size table) := by
  have zero := align_wrapped wraps bits
  have given : (l1SramAlloc pid size table).1 ≠ 0 := by
    rcases alloc_cases pid (Nat.zero_lt_of_lt wraps) table with
      ⟨-, nothing⟩ | ⟨k, free, -, ⟨result, -⟩ | ⟨j, -, -, -, result⟩⟩
    · have short := nothing i free
      omega
    all_goals
      rw [result]
      exact start_ne_zero tiles (Flag.live_of_free free)
  intro room
  obtain ⟨k, -, -, large, inside, -⟩ := room.granted given
  have high := inside.high
  have low := inside.low
  have int := pool.length_int
  omega

/-- **A granted block is as large as asked just if** the size does not wrap when it is rounded up, or
there is no FREE piece to grant. The size is any `size_t`, the table any that tiles its pool. -/
theorem alloc_room_iff (tiles : Tiles pool.toSpan (pieces table)) (pid : Int) (size : UInt32) :
    GrantsRoom pool size.toNat table (l1SramAlloc pid size.toNat table) ↔
      size.toNat ≤ 2 ^ 32 - 4 ∨ ∀ i, (table i).flag ≠ .free := by
  by_cases small : size.toNat ≤ 2 ^ 32 - 4
  · exact iff_of_true (grantsRoom_of_small tiles pid small) (.inl small)
  have wraps := Nat.lt_of_not_le small
  constructor
  · intro room
    refine .inr fun i free => ?_
    exact not_grantsRoom_of_wrapped tiles pid wraps size.toNat_lt free room
  · rintro (less | nothing)
    · exact absurd less small
    · rcases alloc_cases pid (Nat.zero_lt_of_lt wraps) table with ⟨result, -⟩ | ⟨i, free, -⟩
      · rw [result]
        exact .of_null pool size.toNat table
      · exact absurd free (nothing i)

end Grant

/-- Six bytes of the small pool. -/
theorem alloc_room_six :
    GrantsRoom smallPool 6 (initialTable 2 smallPool) (l1SramAlloc 1 6 (initialTable 2 smallPool)) :=
  (alloc_room_iff (initialTable_sound 2 smallPool).tiles 1 6).mpr (.inl (by decide))

/-- **`0xFFFFFFFF` bytes of a pool of 64**: the call returns the start of an empty block, and the next one
returns the same address. -/
theorem alloc_wrapped :
    let result := l1SramAlloc 1 0xFFFFFFFF (initialTable 2 smallPool)
    result.1 = 0x1000 ∧ (l1SramAlloc 2 8 result.2).1 = 0x1000 ∧
      ¬ GrantsRoom smallPool 0xFFFFFFFF (initialTable 2 smallPool) result := by
  refine ⟨by decide, by decide, ?_⟩
  exact not_grantsRoom_of_wrapped (i := 0) (initialTable_sound 2 smallPool).tiles 1 (by decide)
    (by decide) (by decide)

end Baps.Sram
