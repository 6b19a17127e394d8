/-
**The L1 SRAM allocator: a table of pieces.**

A pool of on-chip memory is kept as a table of slots. A slot is NULL, or it is a piece of the pool,
FREE or ALLOCATED. Slots are in no order; a NULL slot keeps the address and the size it last had, and
`_l1_sram_free` stops at the first slot with the address it is given, whatever its flag.

* `pool_runs` — **the pieces tile the pool, and exactly the blocks handed out can be freed**, in every
  run from the initial table. The reason is an order between slots: a NULL slot that still has the
  address of a piece comes behind that piece (`Sound.stale`).
* `pool_coalesces` — **no two FREE pieces are neighbours**, so a pool whose blocks have all been freed
  is one piece again.
-/

import Baps.Memory.Tiling
import Mathlib.Algebra.Ring.Nat
import Mathlib.Data.List.FinRange
import Mathlib.Data.List.Induction

namespace Baps.Sram

open Memory

/-! ### The table -/

/-- `SRAM_SLT_NULL`, `SRAM_SLT_FREE` and `SRAM_SLT_ALLOCATED`. -/
inductive Flag
  | null
  | free
  | allocated
  deriving DecidableEq, Repr

/-- `struct l1_sram_piece`. -/
structure Piece where
  paddr : Nat
  size : Nat
  flag : Flag
  pid : Int
  deriving DecidableEq, Repr

/-- A table of `n` slots. -/
abbrev Table (n : Nat) := Fin n → Piece

/-- `paddr + size`, as a pointer. -/
def Piece.stop (piece : Piece) : Nat := (piece.paddr + piece.size) % 2 ^ 32

/-- `size = (size + 3) & ~3`, in a `size_t`. -/
def align (size : Nat) : Nat := (size + 3) % 2 ^ 32 / 4 * 4

section Operations

variable {n : Nat}

/-- `_l1_sram_alloc`: the address of the block, or `NULL`, and the table. The rest of a larger piece
goes to the first NULL slot; if there is none the block is the whole piece. -/
def l1SramAlloc (pid : Int) (size : Nat) (table : Table n) : Nat × Table n :=
  if size = 0 then (0, table)
  else
    match Fin.find? fun i => (table i).flag = .free ∧ align size ≤ (table i).size with
    | none => (0, table)
    | some index =>
      let addr := (table index).paddr
      let taken := Function.update table index { table index with flag := .allocated, pid := pid }
      if align size < (taken index).size then
        match Fin.find? fun i => (taken i).flag = .null with
        | none => (addr, taken)
        | some i =>
          let rest := Function.update taken i
            ⟨(addr + align size) % 2 ^ 32, (taken index).size - align size, .free, 0⟩
          (addr, Function.update rest index { rest index with size := align size })
      else (addr, taken)

/-- The search of `_l1_sram_alloc_max`: the index and the size of the best slot so far. -/
def bestPiece (table : Table n) (best : Option (Fin n) × Nat) (i : Fin n) : Option (Fin n) × Nat :=
  if (table i).flag = .free ∧ best.2 < (table i).size then (some i, (table i).size) else best

/-- `_l1_sram_alloc_max`: the address of the block, or `NULL`, what is in `*psize`, and the table. -/
def l1SramAllocMax (pid : Int) (psize : Nat) (table : Table n) : Nat × Nat × Table n :=
  match (List.finRange n).foldl (bestPiece table) (none, 0) with
  | (none, _) => (0, psize, table)
  | (some index, best) =>
    ((table index).paddr, best,
      Function.update table index { table index with pid := pid, flag := .allocated })

/-- `_l1_sram_free` from "link the next address slot" on. -/
def linkNext (index : Fin n) (table : Table n) : Table n :=
  match Fin.find? fun i => (table index).stop = (table i).paddr ∧ (table i).flag = .free with
  | none => table
  | some i =>
    let unlinked := Function.update table i { table i with pid := 0, flag := .null }
    Function.update unlinked index { unlinked index with
      size := (unlinked index).size + (unlinked i).size, flag := .free }

/-- `_l1_sram_free` from "link the last address slot" on. -/
def linkLast (index : Fin n) (table : Table n) : Table n :=
  match Fin.find? fun i => (table i).stop = (table index).paddr ∧ (table i).flag = .free with
  | none => table
  | some i =>
    let unlinked := Function.update table index { table index with flag := .null }
    Function.update unlinked i { unlinked i with
      size := (unlinked i).size + (unlinked index).size }

/-- `_l1_sram_free`. -/
def l1SramFree (addr : Nat) (table : Table n) : Int × Table n :=
  match Fin.find? fun i => (table i).paddr = addr with
  | none => (-1, table)
  | some index =>
    if (table index).flag ≠ .allocated then (-1, table)
    else
      let freed := Function.update table index { table index with pid := 0, flag := .free }
      (0, linkLast index (linkNext index freed))

end Operations

/-- A pool: a stretch of memory that does not start at `NULL`, with a size that is an `int`. -/
structure Region extends Span where
  start_pos : 0 < start
  length_pos : 0 < length
  length_int : length < 2 ^ 31
  fits : start + length ≤ 2 ^ 32

/-- The table after initialisation: `memset`, and one FREE piece. -/
def initialTable (n : Nat) (pool : Region) : Table (n + 1) :=
  Function.update (fun _ => ⟨0, 0, .null, 0⟩) 0 ⟨pool.start, pool.length, .free, 0⟩

/-! ### The pieces -/

/-- The memory of a slot. -/
def Piece.span (piece : Piece) : Option Span :=
  if piece.flag = .null then none else some ⟨piece.paddr, piece.size⟩

/-- The pieces of a table. -/
def pieces {n : Nat} (table : Table n) (i : Fin n) : Option Span := (table i).span

/-- NULL slots with the address of a piece come behind it. -/
def Stale {n : Nat} (table : Table n) : Prop :=
  ∀ i j, (table i).flag ≠ .null → (table j).flag = .null → (table j).paddr = (table i).paddr → i < j

/-- A table of a pool: what every operation keeps. -/
structure Sound {n : Nat} (pool : Region) (table : Table n) : Prop where
  tiles : Tiles pool.toSpan (pieces table)
  stale : Stale table
  coalesced : ∀ i j, (table i).flag = .free → (table j).flag = .free →
    (table i).paddr + (table i).size ≠ (table j).paddr

/-- An allocated block. -/
def IsBlock {n : Nat} (table : Table n) (block : Span) : Prop :=
  ∃ i, (table i).flag = .allocated ∧ block = ⟨(table i).paddr, (table i).size⟩

/-! ### Searching the slots -/

section Search

variable {n : Nat} {p : Fin n → Prop} [DecidablePred p]

/-- Nothing found: no slot passes the test. -/
theorem not_of_find?_none (none : (Fin.find? fun i => p i) = none) (i : Fin n) : ¬ p i :=
  of_decide_eq_false (Fin.find?_eq_none_iff.mp none i)

/-- The slot found passes the test, and no slot before it does. -/
theorem of_find?_some {i : Fin n} (found : (Fin.find? fun i => p i) = some i) :
    p i ∧ ∀ k < i, ¬ p k := by
  obtain ⟨passes, before⟩ := Fin.find?_eq_some_iff.mp found
  exact ⟨of_decide_eq_true passes, fun k less => of_decide_eq_false (before k less)⟩

end Search

section Pieces

variable {n : Nat} {pool : Region} {table : Table n} {i j index : Fin n}

theorem Piece.span_live {piece : Piece} (live : piece.flag ≠ .null) :
    piece.span = some ⟨piece.paddr, piece.size⟩ := if_neg live

theorem pieces_live (live : (table i).flag ≠ .null) :
    pieces table i = some ⟨(table i).paddr, (table i).size⟩ := Piece.span_live live

theorem pieces_null (null : (table i).flag = .null) : pieces table i = none := if_pos null

theorem pieces_update (table : Table n) (i : Fin n) (piece : Piece) :
    pieces (Function.update table i piece) = Function.update (pieces table) i piece.span := by
  funext k
  by_cases same : k = i
  · subst same
    simp [pieces]
  · simp [pieces, same]

theorem Flag.live_of_free {flag : Flag} (free : flag = .free) : flag ≠ .null := by simp [free]

theorem Flag.live_of_allocated {flag : Flag} (allocated : flag = .allocated) : flag ≠ .null := by
  simp [allocated]

/-- A piece of a pool. -/
structure InPool (pool : Region) (piece : Piece) : Prop where
  low : pool.start ≤ piece.paddr
  size_pos : 0 < piece.size
  high : piece.paddr + piece.size ≤ pool.start + pool.length

theorem inPool_of_tiles (tiles : Tiles pool.toSpan (pieces table))
    (live : (table i).flag ≠ .null) : InPool pool (table i) := by
  have within := tiles.inside (pieces_live live)
  exact ⟨within.1, tiles.nonempty i _ (pieces_live live), within.2⟩

/-- Behind a piece of the pool the pointer does not wrap, unless nothing is behind it. -/
theorem InPool.stop_eq {piece other : Piece} (inside : InPool pool piece) (also : InPool pool other) :
    piece.stop = other.paddr ↔ piece.paddr + piece.size = other.paddr := by
  have fits := pool.fits
  have start := pool.start_pos
  obtain ⟨low, size_pos, high⟩ := inside
  obtain ⟨otherLow, otherPos, otherHigh⟩ := also
  unfold Piece.stop
  omega

end Pieces

/-! ### The moves -/

section Moves

variable {n : Nat} {pool : Region} {table : Table n} {i j index : Fin n}

/-- A live slot keeps its memory. -/
theorem Tiles.flag {piece : Piece} (tiles : Tiles pool.toSpan (pieces table))
    (same : piece.span = (table index).span) :
    Tiles pool.toSpan (pieces (Function.update table index piece)) := by
  have kept : pieces (Function.update table index piece) = pieces table := by
    rw [pieces_update, same]
    exact Function.update_eq_self index (pieces table)
  rw [kept]
  exact tiles

/-- A live slot keeps its address. -/
theorem Stale.flag {piece : Piece} (stale : Stale table) (live : (table index).flag ≠ .null)
    (also : piece.flag ≠ .null) (same : piece.paddr = (table index).paddr) :
    Stale (Function.update table index piece) := by
  intro i j live_i null_j equal
  have j_ne : j ≠ index := by
    rintro rfl
    exact also (by simpa using null_j)
  rw [Function.update_of_ne j_ne] at null_j equal
  by_cases i_eq : i = index
  · subst i_eq
    rw [Function.update_self, same] at equal
    exact stale i j live null_j equal
  · rw [Function.update_of_ne i_eq] at live_i equal
    exact stale i j live_i null_j equal

/-- A piece is put into the first NULL slot. -/
theorem Stale.fill {piece : Piece} (stale : Stale table) (live : piece.flag ≠ .null)
    (first : ∀ j < index, (table j).flag ≠ .null) : Stale (Function.update table index piece) := by
  intro i j live_i null_j equal
  have j_ne : j ≠ index := by
    rintro rfl
    exact live (by simpa using null_j)
  rw [Function.update_of_ne j_ne] at null_j equal
  by_cases i_eq : i = index
  · subst i_eq
    rcases Nat.lt_trichotomy i.val j.val with less | same | more
    · exact less
    · exact absurd (Fin.ext same).symm j_ne
    · exact absurd null_j (first j more)
  · rw [Function.update_of_ne i_eq] at live_i equal
    exact stale i j live_i null_j equal

/-- A piece gives up its slot. -/
theorem Stale.clear {piece : Piece} (stale : Stale table)
    (alone : ∀ k, k ≠ index → (table k).flag ≠ .null → piece.paddr ≠ (table k).paddr)
    (null : piece.flag = .null) : Stale (Function.update table index piece) := by
  intro i j live_i null_j equal
  have i_ne : i ≠ index := by
    rintro rfl
    exact live_i (by simpa using null)
  rw [Function.update_of_ne i_ne] at live_i equal
  by_cases j_eq : j = index
  · subst j_eq
    rw [Function.update_self] at equal
    exact absurd equal (alone i i_ne live_i)
  · rw [Function.update_of_ne j_eq] at null_j equal
    exact stale i j live_i null_j equal

/-- Pieces at one address are one piece. -/
theorem paddr_inj (tiles : Tiles pool.toSpan (pieces table)) (live : (table i).flag ≠ .null)
    (also : (table j).flag ≠ .null) (same : (table i).paddr = (table j).paddr) : i = j :=
  tiles.start_inj (pieces_live live) (pieces_live also) same

/-- A slot that is not FREE after a change: the FREE pieces are the others. -/
theorem free_of_update {piece : Piece} (taken : piece.flag ≠ .free)
    (free : (Function.update table index piece i).flag = .free) : i ≠ index ∧ (table i).flag = .free := by
  have ne : i ≠ index := by
    rintro rfl
    exact taken (by simpa using free)
  rw [Function.update_of_ne ne] at free
  exact ⟨ne, free⟩

/-- No FREE piece is right behind another. -/
def Coalesced (table : Table n) : Prop :=
  ∀ i j, (table i).flag = .free → (table j).flag = .free →
    (table i).paddr + (table i).size ≠ (table j).paddr

/-- **A slot changes**: the other pieces do not touch, and the new one touches none of them. -/
theorem Coalesced.update {piece : Piece}
    (others : ∀ i j, i ≠ index → j ≠ index → (table i).flag = .free → (table j).flag = .free →
      (table i).paddr + (table i).size ≠ (table j).paddr)
    (positive : piece.flag = .free → 0 < piece.size)
    (behind : piece.flag = .free → ∀ j ≠ index, (table j).flag = .free →
      piece.paddr + piece.size ≠ (table j).paddr)
    (before : piece.flag = .free → ∀ i ≠ index, (table i).flag = .free →
      (table i).paddr + (table i).size ≠ piece.paddr) :
    Coalesced (Function.update table index piece) := by
  intro i j free_i free_j
  by_cases i_eq : i = index
  · subst i_eq
    rw [Function.update_self] at free_i ⊢
    by_cases j_eq : j = i
    · subst j_eq
      rw [Function.update_self]
      have size_pos := positive free_i
      omega
    · rw [Function.update_of_ne j_eq] at free_j ⊢
      exact behind free_i j j_eq free_j
  · rw [Function.update_of_ne i_eq] at free_i ⊢
    by_cases j_eq : j = index
    · subst j_eq
      rw [Function.update_self] at free_j ⊢
      exact before free_j i i_eq free_i
    · rw [Function.update_of_ne j_eq] at free_j ⊢
      exact others i j i_eq j_eq free_i free_j

/-- Nothing is to be shown of a slot that is not FREE. -/
theorem Coalesced.skip {piece : Piece}
    (others : ∀ i j, i ≠ index → j ≠ index → (table i).flag = .free → (table j).flag = .free →
      (table i).paddr + (table i).size ≠ (table j).paddr)
    (taken : piece.flag ≠ .free) : Coalesced (Function.update table index piece) :=
  .update others (fun free => absurd free taken) (fun free => absurd free taken)
    fun free => absurd free taken

/-- **A FREE piece is cut**: its front is allocated, the rest goes to the first NULL slot. -/
theorem Sound.cut {size : Nat} {pid : Int} (sound : Sound pool table)
    (free : (table i).flag = .free) (null : (table j).flag = .null)
    (first : ∀ k < j, (table k).flag ≠ .null) (positive : 0 < size) (less : size < (table i).size) :
    Sound pool (Function.update (Function.update table j
      ⟨(table i).paddr + size, (table i).size - size, .free, 0⟩) i
        ⟨(table i).paddr, size, .allocated, pid⟩) := by
  have live := Flag.live_of_free free
  have ne : j ≠ i := by
    rintro rfl
    exact live null
  have rest : Coalesced (Function.update table j
      ⟨(table i).paddr + size, (table i).size - size, .free, 0⟩) := by
    refine .update (fun k l _ _ => sound.coalesced k l) (fun _ => Nat.sub_pos_of_lt less)
      (fun _ l _ free_l => ?_) fun _ k _ free_k => ?_
    · have apart := sound.coalesced i l free free_l
      show (table i).paddr + size + ((table i).size - size) ≠ (table l).paddr
      omega
    · show (table k).paddr + (table k).size ≠ (table i).paddr + size
      by_cases k_eq : k = i
      · subst k_eq
        omega
      · have apart := sound.tiles.apart (pieces_live (Flag.live_of_free free_k)) (pieces_live live) k_eq
        have size_pos := (inPool_of_tiles sound.tiles (Flag.live_of_free free_k)).size_pos
        simp only at apart
        omega
  refine ⟨?_, ?_, Coalesced.skip (fun k l _ _ => rest k l) (by simp)⟩
  · rw [pieces_update, pieces_update]
    exact sound.tiles.split (pieces_live live) (pieces_null null) positive less
  · have filled : Stale (Function.update table j
        ⟨(table i).paddr + size, (table i).size - size, .free, 0⟩) := sound.stale.fill (by simp) first
    refine filled.flag ?_ (by simp) ?_
    · rw [Function.update_of_ne ne.symm]
      exact live
    · rw [Function.update_of_ne ne.symm]

/-- A FREE piece is allocated as it is. -/
theorem Sound.take {pid : Int} (sound : Sound pool table) (free : (table i).flag = .free) :
    Sound pool (Function.update table i { table i with flag := .allocated, pid := pid }) := by
  have live := Flag.live_of_free free
  refine ⟨Tiles.flag sound.tiles ?_, sound.stale.flag live (by simp) rfl,
    Coalesced.skip (fun k l _ _ => sound.coalesced k l) (by simp)⟩
  rw [Piece.span_live live, Piece.span_live (by simp)]

/-- A table in which one FREE piece may have FREE neighbours. -/
structure Loose (pool : Region) (table : Table n) (index : Fin n) : Prop where
  tiles : Tiles pool.toSpan (pieces table)
  stale : Stale table
  free : (table index).flag = .free
  coalesced : ∀ i j, i ≠ index → j ≠ index → (table i).flag = .free → (table j).flag = .free →
    (table i).paddr + (table i).size ≠ (table j).paddr

/-- A block is freed, before its neighbours are looked for. -/
theorem Sound.release (sound : Sound pool table) (allocated : (table index).flag = .allocated) :
    Loose pool (Function.update table index { table index with pid := 0, flag := .free }) index := by
  have live := Flag.live_of_allocated allocated
  refine ⟨Tiles.flag sound.tiles ?_, sound.stale.flag live (by simp) rfl, by simp,
    fun i j i_ne j_ne free_i free_j => ?_⟩
  · rw [Piece.span_live live, Piece.span_live (by simp)]
  · rw [Function.update_of_ne i_ne] at free_i ⊢
    rw [Function.update_of_ne j_ne] at free_j ⊢
    exact sound.coalesced i j free_i free_j

/-- A piece takes in the one behind it. -/
theorem Stale.merge {front rear : Piece} (tiles : Tiles pool.toSpan (pieces table))
    (stale : Stale table) (live : (table i).flag ≠ .null) (also : (table j).flag ≠ .null) (ne : i ≠ j)
    (null : rear.flag = .null) (rearSame : rear.paddr = (table j).paddr)
    (kept : front.flag ≠ .null) (frontSame : front.paddr = (table i).paddr) :
    Stale (Function.update (Function.update table j rear) i front) := by
  have cleared : Stale (Function.update table j rear) := by
    refine stale.clear (fun k other live_k same => ?_) null
    rw [rearSame] at same
    exact other (paddr_inj tiles live_k also same.symm)
  refine cleared.flag ?_ kept ?_
  · rw [Function.update_of_ne ne]
    exact live
  · rw [Function.update_of_ne ne]
    exact frontSame

theorem Tiles.merged {front rear : Piece} (tiles : Tiles pool.toSpan (pieces table))
    (live : (table i).flag ≠ .null) (also : (table j).flag ≠ .null)
    (behind : (table i).paddr + (table i).size = (table j).paddr)
    (null : rear.flag = .null) (kept : front.flag ≠ .null) (same : front.paddr = (table i).paddr)
    (both : front.size = (table i).size + (table j).size) :
    Tiles pool.toSpan (pieces (Function.update (Function.update table j rear) i front)) := by
  rw [pieces_update, pieces_update, Piece.span_live kept, same, both,
    show rear.span = none from if_pos null]
  exact tiles.merge (pieces_live live) (pieces_live also) behind

/-- What `linkNext` does: it finds a FREE piece at the address behind, or none. -/
theorem linkNext_cases (index : Fin n) (table : Table n) :
    (linkNext index table = table ∧
      ∀ j, ¬ ((table index).stop = (table j).paddr ∧ (table j).flag = .free)) ∨
    ∃ i, (table index).stop = (table i).paddr ∧ (table i).flag = .free ∧
      (index ≠ i → linkNext index table = Function.update
        (Function.update table i { table i with pid := 0, flag := .null }) index
        { table index with size := (table index).size + (table i).size, flag := .free }) := by
  unfold linkNext
  split
  · rename_i none
    exact .inl ⟨rfl, not_of_find?_none none⟩
  · rename_i i found
    obtain ⟨⟨stop, free⟩, -⟩ := of_find?_some found
    refine .inr ⟨i, stop, free, fun ne => ?_⟩
    simp [ne]

/-- What `linkLast` does. -/
theorem linkLast_cases (index : Fin n) (table : Table n) :
    (linkLast index table = table ∧
      ∀ j, ¬ ((table j).stop = (table index).paddr ∧ (table j).flag = .free)) ∨
    ∃ i, (table i).stop = (table index).paddr ∧ (table i).flag = .free ∧
      (i ≠ index → linkLast index table = Function.update
        (Function.update table index { table index with flag := .null }) i
        { table i with size := (table i).size + (table index).size }) := by
  unfold linkLast
  split
  · rename_i none
    exact .inl ⟨rfl, not_of_find?_none none⟩
  · rename_i i found
    obtain ⟨⟨stop, free⟩, -⟩ := of_find?_some found
    refine .inr ⟨i, stop, free, fun ne => ?_⟩
    simp [ne]

/-- Nothing FREE is behind a piece. -/
def Last (table : Table n) (index : Fin n) : Prop :=
  ∀ j, (table j).flag = .free → (table index).paddr + (table index).size ≠ (table j).paddr

/-- **The next piece is linked**, if it is FREE. -/
theorem Loose.linkNext (loose : Loose pool table index) :
    Loose pool (linkNext index table) index ∧ Last (Sram.linkNext index table) index := by
  have live := Flag.live_of_free loose.free
  have inside := inPool_of_tiles loose.tiles live
  rcases linkNext_cases index table with ⟨same, nothing⟩ | ⟨i, stop, free, merged⟩
  · rw [same]
    refine ⟨loose, fun j free behind => nothing j ⟨(inside.stop_eq ?_).mpr behind, free⟩⟩
    exact inPool_of_tiles loose.tiles (Flag.live_of_free free)
  · have also := inPool_of_tiles loose.tiles (Flag.live_of_free free)
    have behind := (inside.stop_eq also).mp stop
    have size_pos := inside.size_pos
    have ne : index ≠ i := by
      rintro rfl
      omega
    rw [merged ne]
    refine ⟨⟨Tiles.merged loose.tiles live (Flag.live_of_free free) behind rfl (by simp) rfl rfl,
      Stale.merge loose.tiles loose.stale live (Flag.live_of_free free) ne rfl rfl (by simp) rfl,
      by simp, fun k l k_ne l_ne free_k free_l => ?_⟩, fun j free_j => ?_⟩
    · rw [Function.update_of_ne k_ne] at free_k ⊢
      rw [Function.update_of_ne l_ne] at free_l ⊢
      obtain ⟨k_ne_i, free_k⟩ := free_of_update (by simp) free_k
      obtain ⟨l_ne_i, free_l⟩ := free_of_update (by simp) free_l
      rw [Function.update_of_ne k_ne_i, Function.update_of_ne l_ne_i]
      exact loose.coalesced k l k_ne l_ne free_k free_l
    · rw [Function.update_self]
      show (table index).paddr + ((table index).size + (table i).size) ≠ _
      by_cases j_eq : j = index
      · subst j_eq
        rw [Function.update_self]
        show _ ≠ (table j).paddr
        omega
      · rw [Function.update_of_ne j_eq] at free_j ⊢
        obtain ⟨j_ne, free_j⟩ := free_of_update (by simp) free_j
        rw [Function.update_of_ne j_ne]
        have apart := loose.coalesced i j ne.symm j_eq free free_j
        omega

/-- **The piece before is linked**, if it is FREE: then nothing is loose. -/
theorem Loose.linkLast (loose : Loose pool table index) (last : Last table index) :
    Sound pool (linkLast index table) := by
  have live := Flag.live_of_free loose.free
  have inside := inPool_of_tiles loose.tiles live
  rcases linkLast_cases index table with ⟨same, nothing⟩ | ⟨i, stop, free, merged⟩
  · rw [same]
    refine ⟨loose.tiles, loose.stale, fun k l free_k free_l behind => ?_⟩
    by_cases k_eq : k = index
    · subst k_eq
      exact last l free_l behind
    · by_cases l_eq : l = index
      · subst l_eq
        have also := inPool_of_tiles loose.tiles (Flag.live_of_free free_k)
        exact nothing k ⟨(also.stop_eq inside).mpr behind, free_k⟩
      · exact loose.coalesced k l k_eq l_eq free_k free_l behind
  · have also := inPool_of_tiles loose.tiles (Flag.live_of_free free)
    have behind := (also.stop_eq inside).mp stop
    have size_pos := also.size_pos
    have ne : i ≠ index := by
      rintro rfl
      omega
    rw [merged ne]
    have cleared : Coalesced (Function.update table index { table index with flag := .null }) :=
      .skip loose.coalesced (by simp)
    refine ⟨Tiles.merged loose.tiles (Flag.live_of_free free) live behind rfl
        (Flag.live_of_free free) rfl rfl,
      Stale.merge loose.tiles loose.stale (Flag.live_of_free free) live ne rfl rfl
        (Flag.live_of_free free) rfl,
      Coalesced.update (fun k l _ _ => cleared k l) (fun _ => Nat.add_pos_left size_pos _)
        (fun _ l _ free_l => ?_) fun _ k _ free_k => ?_⟩
    · obtain ⟨l_ne, free_l⟩ := free_of_update (by simp) free_l
      rw [Function.update_of_ne l_ne]
      have apart := last l free_l
      show (table i).paddr + ((table i).size + (table index).size) ≠ _
      omega
    · obtain ⟨k_ne, free_k⟩ := free_of_update (by simp) free_k
      rw [Function.update_of_ne k_ne]
      exact loose.coalesced k i k_ne ne free_k free

end Moves

/-! ### The operations -/

section Specs

variable {n : Nat} {pool : Region} {table : Table n} {i : Fin n} {piece : Piece} {block : Span}

theorem isBlock_skip (before : (table i).flag ≠ .allocated) (after : piece.flag ≠ .allocated) :
    IsBlock (Function.update table i piece) block ↔ IsBlock table block := by
  constructor
  · rintro ⟨k, allocated, rfl⟩
    have ne : k ≠ i := by
      rintro rfl
      exact after (by simpa using allocated)
    rw [Function.update_of_ne ne] at allocated ⊢
    exact ⟨k, allocated, rfl⟩
  · rintro ⟨k, allocated, rfl⟩
    have ne : k ≠ i := by
      rintro rfl
      exact before allocated
    exact ⟨k, by rw [Function.update_of_ne ne, allocated], by rw [Function.update_of_ne ne]⟩

theorem isBlock_take (before : (table i).flag ≠ .allocated) (after : piece.flag = .allocated) :
    IsBlock (Function.update table i piece) block ↔
      IsBlock table block ∨ block = ⟨piece.paddr, piece.size⟩ := by
  constructor
  · rintro ⟨k, allocated, rfl⟩
    by_cases same : k = i
    · subst same
      rw [Function.update_self]
      exact .inr rfl
    · rw [Function.update_of_ne same] at allocated ⊢
      exact .inl ⟨k, allocated, rfl⟩
  · rintro (⟨k, allocated, rfl⟩ | rfl)
    · have ne : k ≠ i := by
        rintro rfl
        exact before allocated
      exact ⟨k, by rw [Function.update_of_ne ne, allocated], by rw [Function.update_of_ne ne]⟩
    · exact ⟨i, by rw [Function.update_self, after], by rw [Function.update_self]⟩

theorem align_eq {size : Nat} (small : size ≤ 2 ^ 32 - 4) :
    size ≤ align size ∧ align size < size + 4 := by
  unfold align
  omega

/-- What `_l1_sram_alloc` does: it finds no piece, takes a whole one, or cuts one. -/
theorem alloc_cases (pid : Int) {size : Nat} (positive : 0 < size) (table : Table n) :
    (l1SramAlloc pid size table = (0, table) ∧
      ∀ i, (table i).flag = .free → (table i).size < align size) ∨
    ∃ i, (table i).flag = .free ∧ align size ≤ (table i).size ∧
      ((l1SramAlloc pid size table = ((table i).paddr,
          Function.update table i { table i with flag := .allocated, pid := pid }) ∧
        (align size = (table i).size ∨ ∀ j, (table j).flag ≠ .null)) ∨
      ∃ j, (table j).flag = .null ∧ (∀ k < j, (table k).flag ≠ .null) ∧ align size < (table i).size ∧
        l1SramAlloc pid size table = ((table i).paddr, Function.update (Function.update table j
          ⟨((table i).paddr + align size) % 2 ^ 32, (table i).size - align size, .free, 0⟩) i
            ⟨(table i).paddr, align size, .allocated, pid⟩)) := by
  unfold l1SramAlloc
  rw [if_neg (by omega)]
  split
  · rename_i none
    refine .inl ⟨rfl, fun i free => ?_⟩
    have test := not_of_find?_none none i
    rw [not_and] at test
    exact Nat.lt_of_not_le (test free)
  · rename_i i found
    obtain ⟨⟨free, large⟩, -⟩ := of_find?_some found
    refine .inr ⟨i, free, large, ?_⟩
    have nulls : ∀ j, (Function.update table i
        { table i with flag := .allocated, pid := pid } j).flag = .null ↔ (table j).flag = .null := by
      intro j
      by_cases same : j = i
      · subst same
        simp [free]
      · rw [Function.update_of_ne same]
    simp only [Function.update_self, nulls]
    split
    · rename_i larger
      split
      · rename_i full
        exact .inl ⟨rfl, .inr (not_of_find?_none full)⟩
      · rename_i j first
        obtain ⟨null, before⟩ := of_find?_some first
        have ne : i ≠ j := by
          rintro rfl
          exact Flag.live_of_free free null
        refine .inr ⟨j, null, before, larger, ?_⟩
        rw [Function.update_comm ne, Function.update_idem]
        simp
    · exact .inl ⟨rfl, .inl (by omega)⟩

/-- A block has been handed out: one that was FREE before. -/
structure Grants (pool : Region) (block : Span) (table after : Table n) : Prop where
  sound : Sound pool after
  fresh : ∀ other, IsBlock table other → other.start ≠ block.start
  start_ne : block.start ≠ 0
  blocks : ∀ other, IsBlock after other ↔ IsBlock table other ∨ other = block

theorem Sound.fresh (sound : Sound pool table) (free : (table i).flag = .free)
    {other : Span} (allocated : IsBlock table other) : other.start ≠ (table i).paddr := by
  obtain ⟨k, flag, rfl⟩ := allocated
  intro same
  obtain rfl := paddr_inj sound.tiles (Flag.live_of_allocated flag) (Flag.live_of_free free) same
  rw [free] at flag
  cases flag

theorem Sound.start_ne (sound : Sound pool table) (live : (table i).flag ≠ .null) :
    (table i).paddr ≠ 0 := by
  have low := (inPool_of_tiles sound.tiles live).low
  have start := pool.start_pos
  omega

/-- **`_l1_sram_alloc`**: a block of the size asked for, or nothing if no FREE piece has it. -/
theorem Sound.alloc {size : Nat} (sound : Sound pool table) (pid : Int) (positive : 0 < size)
    (small : size ≤ 2 ^ 32 - 4) :
    (l1SramAlloc pid size table = (0, table) ∧
      ∀ i, (table i).flag = .free → (table i).size < align size) ∨
    ∃ block, (l1SramAlloc pid size table).1 = block.start ∧ size ≤ block.length ∧
      Grants pool block table (l1SramAlloc pid size table).2 := by
  have rounded := align_eq small
  rcases alloc_cases pid positive table with nothing | ⟨i, free, large, whole | ⟨j, null, first, cut⟩⟩
  · exact .inl nothing
  · obtain ⟨result, -⟩ := whole
    refine .inr ⟨⟨(table i).paddr, (table i).size⟩, by rw [result], by simp only; omega, ?_⟩
    rw [result]
    refine ⟨sound.take free, fun _ => sound.fresh free, sound.start_ne (Flag.live_of_free free),
      fun other => ?_⟩
    exact isBlock_take (by simp [free]) rfl
  · obtain ⟨less, result⟩ := cut
    have high := (inPool_of_tiles sound.tiles (Flag.live_of_free free)).high
    have fits := pool.fits
    rw [Nat.mod_eq_of_lt (by omega)] at result
    refine .inr ⟨⟨(table i).paddr, align size⟩, by rw [result], by simp only; omega, ?_⟩
    have ne : i ≠ j := by
      rintro rfl
      exact Flag.live_of_free free null
    rw [result]
    refine ⟨sound.cut free null first (by omega) less, fun _ => sound.fresh free,
      sound.start_ne (Flag.live_of_free free), fun other => ?_⟩
    rw [isBlock_take (by simp [ne, free]) rfl, isBlock_skip (by simp [null]) (by simp)]

/-- The search of `_l1_sram_alloc_max` ends at a FREE piece, unless there is none. -/
theorem bestPiece_foldl (table : Table n) (slots : List (Fin n)) :
    ((slots.foldl (bestPiece table) (none, 0) = (none, 0)) ∧
      ∀ i ∈ slots, (table i).flag = .free → (table i).size = 0) ∨
    ∃ i, (slots.foldl (bestPiece table) (none, 0) = (some i, (table i).size)) ∧
      (table i).flag = .free ∧ 0 < (table i).size ∧
      ∀ j ∈ slots, (table j).flag = .free → (table j).size ≤ (table i).size := by
  induction slots using List.reverseRecOn with
  | nil => exact .inl ⟨rfl, by simp⟩
  | append_singleton slots j ih =>
    rw [List.foldl_append, List.foldl_cons, List.foldl_nil]
    rcases ih with ⟨result, nothing⟩ | ⟨i, result, free, positive, largest⟩
    · rw [result]
      unfold bestPiece
      split
      · rename_i better
        refine .inr ⟨j, rfl, better.1, better.2, fun k member free_k => ?_⟩
        rcases List.mem_append.mp member with before | last
        · rw [nothing k before free_k]
          exact Nat.zero_le _
        · rw [List.mem_singleton.mp last]
      · rename_i worse
        refine .inl ⟨rfl, fun k member free_k => ?_⟩
        rcases List.mem_append.mp member with before | last
        · exact nothing k before free_k
        · rw [List.mem_singleton.mp last] at free_k ⊢
          simp only [free_k, true_and] at worse
          omega
    · rw [result]
      unfold bestPiece
      split
      · rename_i better
        refine .inr ⟨j, rfl, better.1, by simp only at better; omega, fun k member free_k => ?_⟩
        rcases List.mem_append.mp member with before | last
        · have least := largest k before free_k
          simp only at better
          omega
        · rw [List.mem_singleton.mp last]
      · rename_i worse
        refine .inr ⟨i, rfl, free, positive, fun k member free_k => ?_⟩
        rcases List.mem_append.mp member with before | last
        · exact largest k before free_k
        · rw [List.mem_singleton.mp last] at free_k ⊢
          simp only [free_k, true_and] at worse
          omega

/-- **`_l1_sram_alloc_max`**: the largest FREE piece, or nothing if there is none. -/
theorem Sound.allocMax (sound : Sound pool table) (pid : Int) (psize : Nat) :
    (l1SramAllocMax pid psize table = (0, psize, table) ∧ ∀ i, (table i).flag ≠ .free) ∨
    ∃ block, (l1SramAllocMax pid psize table).1 = block.start ∧
      (l1SramAllocMax pid psize table).2.1 = block.length ∧
      (∀ i, (table i).flag = .free → (table i).size ≤ block.length) ∧
      Grants pool block table (l1SramAllocMax pid psize table).2.2 := by
  unfold l1SramAllocMax
  rcases bestPiece_foldl table (List.finRange n) with ⟨result, nothing⟩ | ⟨i, result, free, -, largest⟩
  · rw [result]
    refine .inl ⟨rfl, fun i free => ?_⟩
    have size_pos := (inPool_of_tiles sound.tiles (Flag.live_of_free free)).size_pos
    have zero := nothing i (List.mem_finRange i) free
    omega
  · rw [result]
    refine .inr ⟨⟨(table i).paddr, (table i).size⟩, rfl, rfl,
      fun k => largest k (List.mem_finRange k), ?_⟩
    refine ⟨sound.take free, fun _ => sound.fresh free, sound.start_ne (Flag.live_of_free free),
      fun other => ?_⟩
    exact isBlock_take (by simp [free]) rfl

theorem isBlock_linkNext {index : Fin n} (loose : Loose pool table index) :
    IsBlock (linkNext index table) block ↔ IsBlock table block := by
  have inside := inPool_of_tiles loose.tiles (Flag.live_of_free loose.free)
  rcases linkNext_cases index table with ⟨same, -⟩ | ⟨i, stop, free, merged⟩
  · rw [same]
  · have also := inPool_of_tiles loose.tiles (Flag.live_of_free free)
    have behind := (inside.stop_eq also).mp stop
    have size_pos := inside.size_pos
    have ne : index ≠ i := by
      rintro rfl
      omega
    rw [merged ne, isBlock_skip (by simp [ne, loose.free]) (by simp),
      isBlock_skip (by simp [free]) (by simp)]

theorem isBlock_linkLast {index : Fin n} (loose : Loose pool table index) :
    IsBlock (linkLast index table) block ↔ IsBlock table block := by
  have inside := inPool_of_tiles loose.tiles (Flag.live_of_free loose.free)
  rcases linkLast_cases index table with ⟨same, -⟩ | ⟨i, stop, free, merged⟩
  · rw [same]
  · have also := inPool_of_tiles loose.tiles (Flag.live_of_free free)
    have behind := (also.stop_eq inside).mp stop
    have size_pos := also.size_pos
    have ne : i ≠ index := by
      rintro rfl
      omega
    rw [merged ne, isBlock_skip (by simp [ne, free]) (by simp [free]),
      isBlock_skip (by simp [loose.free]) (by simp)]

/-- Blocks at one address are one block. -/
theorem Sound.block_inj {other : Span} (sound : Sound pool table) (first : IsBlock table block)
    (second : IsBlock table other) (same : block.start = other.start) : block = other := by
  obtain ⟨i, allocated, rfl⟩ := first
  obtain ⟨j, also, rfl⟩ := second
  obtain rfl := paddr_inj sound.tiles (Flag.live_of_allocated allocated)
    (Flag.live_of_allocated also) same
  rfl

theorem Sound.isBlock_release (sound : Sound pool table) (allocated : (table i).flag = .allocated) :
    IsBlock (Function.update table i { table i with pid := 0, flag := .free }) block ↔
      IsBlock table block ∧ block ≠ ⟨(table i).paddr, (table i).size⟩ := by
  constructor
  · rintro ⟨k, flag, rfl⟩
    have ne : k ≠ i := by
      rintro rfl
      simp at flag
    rw [Function.update_of_ne ne] at flag ⊢
    refine ⟨⟨k, flag, rfl⟩, fun same => ne ?_⟩
    exact paddr_inj sound.tiles (Flag.live_of_allocated flag) (Flag.live_of_allocated allocated)
      (congrArg Span.start same)
  · rintro ⟨⟨k, flag, rfl⟩, other⟩
    have ne : k ≠ i := by
      rintro rfl
      exact other rfl
    exact ⟨k, by rw [Function.update_of_ne ne, flag], by rw [Function.update_of_ne ne]⟩

/-- A block has been taken back. -/
structure TakesBack (pool : Region) (block : Span) (table after : Table n) : Prop where
  sound : Sound pool after
  was : IsBlock table block
  blocks : ∀ other, IsBlock after other ↔ IsBlock table other ∧ other ≠ block

/-- **`_l1_sram_free`**: the block at the address, or nothing if there is none. A FREE piece at the
address rules a block out since pieces start at different addresses, a NULL slot since it would be
behind the block. -/
theorem Sound.free (sound : Sound pool table) (addr : Nat) :
    (l1SramFree addr table = (-1, table) ∧ ∀ block, IsBlock table block → block.start ≠ addr) ∨
    ∃ block, block.start = addr ∧ (l1SramFree addr table).1 = 0 ∧
      TakesBack pool block table (l1SramFree addr table).2 := by
  unfold l1SramFree
  split
  · rename_i none
    refine .inl ⟨rfl, ?_⟩
    rintro block ⟨k, -, rfl⟩
    exact not_of_find?_none none k
  · rename_i index found
    obtain ⟨at_index, before⟩ := of_find?_some found
    split
    · rename_i other
      refine .inl ⟨rfl, ?_⟩
      rintro block ⟨k, allocated, rfl⟩ same
      have same : (table k).paddr = (table index).paddr := same.trans at_index.symm
      cases flag : (table index).flag with
      | null =>
        have behind := sound.stale k index (Flag.live_of_allocated allocated) flag same.symm
        exact before k behind (same.trans at_index)
      | free =>
        obtain rfl := paddr_inj sound.tiles (Flag.live_of_allocated allocated)
          (Flag.live_of_free flag) same
        exact other allocated
      | allocated => exact other flag
    · rename_i allocated
      rw [not_not] at allocated
      have loose := sound.release allocated
      obtain ⟨linked, last⟩ := loose.linkNext
      refine .inr ⟨⟨(table index).paddr, (table index).size⟩, at_index, rfl, linked.linkLast last,
        ⟨index, allocated, rfl⟩, fun other => ?_⟩
      rw [isBlock_linkLast linked, isBlock_linkNext loose, sound.isBlock_release allocated]

end Specs

/-! ### Runs -/

/-- A call of the allocator. -/
inductive Call
  | alloc (pid : Int) (size : Nat)
  | allocMax (pid : Int) (psize : Nat)
  | free (addr : Nat)

/-- The sizes for which rounding does not wrap. -/
def Call.Allowed : Call → Prop
  | .alloc _ size => 1 ≤ size ∧ size ≤ 2 ^ 32 - 4
  | _ => True

/-- A table, and the addresses handed out and not freed since. -/
structure Pool (n : Nat) where
  table : Table n
  handedOut : List Nat

section Runs

variable {n : Nat} {pool : Region}

/-- An address is handed out, unless it is `NULL`. -/
def Pool.handOut (state : Pool n) (addr : Nat) (table : Table n) : Pool n :=
  ⟨table, if addr = 0 then state.handedOut else addr :: state.handedOut⟩

/-- One call. -/
def Call.step (call : Call) (state : Pool n) : Pool n :=
  match call with
  | .alloc pid size =>
    let result := l1SramAlloc pid size state.table
    state.handOut result.1 result.2
  | .allocMax pid psize =>
    let result := l1SramAllocMax pid psize state.table
    state.handOut result.1 result.2.2
  | .free addr =>
    let result := l1SramFree addr state.table
    ⟨result.2, if result.1 = 0 then state.handedOut.filter (· ≠ addr) else state.handedOut⟩

/-- A run of calls. -/
def runCalls (calls : List Call) (state : Pool n) : Pool n :=
  calls.foldl (fun state call => call.step state) state

/-- The pool before the first call. -/
def initialPool (n : Nat) (pool : Region) : Pool (n + 1) := ⟨initialTable n pool, []⟩

/-- The addresses handed out are those of the blocks. -/
structure Accounts (pool : Region) (state : Pool n) : Prop where
  sound : Sound pool state.table
  starts : ∀ addr, addr ∈ state.handedOut ↔ ∃ block, IsBlock state.table block ∧ block.start = addr

theorem initialTable_sound (n : Nat) (pool : Region) : Sound pool (initialTable n pool) := by
  have null : ∀ i, i ≠ 0 → (initialTable n pool i).flag = .null := by
    intro i ne
    simp [initialTable, ne]
  have first : initialTable n pool 0 = ⟨pool.start, pool.length, .free, 0⟩ := by simp [initialTable]
  have live : ∀ {i}, (initialTable n pool i).flag ≠ .null → i = 0 := by
    intro i live
    by_contra ne
    exact live (null i ne)
  have piece : pieces (initialTable n pool) 0 = some pool.toSpan := by
    rw [pieces_live (by rw [first]; simp), first]
  have only : ∀ {i span}, pieces (initialTable n pool) i = some span → i = 0 := by
    intro i span at_i
    refine live fun null => ?_
    rw [pieces_null null] at at_i
    cases at_i
  refine ⟨⟨fun i span at_i => ?_, fun i j _ _ _ at_i at_j _ _ => ?_, fun address => ?_⟩,
    fun i j live_i null_j same => ?_, fun i j free_i free_j => ?_⟩
  · obtain rfl := only at_i
    rw [piece] at at_i
    exact Option.some.inj at_i ▸ pool.length_pos
  · rw [only at_i, only at_j]
  · constructor
    · exact fun holds => ⟨0, pool.toSpan, piece, holds⟩
    · rintro ⟨i, span, at_i, holds⟩
      obtain rfl := only at_i
      rw [piece] at at_i
      exact Option.some.inj at_i ▸ holds
  · obtain rfl := live live_i
    refine Fin.pos_of_ne_zero ?_
    rintro rfl
    exact live_i null_j
  · obtain rfl := live (Flag.live_of_free free_i)
    obtain rfl := live (Flag.live_of_free free_j)
    have positive := pool.length_pos
    rw [first]
    show pool.start + pool.length ≠ pool.start
    omega

theorem initialPool_accounts (n : Nat) (pool : Region) : Accounts pool (initialPool n pool) := by
  refine ⟨initialTable_sound n pool, fun addr => ⟨fun member => absurd member List.not_mem_nil, ?_⟩⟩
  rintro ⟨block, ⟨i, allocated, -⟩, -⟩
  by_cases same : i = 0
  · simp [initialPool, initialTable, same] at allocated
  · simp [initialPool, initialTable, same] at allocated

variable {state : Pool n}

/-- A block is handed out. -/
theorem Accounts.grant {block : Span} {after : Table n} (accounts : Accounts pool state)
    (grants : Grants pool block state.table after) :
    Accounts pool (state.handOut block.start after) := by
  refine ⟨grants.sound, fun addr => ?_⟩
  simp only [Pool.handOut, grants.start_ne, if_false, List.mem_cons, accounts.starts, grants.blocks]
  constructor
  · rintro (rfl | ⟨other, was, rfl⟩)
    · exact ⟨block, .inr rfl, rfl⟩
    · exact ⟨other, .inl was, rfl⟩
  · rintro ⟨other, was | rfl, rfl⟩
    · exact .inr ⟨other, was, rfl⟩
    · exact .inl rfl

/-- **One call.** -/
theorem Accounts.step (accounts : Accounts pool state) {call : Call} (allowed : call.Allowed) :
    Accounts pool (call.step state) := by
  cases call with
  | alloc pid size =>
    show Accounts pool (state.handOut _ _)
    rcases accounts.sound.alloc pid allowed.1 allowed.2 with ⟨result, -⟩ | ⟨block, start, -, grants⟩
    · rw [result]
      exact accounts
    · rw [start]
      exact accounts.grant grants
  | allocMax pid psize =>
    show Accounts pool (state.handOut _ _)
    rcases accounts.sound.allocMax pid psize with ⟨result, -⟩ | ⟨block, start, -, -, grants⟩
    · rw [result]
      exact accounts
    · rw [start]
      exact accounts.grant grants
  | free addr =>
    unfold Call.step
    rcases accounts.sound.free addr with ⟨result, -⟩ | ⟨block, rfl, success, back⟩
    · simp only [result]
      exact accounts
    · simp only [success, if_true]
      refine ⟨back.sound, fun addr => ?_⟩
      simp only [List.mem_filter, decide_eq_true_eq, accounts.starts, back.blocks]
      constructor
      · rintro ⟨⟨other, was, rfl⟩, ne⟩
        refine ⟨other, ⟨was, fun same => ne (by rw [same])⟩, rfl⟩
      · rintro ⟨other, ⟨was, ne⟩, rfl⟩
        exact ⟨⟨other, was, rfl⟩, fun same => ne (accounts.sound.block_inj was back.was same)⟩

/-- **Every run.** -/
theorem runCalls_accounts (accounts : Accounts pool state) {calls : List Call}
    (allowed : ∀ call ∈ calls, call.Allowed) : Accounts pool (runCalls calls state) := by
  induction calls generalizing state with
  | nil => exact accounts
  | cons call rest ih =>
    exact ih (accounts.step (allowed call List.mem_cons_self))
      fun other member => allowed other (List.mem_cons_of_mem call member)

/-- Freeing an address, by whether it is handed out. -/
theorem Accounts.free (accounts : Accounts pool state) (addr : Nat) :
    ((l1SramFree addr state.table).1 = 0 ∧ addr ∈ state.handedOut) ∨
      (l1SramFree addr state.table = (-1, state.table) ∧ addr ∉ state.handedOut) := by
  rw [accounts.starts]
  rcases accounts.sound.free addr with ⟨result, nobody⟩ | ⟨block, start, success, back⟩
  · refine .inr ⟨result, ?_⟩
    rintro ⟨block, was, start⟩
    exact nobody block was start
  · exact .inl ⟨success, block, back.was, start⟩

/-- **The pool in every run**: the FREE and ALLOCATED pieces tile it, the addresses handed out and not
freed are the starts of its ALLOCATED pieces, and `_l1_sram_free` succeeds on these and on no other
address, for which it leaves the table alone. -/
theorem pool_runs (n : Nat) (pool : Region) (calls : List Call)
    (allowed : ∀ call ∈ calls, call.Allowed) :
    let state := runCalls calls (initialPool n pool)
    Tiles pool.toSpan (pieces state.table) ∧
    (∀ addr, addr ∈ state.handedOut ↔ ∃ block, IsBlock state.table block ∧ block.start = addr) ∧
    (∀ addr, (l1SramFree addr state.table).1 = 0 ↔ addr ∈ state.handedOut) ∧
    ∀ addr, addr ∉ state.handedOut → l1SramFree addr state.table = (-1, state.table) := by
  intro state
  have accounts : Accounts pool state := runCalls_accounts (initialPool_accounts n pool) allowed
  refine ⟨accounts.sound.tiles, accounts.starts, fun addr => ?_, fun addr out => ?_⟩
  · rcases accounts.free addr with ⟨success, member⟩ | ⟨failure, out⟩
    · exact iff_of_true success member
    · refine iff_of_false ?_ out
      rw [failure]
      show ¬ ((-1 : Int) = 0)
      decide
  · rcases accounts.free addr with ⟨-, member⟩ | ⟨failure, -⟩
    · exact absurd member out
    · exact failure

/-- A table without blocks is one FREE piece. -/
theorem Sound.whole (sound : Sound pool state.table) (none : ∀ block, ¬ IsBlock state.table block) :
    ∃ i, (state.table i).flag = .free ∧ (state.table i).paddr = pool.start ∧
      (state.table i).size = pool.length ∧ ∀ j, j ≠ i → (state.table j).flag = .null := by
  have free : ∀ {i span}, pieces state.table i = some span →
      (state.table i).flag = .free ∧ span = ⟨(state.table i).paddr, (state.table i).size⟩ := by
    intro i span at_i
    cases flag : (state.table i).flag with
    | null =>
      rw [pieces_null flag] at at_i
      cases at_i
    | free =>
      rw [pieces_live (Flag.live_of_free flag)] at at_i
      exact ⟨rfl, (Option.some.inj at_i).symm⟩
    | allocated => exact absurd ⟨i, flag, rfl⟩ (none _)
  obtain ⟨i, at_i, others⟩ := sound.tiles.whole pool.length_pos (by
    intro k l first second at_k at_l
    obtain ⟨free_k, rfl⟩ := free at_k
    obtain ⟨free_l, rfl⟩ := free at_l
    exact sound.coalesced k l free_k free_l)
  obtain ⟨flag, same⟩ := free at_i
  refine ⟨i, flag, (congrArg Span.start same).symm, (congrArg Span.length same).symm,
    fun j ne => ?_⟩
  by_contra live
  have nothing := others j ne
  rw [pieces_live live] at nothing
  cases nothing

/-- A request that fits a fresh pool. -/
theorem fits_initial {pid : Int} {size : Nat} (positive : 1 ≤ size)
    (fits : (l1SramAlloc pid size (initialTable n pool)).1 ≠ 0) : align size ≤ pool.length := by
  rcases alloc_cases pid positive (initialTable n pool) with ⟨result, -⟩ | ⟨i, free, large, -⟩
  · rw [result] at fits
    exact absurd rfl fits
  · by_cases same : i = 0
    · simpa [initialTable, same] using large
    · simp [initialTable, same] at free

/-- **Coalescing is complete**: no two FREE pieces are neighbours, and once every block has been freed
the table is one FREE piece with the pool's base and size, which serves what a fresh pool serves. -/
theorem pool_coalesces (n : Nat) (pool : Region) (calls : List Call)
    (allowed : ∀ call ∈ calls, call.Allowed) :
    let state := runCalls calls (initialPool n pool)
    (∀ i j, (state.table i).flag = .free → (state.table j).flag = .free →
      (state.table i).paddr + (state.table i).size ≠ (state.table j).paddr) ∧
    (state.handedOut = [] →
      (∃ i, (state.table i).flag = .free ∧ (state.table i).paddr = pool.start ∧
        (state.table i).size = pool.length ∧ ∀ j, j ≠ i → (state.table j).flag = .null) ∧
      ∀ pid size, 1 ≤ size → size ≤ 2 ^ 32 - 4 →
        (l1SramAlloc pid size (initialTable n pool)).1 ≠ 0 →
        (l1SramAlloc pid size state.table).1 ≠ 0) := by
  intro state
  have accounts : Accounts pool state := runCalls_accounts (initialPool_accounts n pool) allowed
  refine ⟨accounts.sound.coalesced, fun empty => ?_⟩
  have none : ∀ block, ¬ IsBlock state.table block := by
    intro block was
    have member := (accounts.starts block.start).mpr ⟨block, was, rfl⟩
    rw [empty] at member
    exact absurd member List.not_mem_nil
  have whole := accounts.sound.whole none
  refine ⟨whole, fun pid size positive small fits => ?_⟩
  obtain ⟨i, free, -, length, -⟩ := whole
  have room := fits_initial positive fits
  rcases accounts.sound.alloc pid positive small with ⟨-, nothing⟩ | ⟨block, start, -, grants⟩
  · have short := nothing i free
    omega
  · rw [start]
    exact grants.start_ne

end Runs

/-! ### A small pool -/

/-- 64 bytes. -/
def smallPool : Region := ⟨⟨0x1000, 64⟩, by decide, by decide, by decide, by decide⟩

/-- Blocks until the table of three slots is full, freed out of order. -/
def smallCalls : List Call :=
  [.alloc 1 8, .alloc 1 6, .alloc 1 4, .free 0x1008, .free 0x1000, .free 0x1008, .free 0x1010]

theorem smallCalls_allowed : ∀ call ∈ smallCalls, call.Allowed := by
  simp [smallCalls, Call.Allowed]

/-- With the table full, an address that has just been freed cannot be freed again. -/
theorem pool_runs_small :
    let state := runCalls (smallCalls.take 4) (initialPool 2 smallPool)
    state.handedOut = [0x1010, 0x1000] ∧ Tiles smallPool.toSpan (pieces state.table) ∧
      l1SramFree 0x1008 state.table = (-1, state.table) := by
  have runs := pool_runs 2 smallPool (smallCalls.take 4)
    fun call member => smallCalls_allowed call (List.take_subset 4 _ member)
  have handedOut : (runCalls (smallCalls.take 4) (initialPool 2 smallPool)).handedOut =
    [0x1010, 0x1000] := by decide
  refine ⟨handedOut, runs.1, runs.2.2.2 0x1008 ?_⟩
  rw [handedOut]
  decide

/-- Freed out of order, the pool is whole again. -/
theorem pool_coalesces_small :
    let state := runCalls smallCalls (initialPool 2 smallPool)
    ∃ i, (state.table i).flag = .free ∧ (state.table i).paddr = 0x1000 ∧
      (state.table i).size = 64 ∧ ∀ j, j ≠ i → (state.table j).flag = .null :=
  ((pool_coalesces 2 smallPool smallCalls smallCalls_allowed).2 (by decide)).1

end Baps.Sram
