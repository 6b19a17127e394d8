/-
**The read blocks of a channel.**

What the process sees of the read blocks is `Inbound`: the blocks that are complete, the bytes that the
block being filled has so far, and whether reading is enabled. `Inbound.Shows` connects it to a `Side`.

* `Shows.putLoop` — **a chunk that the interrupt hands over** is taken in byte by byte, and bytes are lost
  only while all blocks are complete and wait to be read;
* `Shows.drain` — **the end of a read** takes away the oldest complete block;
* `Shows.putLoop` also says that the interrupt leaves alone the block that is read.
-/

import Baps.Zaptel.Buffers

namespace Baps.Zaptel

open Baps.Memory

/-- The read blocks as the process sees them. -/
structure Inbound where
  waiting : List (List UInt8)
  begun : List UInt8
  enabled : Bool
  policy : Policy

namespace Inbound

/-- One byte from the line. -/
def accept (numbufs blocksize : Nat) (inbound : Inbound) (byte : UInt8) : Inbound :=
  if inbound.waiting.length = numbufs then inbound
  else if inbound.begun.length + 1 < blocksize then
    { inbound with begun := inbound.begun ++ [byte] }
  else
    { inbound with
      waiting := inbound.waiting ++ [inbound.begun ++ [byte]]
      begun := []
      enabled := inbound.enabled || decide (inbound.waiting.length + 1 = numbufs) }

/-- The oldest block has been read. -/
def finish (inbound : Inbound) : Inbound :=
  { inbound with
    waiting := inbound.waiting.tail
    enabled := inbound.enabled && !(inbound.waiting.tail.isEmpty && inbound.policy == .whenFull) }

/-- Nothing has been received. -/
def reset (inbound : Inbound) : Inbound := { inbound with waiting := [], begun := [] }

section

variable {numbufs blocksize : Nat} {inbound : Inbound} {piece : List UInt8}

/-- Bytes are lost while all blocks wait. -/
theorem foldl_accept_full (full : inbound.waiting.length = numbufs) (bytes : List UInt8) :
    bytes.foldl (accept numbufs blocksize) inbound = inbound := by
  induction bytes with
  | nil => rfl
  | cons byte rest ih => rw [List.foldl_cons, accept, if_pos full, ih]

/-- Bytes that do not complete a block. -/
theorem foldl_accept_short (room : inbound.waiting.length ≠ numbufs)
    (short : inbound.begun.length + piece.length < blocksize) :
    piece.foldl (accept numbufs blocksize) inbound
      = { inbound with begun := inbound.begun ++ piece } := by
  induction piece generalizing inbound with
  | nil => rw [List.foldl_nil, List.append_nil]
  | cons byte rest ih =>
    rw [List.length_cons] at short
    have first : accept numbufs blocksize inbound byte
        = { inbound with begun := inbound.begun ++ [byte] } := by
      rw [accept, if_neg room, if_pos (by omega)]
    have within : (inbound.begun ++ [byte]).length + rest.length < blocksize := by
      rw [List.length_append, List.length_singleton]
      omega
    rw [List.foldl_cons, first]
    have more := @ih { inbound with begun := inbound.begun ++ [byte] } room within
    rw [more, List.append_assoc, List.singleton_append]

/-- Bytes that complete a block. -/
theorem foldl_accept_whole (room : inbound.waiting.length ≠ numbufs) (some : piece ≠ [])
    (whole : inbound.begun.length + piece.length = blocksize) :
    piece.foldl (accept numbufs blocksize) inbound
      = { inbound with
          waiting := inbound.waiting ++ [inbound.begun ++ piece]
          begun := []
          enabled := inbound.enabled || decide (inbound.waiting.length + 1 = numbufs) } := by
  obtain ⟨front, last, rfl⟩ := (List.eq_nil_or_concat' piece).resolve_left some
  rw [List.length_append, List.length_singleton] at whole
  have last : ¬ (inbound.begun ++ front).length + 1 < blocksize := by
    rw [List.length_append]
    omega
  rw [List.foldl_append, foldl_accept_short room (by omega), List.foldl_cons, List.foldl_nil, accept,
    if_neg room, if_neg last, List.append_assoc]

/-- What waits stays, in front. -/
theorem prefix_foldl_accept (bytes : List UInt8) :
    inbound.waiting <+: (bytes.foldl (accept numbufs blocksize) inbound).waiting := by
  induction bytes generalizing inbound with
  | nil => exact List.prefix_rfl
  | cons byte rest ih =>
    refine List.IsPrefix.trans ?_ ih
    unfold accept
    split
    · exact List.prefix_rfl
    · split
      · exact List.prefix_rfl
      · exact List.prefix_append _ _

end

/-- A side shows the process these blocks. The blocks of the lap that are filled are complete; of the
free ones the first has what has begun, and the others are empty. -/
structure Lays (numbufs blocksize : Nat) (side : Side) (inbound : Inbound) (first : Nat)
    (filled free : List Block) : Prop where
  lap : Lap numbufs side.cursors side.block first filled free
  complete : ∀ block ∈ filled, block.buf.length = blocksize ∧ block.n = blocksize
  sized : ∀ block ∈ free, block.buf.length = blocksize
  fresh : ∀ block ∈ free.tail, block.idx = 0
  begun_eq : ∀ block ∈ free.head?, block.buf.take block.idx = inbound.begun ∧ block.idx < blocksize
  begun_nil : free = [] → inbound.begun = []
  waiting_eq : filled.map Block.buf = inbound.waiting
  disable_eq : side.disable = !inbound.enabled
  policy_eq : side.bufpolicy = inbound.policy

/-- A side shows the process these blocks. -/
def Shows (numbufs blocksize : Nat) (side : Side) (inbound : Inbound) : Prop :=
  ∃ first filled free, Lays numbufs blocksize side inbound first filled free

end Inbound

namespace Inbound.Lays

variable {numbufs blocksize first : Nat} {side : Side} {inbound : Inbound} {block : Block}
variable {filled free : List Block}

theorem length_waiting (lays : Lays numbufs blocksize side inbound first filled free) :
    inbound.waiting.length = filled.length := by
  rw [← lays.waiting_eq, List.length_map]

theorem full_iff (lays : Lays numbufs blocksize side inbound first filled free) :
    inbound.waiting.length = numbufs ↔ free = [] := by
  have whole := lays.lap.length_eq
  rw [lays.length_waiting, ← List.length_eq_zero_iff]
  omega

/-- The block being filled has as many bytes as have begun. -/
theorem idx_eq (lays : Lays numbufs blocksize side inbound first filled (block :: free)) :
    block.idx = inbound.begun.length := by
  obtain ⟨begun, below⟩ := lays.begun_eq block rfl
  have sized := lays.sized block List.mem_cons_self
  rw [← begun, List.length_take, sized, Nat.min_eq_left below.le]

/-- **Bytes go into the block being filled,** and do not complete it. -/
theorem keep (lays : Lays numbufs blocksize side inbound first filled (block :: free))
    {piece buf : List UInt8} (short : inbound.begun.length + piece.length < blocksize)
    (size : buf.length = block.buf.length)
    (stored : buf.take (block.idx + piece.length) = block.buf.take block.idx ++ piece) :
    Lays numbufs blocksize
      (side.put side.inbuf.toNat ⟨buf, block.n, block.idx + piece.length⟩)
      { inbound with begun := inbound.begun ++ piece } first filled
      (⟨buf, block.n, block.idx + piece.length⟩ :: free) where
  lap := lays.lap.write_free _
  complete := lays.complete
  sized := List.forall_mem_cons.mpr
    ⟨size.trans (lays.sized block List.mem_cons_self), fun other inside =>
      lays.sized other (List.mem_cons_of_mem _ inside)⟩
  fresh := lays.fresh
  begun_eq := by
    rintro _ ⟨⟩
    refine ⟨?_, ?_⟩
    · rw [stored, (lays.begun_eq block rfl).1]
    · show block.idx + piece.length < blocksize
      rw [lays.idx_eq]
      exact short
  begun_nil := fun none => absurd none (List.cons_ne_nil _ _)
  waiting_eq := lays.waiting_eq
  disable_eq := lays.disable_eq
  policy_eq := lays.policy_eq

/-- **Bytes complete the block being filled.** -/
theorem complete_block (lays : Lays numbufs blocksize side inbound first filled (block :: free))
    (two : 2 ≤ numbufs) (positive : 0 < blocksize) {piece buf : List UInt8}
    (whole : inbound.begun.length + piece.length = blocksize)
    (size : buf.length = block.buf.length)
    (stored : buf.take (block.idx + piece.length) = block.buf.take block.idx ++ piece) :
    Lays numbufs blocksize
      ((side.put side.inbuf.toNat ⟨buf, block.idx + piece.length, block.idx + piece.length⟩).fill
        numbufs side.inbuf.toNat)
      { inbound with
        waiting := inbound.waiting ++ [inbound.begun ++ piece]
        begun := []
        enabled := inbound.enabled || decide (inbound.waiting.length + 1 = numbufs) }
      first (filled ++ [⟨buf, block.idx + piece.length, block.idx + piece.length⟩]) free := by
  have length : buf.length = blocksize := size.trans (lays.sized block List.mem_cons_self)
  have idx : block.idx + piece.length = blocksize := by rw [lays.idx_eq, whole]
  have contents : buf = inbound.begun ++ piece := by
    rw [idx, List.take_of_length_le length.le] at stored
    rw [stored, (lays.begun_eq block rfl).1]
  have here : ((side.inbuf.toNat : Nat) : Int) = side.inbuf :=
    Int.toNat_of_nonneg (lays.lap.inbuf_nonneg_iff.mpr (List.cons_ne_nil _ _))
  have lap := (lays.lap.write_free
    (⟨buf, block.idx + piece.length, block.idx + piece.length⟩ : Block)).fill two
  refine ⟨?_, ?_, ?_, ?_, ?_, fun _ => rfl, ?_, ?_, lays.policy_eq⟩
  · unfold Side.fill Side.cursors
    rw [here]
    exact lap
  · intro other inside
    rcases List.mem_append.mp inside with old | new
    · exact lays.complete other old
    · rw [List.mem_singleton.mp new]
      exact ⟨length, idx⟩
  · exact fun other inside => lays.sized other (List.mem_cons_of_mem _ inside)
  · exact fun other inside => lays.fresh other (List.mem_of_mem_tail inside)
  · intro other inside
    have zero : other.idx = 0 := lays.fresh other (List.mem_of_mem_head? inside)
    rw [zero, List.take_zero]
    exact ⟨rfl, positive⟩
  · rw [List.map_append, lays.waiting_eq, List.map_singleton, contents]
  · have full := lays.lap.length_eq
    have wraps : ((side.inbuf + 1) % (numbufs : Int) = side.outbuf) ↔
        inbound.waiting.length + 1 = numbufs := by
      refine (lays.lap.inbuf_meets_iff two).trans ?_
      rw [List.length_cons] at full
      rw [lays.length_waiting, ← List.length_eq_zero_iff]
      omega
    unfold Side.fill
    show (if ((side.inbuf.toNat : Int) + 1) % (numbufs : Int) = side.outbuf then false
      else side.disable) = !(inbound.enabled || decide (inbound.waiting.length + 1 = numbufs))
    rw [here, lays.disable_eq]
    by_cases meet : inbound.waiting.length + 1 = numbufs
    · rw [if_pos (wraps.mpr meet), decide_eq_true meet, Bool.or_true, Bool.not_true]
    · rw [if_neg (wraps.not.mpr meet), decide_eq_false meet, Bool.or_false]

/-- **The oldest block has been read.** -/
theorem drain (lays : Lays numbufs blocksize side inbound first (block :: filled) free)
    (two : 2 ≤ numbufs) (positive : 0 < blocksize) :
    Lays numbufs blocksize (side.drain numbufs side.outbuf.toNat) inbound.finish
      ((first + 1) % numbufs) filled (free ++ [{ block with idx := 0, n := 0 }]) := by
  have here : ((side.outbuf.toNat : Nat) : Int) = side.outbuf :=
    Int.toNat_of_nonneg (lays.lap.outbuf_nonneg_iff.mpr (List.cons_ne_nil _ _))
  have slot : side.block side.outbuf.toNat = block := lays.lap.slot_outbuf
  have lap := (lays.lap.write_filled { block with idx := 0, n := 0 }).empty two
  have rest : inbound.waiting.tail = filled.map Block.buf := by
    rw [← lays.waiting_eq, List.map_cons, List.tail_cons]
  have sized : block.buf.length = blocksize := (lays.complete block List.mem_cons_self).1
  refine ⟨?_, ?_, ?_, ?_, ?_, ?_, ?_, ?_, lays.policy_eq⟩
  · unfold Side.drain Side.cursors
    rw [here, slot]
    exact lap
  · exact fun other inside => lays.complete other (List.mem_cons_of_mem _ inside)
  · intro other inside
    rcases List.mem_append.mp inside with old | new
    · exact lays.sized other old
    · rw [List.mem_singleton.mp new]
      exact sized
  · cases free with
    | nil => exact fun other inside => absurd inside List.not_mem_nil
    | cons head others =>
      intro other inside
      rw [List.cons_append, List.tail_cons] at inside
      rcases List.mem_append.mp inside with old | new
      · exact lays.fresh other old
      · rw [List.mem_singleton.mp new]
  · cases free with
    | nil =>
      rintro _ ⟨⟩
      exact ⟨(lays.begun_nil rfl).symm, positive⟩
    | cons head others => exact lays.begun_eq
  · exact fun none => absurd none (List.append_ne_nil_of_right_ne_nil _ (List.cons_ne_nil _ _))
  · exact rest.symm
  · have wraps : ((side.outbuf + 1) % (numbufs : Int) = side.inbuf) ↔
        inbound.waiting.tail.isEmpty = true := by
      rw [List.isEmpty_iff, rest, List.map_eq_nil_iff]
      exact lays.lap.outbuf_meets_iff two
    show (if ((side.outbuf.toNat : Int) + 1) % (numbufs : Int) = side.inbuf ∧
        side.bufpolicy = .whenFull then true else side.disable)
      = !(inbound.enabled && !(inbound.waiting.tail.isEmpty && inbound.policy == .whenFull))
    rw [here, lays.disable_eq, lays.policy_eq]
    by_cases stops : (side.outbuf + 1) % (numbufs : Int) = side.inbuf ∧ inbound.policy = .whenFull
    · rw [if_pos stops, wraps.mp stops.1, stops.2]
      cases inbound.enabled <;> rfl
    · rw [if_neg stops]
      have stays : (inbound.waiting.tail.isEmpty && inbound.policy == .whenFull) = false := by
        rw [Bool.and_eq_false_iff]
        by_cases last : inbound.waiting.tail.isEmpty = true
        · exact .inr (beq_eq_false_iff_ne.mpr fun same => stops ⟨wraps.mpr last, same⟩)
        · exact .inl (Bool.eq_false_iff.mpr last)
      rw [stays, Bool.not_false, Bool.and_true]

/-- Every block is empty, and nothing has begun. -/
theorem start {memory : Nat → Block} {enabled : Bool} (positive : 0 < blocksize) (some : 0 < numbufs)
    (blocks : side.block = memory) (inbuf : side.inbuf = 0) (outbuf : side.outbuf = -1)
    (blank : ∀ x < numbufs, (memory x).buf.length = blocksize ∧ (memory x).idx = 0)
    (disable : side.disable = !enabled) :
    Lays numbufs blocksize side ⟨[], [], enabled, side.bufpolicy⟩ 0 [] (around memory numbufs 0) := by
  have cells : ∀ block ∈ around memory numbufs 0, block.buf.length = blocksize ∧ block.idx = 0 := by
    intro block inside
    obtain ⟨x, range, rfl⟩ := List.mem_map.mp inside
    exact blank _ (Nat.mod_lt _ some)
  refine ⟨?_, fun block inside => absurd inside List.not_mem_nil, fun block inside => (cells block inside).1,
    fun block inside => (cells block (List.mem_of_mem_tail inside)).2, ?_, fun _ => rfl, rfl, disable, rfl⟩
  · unfold Side.cursors
    rw [blocks, inbuf, outbuf]
    exact Lap.start memory some
  · intro block inside
    rw [(cells block (List.mem_of_mem_head? inside)).2, List.take_zero]
    exact ⟨rfl, positive⟩

/-- Every slot of a side has its size. -/
theorem block_sized (lays : Lays numbufs blocksize side inbound first filled free) {x : Nat}
    (inside : x < numbufs) : (side.block x).buf.length = blocksize := by
  have somewhere := mem_around side.block lays.lap.first_lt inside
  rw [lays.lap.around_eq] at somewhere
  rcases List.mem_append.mp somewhere with full | rest
  · exact (lays.complete _ full).1
  · exact lays.sized _ rest

end Inbound.Lays

namespace Inbound.Shows

variable {numbufs blocksize : Nat} {side : Side} {inbound : Inbound}

theorem putOnce_eq (numbufs : Nat) {bytes buf : List UInt8} {block : Block} {left : Nat}
    (slot : side.block side.inbuf.toNat = block)
    (left_eq : left = min (blocksize - block.idx) bytes.length)
    (stored : blit block.buf block.idx (bytes.take left) = some buf) :
    Zaptel.putOnce numbufs blocksize side bytes = some
      (if blocksize ≤ block.idx + left then
        (side.put side.inbuf.toNat ⟨buf, block.idx + left, block.idx + left⟩).fill numbufs
          side.inbuf.toNat
      else side.put side.inbuf.toNat ⟨buf, block.n, block.idx + left⟩, bytes.drop left) := by
  unfold Zaptel.putOnce
  simp only [slot, ← left_eq, stored, Option.bind_eq_bind, Option.bind_some]
  split <;> rfl

/-- **One round of the loop of `__putbuf_chunk`.** -/
theorem putOnce (shows_ : Shows numbufs blocksize side inbound) (two : 2 ≤ numbufs)
    (positive : 0 < blocksize) (opened : side.inbuf > -1) {bytes : List UInt8} (some : bytes ≠ []) :
    ∃ next piece rest, Zaptel.putOnce numbufs blocksize side bytes = .some (next, rest) ∧
      bytes = piece ++ rest ∧ piece ≠ [] ∧
      Shows numbufs blocksize next (piece.foldl (accept numbufs blocksize) inbound) ∧
      (inbound.waiting ≠ [] → next.outbuf = side.outbuf) := by
  obtain ⟨first, filled, free, lays⟩ := shows_
  obtain ⟨block, others, rfl⟩ := List.exists_cons_of_ne_nil
    (lays.lap.inbuf_nonneg_iff.mp (show 0 ≤ side.inbuf by omega))
  have slot : side.block side.inbuf.toNat = block := lays.lap.slot_inbuf
  have sized := lays.sized block List.mem_cons_self
  have below := (lays.begun_eq block rfl).2
  have begun := lays.idx_eq
  have long := List.length_pos_iff.mpr some
  have room : inbound.waiting.length ≠ numbufs := lays.full_iff.not.mpr (List.cons_ne_nil _ _)
  -- the bytes that go into this block
  obtain ⟨left, left_eq⟩ : ∃ left, left = min (blocksize - block.idx) bytes.length := ⟨_, rfl⟩
  have length : (bytes.take left).length = left := by
    rw [List.length_take]
    omega
  have piece : bytes.take left ≠ [] := List.ne_nil_of_length_pos (by omega)
  have split := (List.take_append_drop left bytes).symm
  have within : block.idx + (bytes.take left).length ≤ block.buf.length := by omega
  obtain ⟨buf, stored, size, taken⟩ := blit_inside within
  have once := putOnce_eq numbufs slot left_eq stored
  by_cases eof : blocksize ≤ block.idx + left
  · have whole : inbound.begun.length + (bytes.take left).length = blocksize := by omega
    have next := lays.complete_block two positive whole size taken
    rw [length] at next
    rw [if_pos eof] at once
    refine ⟨_, bytes.take left, bytes.drop left, once, split, piece, ?_, ?_⟩
    · rw [foldl_accept_whole room piece whole]
      exact ⟨_, _, _, next⟩
    · refine fun waits => if_neg ?_
      have := lays.lap.outbuf_nonneg_iff.mpr fun none => waits (by
        rw [← lays.waiting_eq, none, List.map_nil])
      exact not_lt.mpr this
  · have short : inbound.begun.length + (bytes.take left).length < blocksize := by omega
    have next := lays.keep short size taken
    rw [length] at next
    rw [if_neg eof] at once
    refine ⟨_, bytes.take left, bytes.drop left, once, split, piece, ?_, fun _ => rfl⟩
    rw [foldl_accept_short room short]
    exact ⟨_, _, _, next⟩

/-- **A chunk from the interrupt** is taken in byte by byte. A block that waits is left alone. -/
theorem putLoop (shows_ : Shows numbufs blocksize side inbound) (two : 2 ≤ numbufs)
    (positive : 0 < blocksize) {fuel : Nat} {bytes : List UInt8} (enough : bytes.length ≤ fuel) :
    ∃ after, Zaptel.putLoop numbufs blocksize fuel side bytes = some after ∧
      Shows numbufs blocksize after (bytes.foldl (accept numbufs blocksize) inbound) ∧
      (inbound.waiting ≠ [] → after.outbuf = side.outbuf) := by
  induction fuel generalizing side inbound bytes with
  | zero =>
    obtain rfl := List.length_eq_zero_iff.mp (Nat.le_zero.mp enough)
    exact ⟨side, rfl, shows_, fun _ => rfl⟩
  | succ fuel ih =>
    cases bytes with
    | nil => exact ⟨side, rfl, shows_, fun _ => rfl⟩
    | cons byte more =>
      unfold Zaptel.putLoop
      by_cases opened : side.inbuf > -1
      · obtain ⟨next, piece, rest, once, split, some, shown, still⟩ :=
          shows_.putOnce two positive opened (List.cons_ne_nil byte more)
        have shorter : rest.length ≤ fuel := by
          have := congrArg List.length split
          have := List.length_pos_iff.mpr some
          rw [List.length_append, List.length_cons] at *
          omega
        obtain ⟨after, ran, finally_, same⟩ := ih shown shorter
        rw [if_pos opened, once, split, List.foldl_append]
        refine ⟨after, ran, finally_, fun waits => ?_⟩
        rw [same ((prefix_foldl_accept piece).ne_nil waits), still waits]
      · obtain ⟨first, filled, free, lays⟩ := shows_
        have full : free = [] := by
          by_contra some
          have : 0 ≤ side.inbuf := lays.lap.inbuf_nonneg_iff.mpr some
          omega
        rw [if_neg opened]
        refine ⟨side, rfl, ?_, fun _ => rfl⟩
        rw [foldl_accept_full (lays.full_iff.mpr full)]
        exact ⟨first, filled, free, lays⟩

end Inbound.Shows

end Baps.Zaptel
