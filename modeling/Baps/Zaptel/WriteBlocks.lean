/-
**The write blocks of a channel.**

What the process sees of the write blocks is `Outbound`: the blocks that wait to be sent, the first one
as far as it has not been sent yet, and whether sending is enabled. `Outbound.Shows` connects it to a
`Side`.

* `takeBytes_flatten` — what is sent and what waits make up what waited;
* `Shows.getLoop` — **the interrupt sends the blocks one after the other**, and leaves alone the block
  that is being written;
* `Lays.submit` — **the end of a write** puts its block behind those that wait.
-/

import Baps.Zaptel.Buffers

namespace Baps.Zaptel

open Baps.Memory

/-- The write blocks as the process sees them. -/
structure Outbound where
  waiting : List (List UInt8)
  enabled : Bool
  policy : Policy

namespace Outbound

/-- Bytes taken from blocks, how many are lacking then, and the blocks that are left. -/
def takeBytes : List (List UInt8) → Nat → List UInt8 × Nat × List (List UInt8)
  | blocks, 0 => ([], 0, blocks)
  | [], bytes + 1 => ([], bytes + 1, [])
  | block :: rest, bytes + 1 =>
    if block.length ≤ bytes + 1 then
      let more := takeBytes rest (bytes + 1 - block.length)
      (block ++ more.1, more.2)
    else (block.take (bytes + 1), 0, block.drop (bytes + 1) :: rest)

/-- The interrupt asks for a number of bytes. -/
def transmit (outbound : Outbound) (bytes : Nat) : List UInt8 × Nat × Outbound :=
  if outbound.enabled then
    let taken := takeBytes outbound.waiting bytes
    let stops := taken.2.2.isEmpty && !outbound.waiting.isEmpty && outbound.policy == .whenFull
    (taken.1, taken.2.1, { outbound with waiting := taken.2.2, enabled := !stops })
  else ([], bytes, outbound)

/-- The oldest block has been sent. -/
def advance (outbound : Outbound) : Outbound :=
  { outbound with
    waiting := outbound.waiting.tail
    enabled := !(outbound.waiting.tail.isEmpty && outbound.policy == .whenFull) }

/-- A block has been written. -/
def submit (numbufs : Nat) (outbound : Outbound) (data : List UInt8) : Outbound :=
  { outbound with
    waiting := outbound.waiting ++ [data]
    enabled := outbound.enabled || decide (outbound.waiting.length + 1 = numbufs) }

/-- Nothing waits to be sent. -/
def reset (outbound : Outbound) : Outbound := { outbound with waiting := [] }

/-! ### Taking bytes -/

@[simp] theorem takeBytes_zero (blocks : List (List UInt8)) : takeBytes blocks 0 = ([], 0, blocks) := by
  cases blocks <;> rfl

@[simp] theorem takeBytes_nil (bytes : Nat) : takeBytes [] bytes = ([], bytes, []) := by
  cases bytes <;> rfl

theorem takeBytes_whole {block : List UInt8} {bytes : Nat} (rest : List (List UInt8))
    (whole : block.length ≤ bytes + 1) :
    takeBytes (block :: rest) (bytes + 1)
      = (block ++ (takeBytes rest (bytes + 1 - block.length)).1,
          (takeBytes rest (bytes + 1 - block.length)).2) := if_pos whole

theorem takeBytes_part {block : List UInt8} {bytes : Nat} (rest : List (List UInt8))
    (part : ¬ block.length ≤ bytes + 1) :
    takeBytes (block :: rest) (bytes + 1)
      = (block.take (bytes + 1), 0, block.drop (bytes + 1) :: rest) := if_neg part

/-- **What is sent and what waits make up what waited,** and bytes lack only when nothing waits. -/
theorem takeBytes_flatten (blocks : List (List UInt8)) (bytes : Nat) :
    (takeBytes blocks bytes).1 ++ (takeBytes blocks bytes).2.2.flatten = blocks.flatten ∧
      (takeBytes blocks bytes).1.length + (takeBytes blocks bytes).2.1 = bytes ∧
      ((takeBytes blocks bytes).2.1 ≠ 0 → (takeBytes blocks bytes).2.2 = []) := by
  induction blocks generalizing bytes with
  | nil =>
    rw [takeBytes_nil]
    exact ⟨rfl, Nat.zero_add _, fun _ => rfl⟩
  | cons block rest ih =>
    cases bytes with
    | zero =>
      rw [takeBytes_zero]
      exact ⟨rfl, rfl, fun lacks => absurd rfl lacks⟩
    | succ bytes =>
      by_cases whole : block.length ≤ bytes + 1
      · obtain ⟨together, count, empty⟩ := ih (bytes + 1 - block.length)
        rw [takeBytes_whole rest whole]
        refine ⟨?_, ?_, empty⟩
        · rw [List.append_assoc, together, List.flatten_cons]
        · show (block ++ (takeBytes rest (bytes + 1 - block.length)).1).length
            + (takeBytes rest (bytes + 1 - block.length)).2.1 = bytes + 1
          rw [List.length_append]
          omega
      · rw [takeBytes_part rest whole]
        refine ⟨?_, ?_, fun lacks => absurd rfl lacks⟩
        · rw [List.flatten_cons, ← List.append_assoc, List.take_append_drop, List.flatten_cons]
        · show (block.take (bytes + 1)).length + 0 = _
          rw [List.length_take]
          omega

section

variable {outbound : Outbound} {block : List UInt8} {rest : List (List UInt8)} {bytes : Nat}

/-- The oldest block is sent as a whole, and the next ones follow. -/
theorem transmit_whole (waits : outbound.waiting = block :: rest) (enabled : outbound.enabled = true)
    (whole : block.length ≤ bytes + 1) :
    outbound.transmit (bytes + 1)
      = (block ++ (outbound.advance.transmit (bytes + 1 - block.length)).1,
          (outbound.advance.transmit (bytes + 1 - block.length)).2) := by
  have left : outbound.advance.waiting = rest := by rw [advance, waits, List.tail_cons]
  have still : outbound.advance.enabled = !(rest.isEmpty && outbound.policy == .whenFull) := by
    rw [advance, waits, List.tail_cons]
  unfold transmit
  rw [if_pos enabled, left, still, waits, takeBytes_whole rest whole]
  cases rest with
  | nil =>
    rw [takeBytes_nil]
    cases policy : outbound.policy <;> simp [advance, waits, policy]
  | cons second others => simp [advance]

/-- Part of the oldest block is sent. -/
theorem transmit_part (waits : outbound.waiting = block :: rest) (enabled : outbound.enabled = true)
    (part : ¬ block.length ≤ bytes + 1) :
    outbound.transmit (bytes + 1)
      = (block.take (bytes + 1), 0, { outbound with waiting := block.drop (bytes + 1) :: rest }) := by
  unfold transmit
  rw [if_pos enabled, waits, takeBytes_part rest part, enabled]
  rfl

@[simp] theorem transmit_zero (outbound : Outbound) : outbound.transmit 0 = ([], 0, outbound) := by
  unfold transmit
  rw [takeBytes_zero]
  cases outbound with
  | mk waiting enabled policy => cases enabled <;> simp

/-- Nothing is sent. -/
theorem transmit_none (none : ¬ (outbound.waiting ≠ [] ∧ outbound.enabled = true)) :
    outbound.transmit bytes = ([], bytes, outbound) := by
  unfold transmit
  by_cases enabled : outbound.enabled = true
  · have empty : outbound.waiting = [] := by
      by_contra some
      exact none ⟨some, enabled⟩
    rw [if_pos enabled, empty, takeBytes_nil]
    cases outbound
    simp_all
  · rw [if_neg enabled]

end

/-- The bytes of a block that have not been sent. -/
def unsent (block : Block) : List UInt8 := (block.buf.take block.n).drop block.idx

/-- A side shows the process these blocks: the filled ones of its lap. -/
structure Lays (numbufs blocksize : Nat) (side : Side) (outbound : Outbound) (first : Nat)
    (filled free : List Block) : Prop where
  lap : Lap numbufs side.cursors side.block first filled free
  within : ∀ block ∈ filled, block.idx ≤ block.n ∧ block.n ≤ blocksize
  sized : ∀ block ∈ filled ++ free, block.buf.length = blocksize
  waiting_eq : filled.map unsent = outbound.waiting
  disable_eq : side.disable = !outbound.enabled
  policy_eq : side.bufpolicy = outbound.policy

/-- A side shows the process these blocks. -/
def Shows (numbufs blocksize : Nat) (side : Side) (outbound : Outbound) : Prop :=
  ∃ first filled free, Lays numbufs blocksize side outbound first filled free

end Outbound

namespace Outbound.Lays

variable {numbufs blocksize first : Nat} {side : Side} {outbound : Outbound} {block : Block}
variable {filled free : List Block}

theorem length_waiting (lays : Lays numbufs blocksize side outbound first filled free) :
    outbound.waiting.length = filled.length := by
  rw [← lays.waiting_eq, List.length_map]

theorem full_iff (lays : Lays numbufs blocksize side outbound first filled free) :
    outbound.waiting.length = numbufs ↔ free = [] := by
  have whole := lays.lap.length_eq
  rw [lays.length_waiting, ← List.length_eq_zero_iff]
  omega

/-- **Part of the oldest block is sent.** -/
theorem send (lays : Lays numbufs blocksize side outbound first (block :: filled) free) (bytes : Nat)
    (part : block.idx + bytes ≤ block.n) :
    Lays numbufs blocksize (side.put side.outbuf.toNat { block with idx := block.idx + bytes })
      { outbound with waiting := (unsent block).drop bytes :: outbound.waiting.tail } first
      ({ block with idx := block.idx + bytes } :: filled) free where
  lap := lays.lap.write_filled _
  within := List.forall_mem_cons.mpr ⟨⟨part, (lays.within block List.mem_cons_self).2⟩,
    fun other inside => lays.within other (List.mem_cons_of_mem _ inside)⟩
  sized := List.forall_mem_cons.mpr ⟨lays.sized block List.mem_cons_self,
    fun other inside => lays.sized other (List.mem_cons_of_mem _ inside)⟩
  waiting_eq := by
    rw [List.map_cons, ← lays.waiting_eq, List.map_cons, List.tail_cons]
    refine congrArg (· :: filled.map unsent) ?_
    show (block.buf.take block.n).drop (block.idx + bytes) = (unsent block).drop bytes
    rw [unsent, List.drop_drop]
  disable_eq := lays.disable_eq
  policy_eq := lays.policy_eq

/-- **The oldest block has been sent.** -/
theorem drain (lays : Lays numbufs blocksize side outbound first (block :: filled) free)
    (two : 2 ≤ numbufs) (enabled : outbound.enabled = true) :
    Lays numbufs blocksize (side.drain numbufs side.outbuf.toNat) outbound.advance
      ((first + 1) % numbufs) filled (free ++ [{ block with idx := 0, n := 0 }]) := by
  have here : ((side.outbuf.toNat : Nat) : Int) = side.outbuf :=
    Int.toNat_of_nonneg (lays.lap.outbuf_nonneg_iff.mpr (List.cons_ne_nil _ _))
  have slot : side.block side.outbuf.toNat = block := lays.lap.slot_outbuf
  have lap := (lays.lap.write_filled { block with idx := 0, n := 0 }).empty two
  have rest : outbound.waiting.tail = filled.map unsent := by
    rw [← lays.waiting_eq, List.map_cons, List.tail_cons]
  refine ⟨?_, ?_, ?_, rest.symm, ?_, lays.policy_eq⟩
  · unfold Side.drain Side.cursors
    rw [here, slot]
    exact lap
  · exact fun other inside => lays.within other (List.mem_cons_of_mem _ inside)
  · intro other inside
    rw [← List.append_assoc] at inside
    rcases List.mem_append.mp inside with old | new
    · exact lays.sized other (List.mem_cons_of_mem _ old)
    · rw [List.mem_singleton.mp new]
      exact lays.sized block List.mem_cons_self
  · have wraps : ((side.outbuf + 1) % (numbufs : Int) = side.inbuf) ↔
        outbound.waiting.tail.isEmpty = true := by
      rw [List.isEmpty_iff, rest, List.map_eq_nil_iff]
      exact lays.lap.outbuf_meets_iff two
    show (if ((side.outbuf.toNat : Int) + 1) % (numbufs : Int) = side.inbuf ∧
        side.bufpolicy = .whenFull then true else side.disable)
      = !(!(outbound.waiting.tail.isEmpty && outbound.policy == .whenFull))
    rw [here, lays.disable_eq, lays.policy_eq, enabled, Bool.not_not]
    by_cases stops : (side.outbuf + 1) % (numbufs : Int) = side.inbuf ∧ outbound.policy = .whenFull
    · rw [if_pos stops, wraps.mp stops.1, stops.2]
      rfl
    · rw [if_neg stops]
      by_cases last : outbound.waiting.tail.isEmpty = true
      · have immediate : (outbound.policy == .whenFull) = false :=
          beq_eq_false_iff_ne.mpr fun same => stops ⟨wraps.mpr last, same⟩
        rw [immediate, Bool.and_false]
        rfl
      · rw [Bool.eq_false_iff.mpr last]
        rfl

/-- **A block has been written,** and is sent after those that wait. -/
theorem submit (lays : Lays numbufs blocksize side outbound first filled (block :: free))
    (two : 2 ≤ numbufs) {n : Nat} (fits : n ≤ blocksize) :
    Lays numbufs blocksize
      ((side.put side.inbuf.toNat { block with n := n, idx := 0 }).fill numbufs side.inbuf.toNat)
      (outbound.submit numbufs (block.buf.take n)) first
      (filled ++ [{ block with n := n, idx := 0 }]) free := by
  have here : ((side.inbuf.toNat : Nat) : Int) = side.inbuf :=
    Int.toNat_of_nonneg (lays.lap.inbuf_nonneg_iff.mpr (List.cons_ne_nil _ _))
  have lap := (lays.lap.write_free { block with n := n, idx := 0 }).fill two
  have sized : block.buf.length = blocksize :=
    lays.sized block (List.mem_append_right _ List.mem_cons_self)
  refine ⟨?_, ?_, ?_, ?_, ?_, lays.policy_eq⟩
  · unfold Side.fill Side.cursors
    rw [here]
    exact lap
  · intro other inside
    rcases List.mem_append.mp inside with old | new
    · exact lays.within other old
    · rw [List.mem_singleton.mp new]
      exact ⟨Nat.zero_le _, fits⟩
  · intro other inside
    rw [List.append_assoc, List.singleton_append] at inside
    rcases List.mem_append.mp inside with old | new
    · exact lays.sized other (List.mem_append_left _ old)
    · rcases List.mem_cons.mp new with rfl | rest
      · exact sized
      · exact lays.sized other (List.mem_append_right _ (List.mem_cons_of_mem _ rest))
  · rw [List.map_append, lays.waiting_eq, List.map_singleton]
    rfl
  · have full := lays.lap.length_eq
    have wraps : ((side.inbuf + 1) % (numbufs : Int) = side.outbuf) ↔
        outbound.waiting.length + 1 = numbufs := by
      refine (lays.lap.inbuf_meets_iff two).trans ?_
      rw [List.length_cons] at full
      rw [lays.length_waiting, ← List.length_eq_zero_iff]
      omega
    show (if ((side.inbuf.toNat : Int) + 1) % (numbufs : Int) = side.outbuf then false
      else side.disable) = !(outbound.enabled || decide (outbound.waiting.length + 1 = numbufs))
    rw [here, lays.disable_eq]
    by_cases meet : outbound.waiting.length + 1 = numbufs
    · rw [if_pos (wraps.mpr meet), decide_eq_true meet, Bool.or_true, Bool.not_true]
    · rw [if_neg (wraps.not.mpr meet), decide_eq_false meet, Bool.or_false]

/-- Every block is empty. -/
theorem start {side : Side} {memory : Nat → Block} {enabled : Bool} (some : 0 < numbufs)
    (blocks : side.block = memory) (inbuf : side.inbuf = 0) (outbuf : side.outbuf = -1)
    (blank : ∀ x < numbufs, (memory x).buf.length = blocksize) (disable : side.disable = !enabled) :
    Lays numbufs blocksize side ⟨[], enabled, side.bufpolicy⟩ 0 [] (around memory numbufs 0) := by
  refine ⟨?_, fun block inside => absurd inside List.not_mem_nil, ?_, rfl, disable, rfl⟩
  · unfold Side.cursors
    rw [blocks, inbuf, outbuf]
    exact Lap.start memory some
  · intro block inside
    obtain ⟨x, range, rfl⟩ := List.mem_map.mp inside
    exact blank _ (Nat.mod_lt _ some)

/-- Every slot of a side has its size. -/
theorem block_sized (lays : Lays numbufs blocksize side outbound first filled free) {x : Nat}
    (inside : x < numbufs) : (side.block x).buf.length = blocksize := by
  refine lays.sized _ ?_
  rw [← lays.lap.around_eq]
  exact mem_around _ lays.lap.first_lt inside

end Outbound.Lays

namespace Outbound.Shows

variable {numbufs blocksize : Nat} {side : Side} {outbound : Outbound}

theorem waits_iff (shows_ : Shows numbufs blocksize side outbound) :
    side.outbuf > -1 ↔ outbound.waiting ≠ [] := by
  obtain ⟨first, filled, free, lays⟩ := shows_
  rw [← lays.waiting_eq, Ne, List.map_eq_nil_iff]
  exact (show side.outbuf > -1 ↔ 0 ≤ side.outbuf by omega).trans lays.lap.outbuf_nonneg_iff

theorem sends_iff (shows_ : Shows numbufs blocksize side outbound) :
    (side.outbuf > -1 ∧ side.disable = false) ↔
      (outbound.waiting ≠ [] ∧ outbound.enabled = true) := by
  rw [shows_.waits_iff]
  obtain ⟨first, filled, free, lays⟩ := shows_
  rw [lays.disable_eq, Bool.not_eq_false']

/-- The slot that is written next is left alone. -/
def Spares (side after : Side) : Prop :=
  side.inbuf > -1 → after.inbuf = side.inbuf ∧
    after.block side.inbuf.toNat = side.block side.inbuf.toNat

theorem Spares.trans {side after last : Side} (first : Spares side after)
    (second : Spares after last) : Spares side last := by
  intro opened
  obtain ⟨still, same⟩ := first opened
  obtain ⟨still', same'⟩ := second (by rw [still]; exact opened)
  rw [still] at same'
  exact ⟨still'.trans still, same'.trans same⟩

/-- The slots of the two cursors differ. -/
theorem slots_apart (shows_ : Shows numbufs blocksize side outbound) (opened : side.inbuf > -1)
    (waits : outbound.waiting ≠ []) : side.inbuf.toNat ≠ side.outbuf.toNat := by
  obtain ⟨first, filled, free, lays⟩ := shows_
  obtain ⟨head, rest, rfl⟩ := List.exists_cons_of_ne_nil
    (lays.lap.inbuf_nonneg_iff.mp (show 0 ≤ side.inbuf by omega))
  obtain ⟨oldest, more, rfl⟩ : ∃ oldest more, filled = oldest :: more := by
    refine List.exists_cons_of_ne_nil fun none => waits ?_
    rw [← lays.waiting_eq, none, List.map_nil]
  exact lays.lap.slots_apart

/-- **One round of the loop of `__zt_getbuf_chunk`.** -/
theorem getOnce (shows_ : Shows numbufs blocksize side outbound) (two : 2 ≤ numbufs)
    (waits : outbound.waiting ≠ []) (enabled : outbound.enabled = true) (bytes : Nat) :
    ∃ txb lacking next shown, Zaptel.getOnce numbufs side (bytes + 1) = some (txb, lacking, next) ∧
      Shows numbufs blocksize next shown ∧ Spares side next ∧
      outbound.transmit (bytes + 1) = (txb ++ (shown.transmit lacking).1, (shown.transmit lacking).2) ∧
      lacking + shown.waiting.length < bytes + 1 + outbound.waiting.length := by
  have apart : side.inbuf > -1 → side.inbuf.toNat ≠ side.outbuf.toNat :=
    fun opened => shows_.slots_apart opened waits
  obtain ⟨first, filled, free, lays⟩ := shows_
  obtain ⟨block, more, rfl⟩ : ∃ block more, filled = block :: more := by
    refine List.exists_cons_of_ne_nil fun none => waits ?_
    rw [← lays.waiting_eq, none, List.map_nil]
  have slot : side.block side.outbuf.toNat = block := lays.lap.slot_outbuf
  obtain ⟨idx, n⟩ := lays.within block List.mem_cons_self
  have sized := lays.sized block List.mem_cons_self
  have length : (unsent block).length = block.n - block.idx := by
    rw [unsent, List.length_drop, List.length_take]
    omega
  have waiting : outbound.waiting = unsent block :: more.map unsent := lays.waiting_eq.symm
  obtain ⟨left, left_eq⟩ : ∃ left, left = min (block.n - block.idx) (bytes + 1) := ⟨_, rfl⟩
  have taken : slice block.buf block.idx left = some ((unsent block).take left) := by
    rw [slice_inside (by omega), unsent, List.drop_take, List.take_take, Nat.min_eq_left (by omega)]
  have once : Zaptel.getOnce numbufs side (bytes + 1) = some ((unsent block).take left,
      bytes + 1 - left,
      if block.n ≤ block.idx + left then
        (side.put side.outbuf.toNat { block with idx := block.idx + left }).drain numbufs
          side.outbuf.toNat
      else side.put side.outbuf.toNat { block with idx := block.idx + left }) := by
    unfold Zaptel.getOnce
    simp only [slot, ← left_eq, taken, Option.bind_eq_bind, Option.bind_some]
    rfl
  have part := lays.send left (by omega)
  by_cases whole : block.n ≤ block.idx + left
  · have all : left = (unsent block).length := by omega
    rw [if_pos whole, List.take_of_length_le all.ge] at once
    refine ⟨_, _, _, outbound.advance, once, ?_, ?_, ?_, ?_⟩
    · have next := part.drain two enabled
      exact ⟨_, _, _, next⟩
    · intro opened
      exact ⟨if_neg (by show ¬ side.inbuf < 0; omega), (Function.update_of_ne (apart opened) _ _).trans
        (Function.update_of_ne (apart opened) _ _)⟩
    · rw [transmit_whole waiting enabled (by omega), all]
    · rw [advance, waiting, List.tail_cons, List.length_cons]
      show _ + (more.map unsent).length < _
      omega
  · have some_ : left = bytes + 1 := by omega
    rw [if_neg whole] at once
    refine ⟨_, _, _, _, once, ⟨_, _, _, part⟩, ?_, ?_, ?_⟩
    · intro opened
      exact ⟨rfl, Function.update_of_ne (apart opened) _ _⟩
    · rw [transmit_part waiting enabled (by omega), some_, Nat.sub_self, transmit_zero,
        List.append_nil, waiting, List.tail_cons]
    · rw [waiting, List.tail_cons, List.length_cons, List.length_cons]
      omega

/-- **The interrupt sends what waits,** in order, and leaves alone the block that is written. -/
theorem getLoop (shows_ : Shows numbufs blocksize side outbound) (two : 2 ≤ numbufs) {fuel bytes : Nat}
    (enough : bytes + outbound.waiting.length ≤ fuel) :
    ∃ after, Zaptel.getLoop numbufs fuel side bytes
        = some ((outbound.transmit bytes).1, (outbound.transmit bytes).2.1, after) ∧
      Shows numbufs blocksize after (outbound.transmit bytes).2.2 ∧ Spares side after := by
  have still : Spares side side := fun _ => ⟨rfl, rfl⟩
  induction fuel generalizing side outbound bytes with
  | zero =>
    obtain ⟨rfl, none⟩ : bytes = 0 ∧ outbound.waiting.length = 0 := by omega
    have empty := List.length_eq_zero_iff.mp none
    rw [transmit_none fun some => some.1 empty]
    exact ⟨side, rfl, shows_, still⟩
  | succ fuel ih =>
    cases bytes with
    | zero =>
      rw [transmit_zero]
      exact ⟨side, rfl, shows_, still⟩
    | succ bytes =>
      unfold Zaptel.getLoop
      by_cases sends : outbound.waiting ≠ [] ∧ outbound.enabled = true
      · obtain ⟨txb, lacking, next, shown, once, shows', spared, sent, less⟩ :=
          shows_.getOnce two sends.1 sends.2 bytes
        have within : lacking + shown.waiting.length ≤ fuel := by omega
        obtain ⟨after, ran, last, rest⟩ := ih shows' within fun _ => ⟨rfl, rfl⟩
        rw [if_pos (shows_.sends_iff.mpr sends), once, sent]
        refine ⟨after, ?_, last, spared.trans rest⟩
        simp only [Option.bind_eq_bind, Option.bind_some, ran]
        rfl
      · rw [if_neg (shows_.sends_iff.not.mpr sends), transmit_none sends]
        exact ⟨side, rfl, shows_, still⟩

end Outbound.Shows

end Baps.Zaptel
