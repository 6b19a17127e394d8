/-
**The streams through a channel.**

What a channel sends is what its process has written; what its process reads are the blocks that were
received. Bytes are neither repeated nor reordered, on either way, whatever interrupts fall between the
pieces of the calls. Received bytes are lost only while all blocks wait to be read, or when a read asks for
less than a block.

* `View.sent_flatten` — **sending**: what is sent and what still waits is what has been written;
* `Matches.received_flatten` — **receiving**: what is read, what waits and what has begun is what has been
  kept of the chunks, and everything is kept while a block is free;
* `opened_streams` — both, for a channel that has been opened;
* `flush_under_read` — what a flush does that falls into a read: the next reads return nothing.
-/

import Baps.Zaptel.ChannelRuns

namespace Baps.Zaptel

open Baps.Memory

/-! ### What goes through -/

/-- The bytes on the line. -/
def Out.sentBytes : Out → List UInt8
  | .sent txb _ => txb
  | _ => []

/-- The bytes that a write has taken. -/
def Out.written : Out → List UInt8
  | .wrote _ data => data
  | _ => []

/-- The number that a read returns, and the bytes. -/
def Out.readBytes : Out → List (Nat × List UInt8)
  | .read amnt bytes => [(amnt, bytes)]
  | _ => []

/-- The chunk that an interrupt brings. -/
def Act.received : Act → List UInt8
  | .receive rxb => rxb
  | _ => []

/-- A step of the interrupt or of a read, a write or a fetch. -/
def Act.Plain : Act → Prop
  | .flush .. | .setBufinfo .. | .setlinear .. => False
  | _ => True

/-- A read that returns `amnt` gives the beginning of a block. -/
def Delivers (law : Law) (view : View) (read : Nat × List UInt8) (block : List UInt8) : Prop :=
  read.2 = law.delivered view.linear (block.take (view.share read.1))

/-- After every step a block is free. -/
def View.NeverFull (limits : Limits) (law : Law) : View → List Act → Prop
  | _, [] => True
  | view, act :: acts =>
    (view.step limits law act).1.inbound.waiting.length < view.numbufs ∧
      NeverFull limits law (view.step limits law act).1 acts

/-- Nothing goes through with this answer. -/
structure Out.Quiet (out : Out) : Prop where
  sentBytes : out.sentBytes = []
  written : out.written = []
  readBytes : out.readBytes = []

/-- The geometry of a channel, and which blocks wait, stay. -/
structure View.Stays (view next : View) : Prop where
  numbufs : next.numbufs = view.numbufs
  blocksize : next.blocksize = view.blocksize
  linear : next.linear = view.linear
  inbound : next.inbound = view.inbound
  outbound : next.outbound.waiting = view.outbound.waiting

/-- What goes through in one plain step: a chunk of either direction, a block that is read, a block that
is written, or nothing. -/
inductive View.Moves (law : Law) (view : View) : List UInt8 → Out → View → Prop
  | quiet {out : Out} {next : View} (quiet : out.Quiet) (stays : view.Stays next) : Moves law view [] out next
  | receive (rxb : List UInt8) :
    Moves law view rxb .silent
      { view with inbound := rxb.foldl (Inbound.accept view.numbufs view.blocksize) view.inbound }
  | transmit (bytes : Nat) :
    Moves law view [] (.sent (view.outbound.transmit bytes).1 (view.outbound.transmit bytes).2.1)
      { view with outbound := (view.outbound.transmit bytes).2.2 }
  | read {amnt copied : Nat} {bytes : List UInt8} (begun : view.reading = some (amnt, copied))
    (delivers : Delivers law view (amnt, bytes) (view.inbound.waiting.headD [])) :
    Moves law view [] (.read amnt bytes) { view with inbound := view.inbound.finish, reading := none }
  | wrote (amnt : Nat) (data : List UInt8) :
    Moves law view [] (.wrote amnt data)
      { view with outbound := view.outbound.submit view.numbufs data, writing := none }

section

variable {limits : Limits} {law : Law} {chan : Channel} {view : View} {act : Act} {acts : List Act}

theorem Act.Plain.allows (plain : act.Plain) (view : View) : view.Allows act := by
  cases act with
  | flush => exact plain.elim
  | setBufinfo => exact plain.elim
  | setlinear => exact plain.elim
  | _ => trivial

theorem View.orderly_of_plain (plain : ∀ act ∈ acts, act.Plain) : view.Orderly limits law acts := by
  induction acts generalizing view with
  | nil => trivial
  | cons act acts ih =>
    exact ⟨(plain act List.mem_cons_self).allows view,
      ih fun other inside => plain other (List.mem_cons_of_mem _ inside)⟩

/-- **What a plain step can do.** -/
theorem View.step_moves (limits : Limits) (law : Law) (view : View) (plain : act.Plain) :
    View.Moves law view act.received (view.step limits law act).2 (view.step limits law act).1 := by
  have stays : view.Stays view := ⟨rfl, rfl, rfl, rfl, rfl⟩
  have silent : Out.Quiet .silent := ⟨rfl, rfl, rfl⟩
  have failed : ∀ errno, Out.Quiet (.failed errno) := fun _ => ⟨rfl, rfl, rfl⟩
  cases act with
  | flush => exact plain.elim
  | setBufinfo => exact plain.elim
  | setlinear => exact plain.elim
  | receive rxb => exact .receive rxb
  | transmit bytes => exact .transmit bytes
  | qevent event => exact .quiet silent ⟨rfl, rfl, rfl, rfl, rfl⟩
  | getevent => exact .quiet ⟨rfl, rfl, rfl⟩ ⟨rfl, rfl, rfl, rfl, rfl⟩
  | iomuxWriteempty => exact .quiet silent ⟨rfl, rfl, rfl, rfl, rfl⟩
  | readBegin count =>
    show View.Moves law view [] (view.beginRead count).2 (view.beginRead count).1
    unfold View.beginRead
    split
    · exact .quiet silent stays
    · split
      · exact .quiet (failed _) stays
      · exact .quiet silent ⟨rfl, rfl, rfl, rfl, rfl⟩
  | readCopy bytes =>
    show View.Moves law view [] (view.copyRead bytes).2 (view.copyRead bytes).1
    unfold View.copyRead
    split
    · exact .quiet silent stays
    · exact .quiet silent ⟨rfl, rfl, rfl, rfl, rfl⟩
  | readEnd =>
    show View.Moves law view [] (view.endRead law).2 (view.endRead law).1
    unfold View.endRead
    split
    · exact .quiet silent stays
    · split
      · rename_i begun _
        exact .read begun rfl
      · exact .quiet silent stays
  | readFault =>
    show View.Moves law view [] view.faultRead.2 view.faultRead.1
    unfold View.faultRead
    split
    · exact .quiet silent stays
    · exact .quiet (failed _) ⟨rfl, rfl, rfl, rfl, rfl⟩
  | writeBegin usrbuf =>
    show View.Moves law view [] (view.beginWrite law usrbuf).2 (view.beginWrite law usrbuf).1
    unfold View.beginWrite
    split
    · exact .quiet silent stays
    · split
      · exact .quiet (failed _) stays
      · exact .quiet silent ⟨rfl, rfl, rfl, rfl, rfl⟩
  | writeCopy bytes =>
    show View.Moves law view [] (view.copyWrite bytes).2 (view.copyWrite bytes).1
    unfold View.copyWrite
    split
    · exact .quiet silent stays
    · exact .quiet silent ⟨rfl, rfl, rfl, rfl, rfl⟩
  | writeEnd =>
    show View.Moves law view [] view.endWrite.2 view.endWrite.1
    unfold View.endWrite
    split
    · exact .quiet silent stays
    · split
      · exact .wrote _ _
      · exact .quiet silent stays
  | writeFault =>
    show View.Moves law view [] view.faultWrite.2 view.faultWrite.1
    unfold View.faultWrite
    split
    · exact .quiet silent stays
    · exact .quiet (failed _) ⟨rfl, rfl, rfl, rfl, rfl⟩

theorem View.Moves.shape {rxb : List UInt8} {out : Out} {next : View}
    (moves : View.Moves law view rxb out next) :
    next.numbufs = view.numbufs ∧ next.blocksize = view.blocksize ∧ next.linear = view.linear := by
  cases moves with
  | quiet quiet stays => exact ⟨stays.numbufs, stays.blocksize, stays.linear⟩
  | receive => exact ⟨rfl, rfl, rfl⟩
  | transmit => exact ⟨rfl, rfl, rfl⟩
  | read => exact ⟨rfl, rfl, rfl⟩
  | wrote => exact ⟨rfl, rfl, rfl⟩

theorem View.run_shape (limits : Limits) (law : Law) (view : View) (plain : ∀ act ∈ acts, act.Plain) :
    (view.run limits law acts).1.numbufs = view.numbufs ∧
      (view.run limits law acts).1.blocksize = view.blocksize := by
  induction acts generalizing view with
  | nil => exact ⟨rfl, rfl⟩
  | cons act acts ih =>
    obtain ⟨numbufs, blocksize, -⟩ :=
      (view.step_moves limits law (plain act List.mem_cons_self)).shape
    obtain ⟨numbufs', blocksize'⟩ := ih (view.step limits law act).1
      fun other inside => plain other (List.mem_cons_of_mem _ inside)
    rw [View.run_cons]
    exact ⟨numbufs'.trans numbufs, blocksize'.trans blocksize⟩

/-! ### Sending -/

/-- One step sends what waits, in order. -/
theorem View.Moves.sent_flatten {rxb : List UInt8} {out : Out} {next : View}
    (moves : View.Moves law view rxb out next) :
    out.sentBytes ++ next.outbound.waiting.flatten
      = view.outbound.waiting.flatten ++ out.written := by
  cases moves with
  | quiet quiet stays =>
    rw [quiet.sentBytes, quiet.written, stays.outbound, List.nil_append, List.append_nil]
  | receive rxb => exact (List.append_nil _).symm
  | transmit bytes =>
    show (view.outbound.transmit bytes).1 ++ (view.outbound.transmit bytes).2.2.waiting.flatten = _
    unfold Outbound.transmit
    split
    · rw [(Outbound.takeBytes_flatten view.outbound.waiting bytes).1]
      exact (List.append_nil _).symm
    · exact (List.append_nil _).symm
  | read begun delivers => exact (List.append_nil _).symm
  | wrote amnt data =>
    show [] ++ (view.outbound.waiting ++ [data]).flatten = _
    rw [List.nil_append, List.flatten_append, List.flatten_singleton]
    rfl

/-- **What has been sent and what still waits is what waited and has been written.** -/
theorem View.sent_flatten (limits : Limits) (law : Law) (view : View) (plain : ∀ act ∈ acts, act.Plain) :
    (view.run limits law acts).2.flatMap Out.sentBytes
        ++ (view.run limits law acts).1.outbound.waiting.flatten
      = view.outbound.waiting.flatten ++ (view.run limits law acts).2.flatMap Out.written := by
  induction acts generalizing view with
  | nil => exact (List.append_nil _).symm
  | cons act acts ih =>
    have first := (view.step_moves limits law (plain act List.mem_cons_self)).sent_flatten
    have rest := ih (view.step limits law act).1
      fun other inside => plain other (List.mem_cons_of_mem _ inside)
    rw [View.run_cons, List.flatMap_cons, List.flatMap_cons, List.append_assoc, rest,
      ← List.append_assoc, first, List.append_assoc]

/-! ### Receiving -/

/-- A chunk adds its beginning, and all of it while a block is free in the end. -/
theorem Inbound.foldl_accept_flatten {numbufs blocksize : Nat} {inbound : Inbound}
    (below : inbound.begun.length < blocksize) (within : inbound.waiting.length ≤ numbufs)
    (bytes : List UInt8) :
    let after := bytes.foldl (accept numbufs blocksize) inbound
    ∃ kept, kept <+: bytes ∧
      after.waiting.flatten ++ after.begun = inbound.waiting.flatten ++ inbound.begun ++ kept ∧
      (after.waiting.length < numbufs → kept = bytes) := by
  induction bytes generalizing inbound with
  | nil => exact ⟨[], List.prefix_rfl, (List.append_nil _).symm, fun _ => rfl⟩
  | cons byte rest ih =>
    by_cases full : inbound.waiting.length = numbufs
    · refine ⟨[], List.nil_prefix, ?_, ?_⟩
      · rw [foldl_accept_full full, List.append_nil]
      · rw [foldl_accept_full full]
        exact fun room => absurd full room.ne
    · -- the byte is kept, and what follows is kept behind it
      obtain ⟨next, next_eq⟩ : ∃ next, next = accept numbufs blocksize inbound byte := ⟨_, rfl⟩
      have kept : next.waiting.flatten ++ next.begun
            = inbound.waiting.flatten ++ inbound.begun ++ [byte] ∧
          next.begun.length < blocksize ∧ next.waiting.length ≤ numbufs := by
        rw [next_eq, accept, if_neg full]
        split
        next short =>
          exact ⟨(List.append_assoc _ _ _).symm, by rwa [List.length_append, List.length_singleton],
            within⟩
        next whole =>
          refine ⟨?_, Nat.zero_lt_of_lt below, ?_⟩
          · rw [List.flatten_append, List.flatten_singleton, List.append_nil, List.append_assoc]
          · rw [List.length_append, List.length_singleton]
            omega
      obtain ⟨together, begun, room⟩ := kept
      obtain ⟨more, front, rest_eq, all⟩ := ih begun room
      rw [List.foldl_cons, ← next_eq]
      refine ⟨byte :: more, List.cons_prefix_cons.mpr ⟨rfl, front⟩, ?_, fun free => by rw [all free]⟩
      rw [rest_eq, together, List.append_assoc, List.append_assoc, List.append_assoc,
        List.singleton_append]

/-- The blocks that have been read are whole ones, and each read gives the beginning of its block. -/
structure Reads (law : Law) (view : View) (reads : List (Nat × List UInt8))
    (blocks : List (List UInt8)) : Prop where
  delivers : List.Forall₂ (Delivers law view) reads blocks
  whole : ∀ block ∈ blocks, block.length = view.blocksize

/-- One step reads what waits, in order, and keeps what it receives. -/
theorem Matches.received_step (matches_ : Matches limits chan view) {rxb : List UInt8} {out : Out}
    {next : View} (moves : View.Moves law view rxb out next) :
    ∃ kept blocks, kept <+: rxb ∧ Reads law view out.readBytes blocks ∧
      blocks.flatten ++ (next.inbound.waiting.flatten ++ next.inbound.begun)
        = view.inbound.waiting.flatten ++ view.inbound.begun ++ kept ∧
      (next.inbound.waiting.length < view.numbufs → kept = rxb) := by
  have none : Reads law view [] [] := ⟨.nil, fun block inside => absurd inside List.not_mem_nil⟩
  cases moves with
  | quiet quiet stays =>
    refine ⟨[], [], List.prefix_rfl, ?_, ?_, fun _ => rfl⟩
    · rw [quiet.readBytes]
      exact none
    · rw [stays.inbound, List.flatten_nil, List.nil_append, List.append_nil]
  | receive rxb =>
    obtain ⟨first, filled, free, lays⟩ := matches_.inbound
    have below : view.inbound.begun.length < view.blocksize := by
      cases free with
      | nil =>
        rw [lays.begun_nil rfl]
        exact matches_.positive
      | cons block others =>
        rw [← lays.idx_eq]
        exact (lays.begun_eq block rfl).2
    have within : view.inbound.waiting.length ≤ view.numbufs := by
      have := lays.lap.length_eq
      rw [lays.length_waiting]
      omega
    obtain ⟨kept, front, together, all⟩ := Inbound.foldl_accept_flatten below within rxb
    exact ⟨kept, [], front, none, together, all⟩
  | transmit bytes => exact ⟨[], [], List.prefix_rfl, none, (List.append_nil _).symm, fun _ => rfl⟩
  | read begun delivers =>
    rcases matches_.reading.cases with ⟨-, idle⟩ |
      ⟨res, amnt, count, oldest, rest, -, -, -, -, here, waits⟩
    · exact absurd (begun.symm.trans idle) (Option.some_ne_none _)
    · rw [waits, List.headD_cons] at delivers
      refine ⟨[], [oldest], List.prefix_rfl, ⟨.cons delivers .nil, ?_⟩, ?_, fun _ => rfl⟩
      · intro block inside
        rw [List.mem_singleton.mp inside]
        exact (matches_.oldest_block here waits).2
      · show [oldest].flatten ++ (view.inbound.waiting.tail.flatten ++ view.inbound.begun) = _
        rw [waits, List.tail_cons, List.flatten_singleton, List.append_nil, List.flatten_cons,
          List.append_assoc]
  | wrote amnt data => exact ⟨[], [], List.prefix_rfl, none, (List.append_nil _).symm, fun _ => rfl⟩

/-- Channels of one shape read alike. -/
theorem Reads.of_shape {next : View} {reads : List (Nat × List UInt8)} {blocks : List (List UInt8)}
    (read : Reads law next reads blocks) (blocksize : next.blocksize = view.blocksize)
    (linear : next.linear = view.linear) : Reads law view reads blocks where
  delivers := by
    have same : Delivers law next = Delivers law view := by
      funext pair block
      unfold Delivers View.share
      rw [linear]
    rw [← same]
    exact read.delivers
  whole := by
    rw [← blocksize]
    exact read.whole

theorem Reads.append {first second : List (Nat × List UInt8)} {blocks others : List (List UInt8)}
    (reads : Reads law view first blocks) (more : Reads law view second others) :
    Reads law view (first ++ second) (blocks ++ others) where
  delivers := List.rel_append reads.delivers more.delivers
  whole := by
    intro block inside
    rcases List.mem_append.mp inside with old | new
    · exact reads.whole block old
    · exact more.whole block new

/-- **What has been read, what waits and what has begun is what has been kept of the chunks.** -/
theorem Matches.received_flatten (law : Law) (matches_ : Matches limits chan view)
    (plain : ∀ act ∈ acts, act.Plain) :
    ∃ kept blocks, kept.Sublist (acts.flatMap Act.received) ∧
      Reads law view ((view.run limits law acts).2.flatMap Out.readBytes) blocks ∧
      blocks.flatten ++ ((view.run limits law acts).1.inbound.waiting.flatten
          ++ (view.run limits law acts).1.inbound.begun)
        = view.inbound.waiting.flatten ++ view.inbound.begun ++ kept ∧
      (view.NeverFull limits law acts → kept = acts.flatMap Act.received) := by
  induction acts generalizing chan view with
  | nil =>
    exact ⟨[], [], List.Sublist.refl _, ⟨.nil, fun block inside => absurd inside List.not_mem_nil⟩,
      (List.append_nil _).symm, fun _ => rfl⟩
  | cons act acts ih =>
    have here := plain act List.mem_cons_self
    have moves := view.step_moves limits law here
    obtain ⟨numbufs, blocksize, linear⟩ := moves.shape
    obtain ⟨next, -, still⟩ := matches_.step law (here.allows view)
    obtain ⟨kept, blocks, front, reads, together, all⟩ := matches_.received_step moves
    obtain ⟨more, others, rest, reads', together', all'⟩ :=
      ih still fun other inside => plain other (List.mem_cons_of_mem _ inside)
    refine ⟨kept ++ more, blocks ++ others, front.sublist.append rest, ?_, ?_, ?_⟩
    · rw [View.run_cons, List.flatMap_cons]
      exact reads.append (reads'.of_shape blocksize linear)
    · rw [View.run_cons, List.flatten_append, List.append_assoc, together', ← List.append_assoc,
        together, List.append_assoc]
    · intro never
      rw [List.flatMap_cons, all never.1, all' never.2]

/-- Blocks of a size. -/
theorem length_flatten_le {blocks : List (List UInt8)} {size : Nat}
    (small : ∀ block ∈ blocks, block.length ≤ size) : blocks.flatten.length ≤ blocks.length * size := by
  induction blocks with
  | nil => exact Nat.zero_le _
  | cons block rest ih =>
    have first := small block List.mem_cons_self
    have others := ih fun other inside => small other (List.mem_cons_of_mem _ inside)
    rw [List.flatten_cons, List.length_append, List.length_cons, Nat.succ_mul]
    omega

/-- What waits to be sent fits into the blocks. -/
theorem Matches.unsent_le (matches_ : Matches limits chan view) :
    view.outbound.waiting.flatten.length ≤ view.numbufs * view.blocksize := by
  obtain ⟨first, filled, free, lays⟩ := matches_.outbound
  have count := lays.lap.length_eq
  have length := lays.length_waiting
  refine (length_flatten_le fun block inside => ?_).trans
    (Nat.mul_le_mul_right view.blocksize (show view.outbound.waiting.length ≤ view.numbufs by omega))
  rw [← lays.waiting_eq] at inside
  obtain ⟨source, member, rfl⟩ := List.mem_map.mp inside
  have small := (lays.within source member).2
  rw [Outbound.unsent, List.length_drop, List.length_take]
  omega

/-- **The streams through a channel that has been opened.** It sends what is written, in order, and owes
no more than its blocks hold; its reads give the beginnings of blocks that, one behind the other, are the
beginning of what it has kept; and it keeps everything while a block is free. -/
theorem opened_streams (law : Law) {kmalloc : Kmalloc} {last : Channel}
    (opened : chan.opened limits kmalloc = .ok last) (linear : Bool) (plain : ∀ act ∈ acts, act.Plain) :
    ∃ final outs, last.run limits law (.setlinear linear :: acts) = some (final, outs) ∧
      (∃ unsent, outs.flatMap Out.sentBytes ++ unsent = outs.flatMap Out.written ∧
        unsent.length ≤ limits.clamp limits.defaultNumBufs * limits.defaultBlocksize) ∧
      ∃ kept blocks, kept.Sublist (acts.flatMap Act.received) ∧
        Reads law (View.openedAs limits linear) (outs.flatMap Out.readBytes) blocks ∧
        blocks.flatten <+: kept ∧
        ((View.openedAs limits linear).NeverFull limits law acts →
          kept = acts.flatMap Act.received) := by
  have allowed : (View.opened limits).Allows (.setlinear linear) := ⟨rfl, rfl⟩
  have orderly : (View.openedAs limits linear).Orderly limits law acts := View.orderly_of_plain plain
  obtain ⟨set, stepped, (ready : Matches limits set (View.openedAs limits linear))⟩ :=
    (opened_matches opened).step law allowed
  obtain ⟨final, ran, finally_⟩ := ready.run orderly
  obtain ⟨kept, blocks, front, reads, together, all⟩ := ready.received_flatten law plain
  have sent := View.sent_flatten limits law (View.openedAs limits linear) plain
  obtain ⟨numbufs, blocksize⟩ := View.run_shape limits law (View.openedAs limits linear) plain
  have owed := finally_.unsent_le
  rw [numbufs, blocksize] at owed
  refine ⟨final, .silent :: _, ?_, ⟨_, sent, owed⟩, kept, blocks, front, reads, ⟨_, together⟩, all⟩
  unfold Channel.run
  rw [stepped]
  simp only [Option.bind_eq_bind, Option.bind_some, ran]
  rfl

/-- Five bytes come in, and a write and two reads go through. -/
theorem opened_streams_five : ∃ last final outs, unopened.opened twoByTwo zeroed = .ok last ∧
    last.run twoByTwo lowByte [.setlinear false, .receive [1, 2, 3, 4, 5], .writeBegin [7, 8],
        .writeCopy 2, .writeEnd, .readBegin 2, .readCopy 2, .readEnd, .transmit 1]
      = some (final, outs) ∧
      ∃ unsent, outs.flatMap Out.sentBytes ++ unsent = outs.flatMap Out.written ∧
        unsent.length ≤ 4 := by
  obtain ⟨last, opened⟩ : ∃ last, unopened.opened twoByTwo zeroed = .ok last := ⟨_, rfl⟩
  have plain : ∀ act ∈ [Act.receive [1, 2, 3, 4, 5], .writeBegin [7, 8], .writeCopy 2, .writeEnd,
      .readBegin 2, .readCopy 2, .readEnd, .transmit 1], act.Plain := by
    simp [Act.Plain]
  obtain ⟨final, outs, ran, sent, -⟩ := opened_streams lowByte opened false plain
  exact ⟨last, final, outs, opened, ran, sent⟩

/-! ### A flush that falls into a read -/

/-- Empty blocks that are enabled, filled from the first one on. -/
structure Blank (numbufs : Nat) (side : Side) : Prop where
  inbuf : side.inbuf = 0
  enabled : side.disable = false
  empty : ∀ x < numbufs, (side.block x).n = 0

/-- To end the read of an empty block makes the one behind it seem to wait. -/
theorem Blank.drain {numbufs res : Nat} {side : Side} (blank : Blank numbufs side)
    (inside : res + 1 < numbufs) :
    Blank numbufs (side.drain numbufs res) ∧ (side.drain numbufs res).outbuf = (res + 1 : Nat) := by
  have moved : ((res : Int) + 1) % (numbufs : Int) = (res + 1 : Nat) := by
    rw [Int.emod_eq_of_lt (by omega) (by omega)]
    push_cast
    rfl
  have apart : ¬ ((res : Int) + 1) % (numbufs : Int) = side.inbuf := by
    rw [moved, blank.inbuf]
    omega
  refine ⟨⟨?_, ?_, fun x within => ?_⟩, ?_⟩
  · exact (if_neg (by rw [blank.inbuf]; omega)).trans blank.inbuf
  · exact (if_neg fun both => apart both.1).trans blank.enabled
  · show (Function.update side.block res _ x).n = 0
    by_cases same : x = res
    · rw [same, Function.update_self]
    · rw [Function.update_of_ne same]
      exact blank.empty x within
  · exact (if_neg apart).trans moved

/-- A read of an empty block returns nothing. -/
theorem Blank.readBegin {buffers : Buffers} {next count : Nat} {events : EventQueue}
    (blank : Blank buffers.numbufs buffers.read) (outbuf : buffers.read.outbuf = next)
    (inside : next < buffers.numbufs) (asks : 0 < count % 65536) (quiet : events.pending = false) :
    readBegin events buffers count = .ok (next, 0) := by
  unfold Zaptel.readBegin
  rw [blank.enabled, quiet, outbuf]
  dsimp only
  rw [if_neg (by omega), if_neg Bool.false_ne_true, if_neg Bool.false_ne_true,
    if_neg (not_lt.mpr (Int.natCast_nonneg next)), Int.toNat_natCast, blank.empty next inside]
  simp

/-- The block that seems the oldest has been read. -/
def readNext (buffers : Buffers) : Buffers := readEnd buffers buffers.read.outbuf.toNat

/-- **A flush that falls into a read** leaves every block behind the one that is read as if it waited. The
reads that follow return nothing, one for each of these blocks: to the process, the end of the file. -/
theorem flush_under_read {res amnt count : Nat} {copied : List UInt8}
    (under : chan.reading = .copying res amnt copied)
    (whole : copied.length = chan.buffers.share amnt) (enabled : chan.buffers.read.disable = false)
    (quiet : chan.events.pending = false) (asks : 0 < count % 65536) (later : Nat)
    (inside : res + 1 + later < chan.buffers.numbufs) :
    let flushed := { chan with buffers := flushBlocks chan.buffers true false }
    let ended := (flushed.endRead law).1
    readBegin ended.events (readNext^[later] ended.buffers) count = .ok (res + 1 + later, 0) := by
  intro flushed ended
  have ended_eq : ended = { flushed with
      buffers := readEnd flushed.buffers res, reading := .idle } := by
    show (Channel.endRead law flushed).1 = _
    unfold Channel.endRead
    rw [show flushed.reading = .copying res amnt copied from under]
    dsimp only
    rw [if_pos (show copied.length = flushed.buffers.share amnt from whole)]
  have cleared : Blank chan.buffers.numbufs (chan.buffers.read.clear chan.buffers.numbufs) :=
    ⟨rfl, enabled, fun x within => by rw [Side.clear_block _ within]⟩
  -- after each further read the blocks behind it still seem to wait
  have behind : ∀ i, res + 1 + i < chan.buffers.numbufs →
      let buffers := readNext^[i] ended.buffers
      buffers.numbufs = chan.buffers.numbufs ∧ Blank chan.buffers.numbufs buffers.read ∧
        buffers.read.outbuf = (res + 1 + i : Nat) := by
    intro i
    induction i with
    | zero =>
      intro within
      rw [Function.iterate_zero, id_eq, ended_eq]
      exact ⟨rfl, cleared.drain within⟩
    | succ i ih =>
      intro within
      obtain ⟨numbufs, blank, outbuf⟩ := ih (by omega)
      have next := blank.drain (show res + 1 + i + 1 < chan.buffers.numbufs from within)
      rw [Function.iterate_succ_apply']
      generalize readNext^[i] ended.buffers = buffers at numbufs outbuf next ⊢
      refine ⟨numbufs, ?_⟩
      unfold readNext Zaptel.readEnd
      rw [outbuf, Int.toNat_natCast, numbufs]
      exact next
  obtain ⟨numbufs, blank, outbuf⟩ := behind later inside
  rw [← numbufs] at blank inside
  rw [ended_eq] at blank outbuf inside ⊢
  exact blank.readBegin outbuf inside asks quiet

end

/-- The first of two blocks is read when both are flushed. -/
def readingFirst : Channel :=
  { unopened with
    buffers := ⟨2, 2, false, ⟨fun _ => ⟨[1, 2], 2, 2⟩, -1, 0, false, .immediate⟩,
      ⟨fun _ => ⟨[0, 0], 0, 0⟩, 0, -1, false, .immediate⟩⟩
    reading := .copying 0 2 [1, 2] }

theorem flush_under_read_of_two :
    let flushed := { readingFirst with buffers := flushBlocks readingFirst.buffers true false }
    let ended := (flushed.endRead lowByte).1
    readBegin ended.events (readNext^[0] ended.buffers) 2 = .ok (1, 0) :=
  flush_under_read (rfl : readingFirst.reading = .copying 0 2 [1, 2]) rfl rfl rfl (by decide) 0
    (by decide)

end Baps.Zaptel
