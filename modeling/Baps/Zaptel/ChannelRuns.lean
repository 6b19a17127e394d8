/-
**Runs of a channel.**

`Matches` connects a channel to what its process sees of it. It holds when the channel is opened and is
kept by every step that the view allows; with it, the channel answers as the view does.

* `Matches.step` — **one step**: it does not fail, and answers what the view answers;
* `opened_run` — **whole runs**: whatever interrupts fall between the pieces of the calls, an opened
  channel answers as the three queues do, and never copies outside a block.
-/

import Baps.Zaptel.Channel

namespace Baps.Zaptel

open Baps.Memory

/-- A read in the channel and in the view. The block that is read is the oldest one; its beginning has
been copied. -/
def ReadingMatches (chan : Channel) (view : View) : Prop :=
  match chan.reading, view.reading with
  | .idle, none => True
  | .copying res amnt copied, some (amnt', count) =>
    amnt = amnt' ∧ view.share amnt ≤ view.blocksize ∧ count ≤ view.share amnt ∧
      chan.buffers.read.outbuf = res ∧
      ∃ oldest rest, view.inbound.waiting = oldest :: rest ∧ copied = oldest.take count
  | _, _ => False

/-- A write in the channel and in the view. The block that is written is the next one; the beginning of
the data is in it. -/
def WritingMatches (chan : Channel) (view : View) : Prop :=
  match chan.writing, view.writing with
  | .idle, none => True
  | .copying res amnt pos data, some (amnt', pos', data') =>
    amnt = amnt' ∧ pos = pos' ∧ data = data' ∧ data.length = view.share amnt ∧
      view.share amnt ≤ view.blocksize ∧ pos ≤ data.length ∧
      chan.buffers.write.inbuf = res ∧ (chan.buffers.write.block res).buf.take pos = data.take pos
  | _, _ => False

/-- A channel is what its process sees. -/
structure Matches (limits : Limits) (chan : Channel) (view : View) : Prop where
  two : 2 ≤ view.numbufs
  positive : 0 < view.blocksize
  numbufs_eq : chan.buffers.numbufs = view.numbufs
  blocksize_eq : chan.buffers.blocksize = view.blocksize
  linear_eq : chan.buffers.linear = view.linear
  events : chan.events.Waiting limits.maxEventsize view.events
  inbound : view.inbound.Shows view.numbufs view.blocksize chan.buffers.read
  outbound : view.outbound.Shows view.numbufs view.blocksize chan.buffers.write
  reading : ReadingMatches chan view
  writing : WritingMatches chan view

/-- A channel answers a step as its view does, and still is what its process sees. -/
def Follows (limits : Limits) (result : Option (Channel × Out)) (expected : View × Out) : Prop :=
  ∃ next, result = some (next, expected.2) ∧ Matches limits next expected.1

section

variable {limits : Limits} {law : Law} {chan : Channel} {view : View}

theorem ReadingMatches.cases (reads : ReadingMatches chan view) :
    (chan.reading = .idle ∧ view.reading = none) ∨
      ∃ res amnt count oldest rest, chan.reading = .copying res amnt (oldest.take count) ∧
        view.reading = some (amnt, count) ∧ view.share amnt ≤ view.blocksize ∧
        count ≤ view.share amnt ∧ chan.buffers.read.outbuf = res ∧
        view.inbound.waiting = oldest :: rest := by
  unfold ReadingMatches at reads
  split at reads
  next idle none => exact .inl ⟨idle, none⟩
  next res amnt copied amnt' count under begun =>
    obtain ⟨rfl, fits, most, here, oldest, rest, waits, rfl⟩ := reads
    exact .inr ⟨res, amnt, count, oldest, rest, under, begun, fits, most, here, waits⟩
  next => exact reads.elim

theorem WritingMatches.cases (writes : WritingMatches chan view) :
    (chan.writing = .idle ∧ view.writing = none) ∨
      ∃ res amnt pos data, chan.writing = .copying res amnt pos data ∧
        view.writing = some (amnt, pos, data) ∧ data.length = view.share amnt ∧
        view.share amnt ≤ view.blocksize ∧ pos ≤ data.length ∧ chan.buffers.write.inbuf = res ∧
        (chan.buffers.write.block res).buf.take pos = data.take pos := by
  unfold WritingMatches at writes
  split at writes
  next idle none => exact .inl ⟨idle, none⟩
  next res amnt pos data amnt' pos' data' under begun =>
    obtain ⟨rfl, rfl, rfl, length, fits, most, here, stored⟩ := writes
    exact .inr ⟨res, amnt, pos, data, under, begun, length, fits, most, here, stored⟩
  next => exact writes.elim

theorem ReadingMatches.idle (idle : chan.reading = .idle) (none : view.reading = none) :
    ReadingMatches chan view := by
  unfold ReadingMatches
  rw [idle, none]
  trivial

theorem WritingMatches.idle (idle : chan.writing = .idle) (none : view.writing = none) :
    WritingMatches chan view := by
  unfold WritingMatches
  rw [idle, none]
  trivial

theorem ReadingMatches.copying {res amnt : Nat} (oldest : List UInt8) (count : Nat)
    {rest : List (List UInt8)} (under : chan.reading = .copying res amnt (oldest.take count))
    (begun : view.reading = some (amnt, count)) (fits : view.share amnt ≤ view.blocksize)
    (most : count ≤ view.share amnt) (here : chan.buffers.read.outbuf = res)
    (waits : view.inbound.waiting = oldest :: rest) : ReadingMatches chan view := by
  unfold ReadingMatches
  rw [under, begun]
  exact ⟨rfl, fits, most, here, oldest, rest, waits, rfl⟩

theorem WritingMatches.copying {res amnt : Nat} (pos : Nat) {data : List UInt8}
    (under : chan.writing = .copying res amnt pos data)
    (begun : view.writing = some (amnt, pos, data)) (length : data.length = view.share amnt)
    (fits : view.share amnt ≤ view.blocksize) (most : pos ≤ data.length)
    (here : chan.buffers.write.inbuf = res)
    (stored : (chan.buffers.write.block res).buf.take pos = data.take pos) :
    WritingMatches chan view := by
  unfold WritingMatches
  rw [under, begun]
  exact ⟨rfl, rfl, rfl, length, fits, most, here, stored⟩

theorem ReadingMatches.idle_of (reads : ReadingMatches chan view) (none : view.reading = none) :
    chan.reading = .idle := by
  rcases reads.cases with ⟨idle, -⟩ | ⟨res, amnt, count, oldest, rest, -, begun, -⟩
  · exact idle
  · exact absurd (begun.symm.trans none) (Option.some_ne_none _)

theorem WritingMatches.idle_of (writes : WritingMatches chan view) (none : view.writing = none) :
    chan.writing = .idle := by
  rcases writes.cases with ⟨idle, -⟩ | ⟨res, amnt, pos, data, -, begun, -⟩
  · exact idle
  · exact absurd (begun.symm.trans none) (Option.some_ne_none _)

/-! ### The interrupt -/

/-- **A chunk is received.** -/
theorem Matches.receive (matches_ : Matches limits chan view) (rxb : List UInt8) :
    Follows limits (chan.step limits law (.receive rxb)) (view.step limits law (.receive rxb)) := by
  obtain ⟨after, ran, shown, still⟩ :=
    matches_.inbound.putLoop matches_.two matches_.positive (le_refl rxb.length)
  refine ⟨{ chan with buffers := { chan.buffers with read := after } }, ?_,
    { matches_ with inbound := shown, reading := ?_, writing := matches_.writing }⟩
  · show (putbufChunk chan.buffers rxb).bind _ = _
    rw [← matches_.numbufs_eq, ← matches_.blocksize_eq] at ran
    unfold putbufChunk
    rw [ran]
    rfl
  · rcases matches_.reading.cases with ⟨idle, none⟩ |
      ⟨res, amnt, count, oldest, rest, under, begun, fits, most, here, waits⟩
    · exact .idle idle none
    · have kept : view.inbound.waiting <+:
          (rxb.foldl (Inbound.accept view.numbufs view.blocksize) view.inbound).waiting :=
        Inbound.prefix_foldl_accept rxb
      obtain ⟨more, kept⟩ := kept
      have same : after.outbuf = res := by
        refine (still ?_).trans here
        rw [waits]
        exact List.cons_ne_nil _ _
      rw [waits, List.cons_append] at kept
      exact .copying oldest count under begun fits most same kept.symm

/-- **A chunk is sent.** -/
theorem Matches.transmit (matches_ : Matches limits chan view) (bytes : Nat) :
    Follows limits (chan.step limits law (.transmit bytes))
      (view.step limits law (.transmit bytes)) := by
  have enough : bytes + view.outbound.waiting.length ≤ bytes + view.numbufs := by
    obtain ⟨first, filled, free, lays⟩ := matches_.outbound
    have := lays.lap.length_eq
    have := lays.length_waiting
    omega
  obtain ⟨after, ran, shown, spared⟩ := matches_.outbound.getLoop matches_.two enough
  refine ⟨{ chan with buffers := { chan.buffers with write := after } }, ?_,
    { matches_ with outbound := shown, reading := matches_.reading, writing := ?_ }⟩
  · show (getbufChunk chan.buffers bytes).bind _ = _
    rw [← matches_.numbufs_eq] at ran
    unfold getbufChunk
    rw [ran]
    rfl
  · rcases matches_.writing.cases with ⟨idle, none⟩ |
      ⟨res, amnt, pos, data, under, begun, length, fits, most, here, stored⟩
    · exact .idle idle none
    · obtain ⟨inbuf, block⟩ := spared (by rw [here]; omega)
      rw [here, Int.toNat_natCast] at block
      exact .copying pos under begun length fits most (inbuf.trans here) (by rw [block]; exact stored)

/-! ### Reading -/

theorem Matches.share_eq (matches_ : Matches limits chan view) (amnt : Nat) :
    chan.buffers.share amnt = view.share amnt := by
  unfold Buffers.share View.share
  rw [matches_.linear_eq]

/-- A call of at most two bytes a sample copies at most one block. -/
theorem View.share_le (view : View) (count : Nat) : view.share (min count view.most) ≤ view.blocksize := by
  unfold View.share View.most
  split <;> omega

/-- A call that begins is ready to. -/
theorem View.refuses_none {count : Nat} {ready : Bool} (begins : view.refuses count ready = none) :
    ready = true := by
  unfold View.refuses at begins
  split at begins
  · exact absurd begins (Option.some_ne_none _)
  · split at begins
    · exact absurd begins (Option.some_ne_none _)
    · by_contra unready
      rw [if_neg unready] at begins
      exact Option.some_ne_none _ begins

/-- **The beginning of a read.** -/
theorem Matches.readBegin_eq (matches_ : Matches limits chan view) (count : Nat) :
    Zaptel.readBegin chan.events chan.buffers count =
      match view.refuses count (view.inbound.enabled && !view.inbound.waiting.isEmpty) with
      | some errno => .error errno
      | none => .ok (chan.buffers.read.outbuf.toNat, min (count % 65536) view.most) := by
  obtain ⟨first, filled, free, lays⟩ := matches_.inbound
  have ready : (if chan.buffers.read.disable = true then -1 else chan.buffers.read.outbuf) < 0 ↔
      ¬ (view.inbound.enabled && !view.inbound.waiting.isEmpty) = true := by
    have waits := lays.lap.outbuf_nonneg_iff
    rw [lays.disable_eq, ← lays.waiting_eq]
    cases view.inbound.enabled with
    | false => simp
    | true =>
      have : chan.buffers.read.cursors.outbuf = chan.buffers.read.outbuf := rfl
      simp only [Bool.not_true, Bool.false_eq_true, if_false, Bool.true_and, Bool.not_eq_true',
        List.isEmpty_map, Bool.not_eq_false, List.isEmpty_iff]
      rw [← not_le, ← this, waits, not_not]
  unfold Zaptel.readBegin View.refuses EventQueue.pending
  by_cases zero : count % 65536 < 1
  · rw [if_pos zero, if_pos zero]
  · rw [if_neg zero, if_neg zero]
    by_cases waiting : view.events = []
    · have none := matches_.events.pending_iff.not.mpr (not_not_intro waiting)
      rw [if_neg (by simpa using none), if_neg (not_not_intro waiting)]
      by_cases able : (view.inbound.enabled && !view.inbound.waiting.isEmpty) = true
      · have some : ¬ (if chan.buffers.read.disable = true then -1 else chan.buffers.read.outbuf) < 0 :=
          fun below => ready.mp below able
        have enabled : chan.buffers.read.disable = false := by
          rw [lays.disable_eq, (Bool.and_eq_true_iff.mp able).1]
          rfl
        obtain ⟨oldest, rest, rfl⟩ : ∃ oldest rest, filled = oldest :: rest := by
          refine List.exists_cons_of_ne_nil fun none => ?_
          rw [← lays.waiting_eq, none] at able
          simp at able
        have slot : chan.buffers.read.block chan.buffers.read.outbuf.toNat = oldest :=
          lays.lap.slot_outbuf
        have n := (lays.complete oldest List.mem_cons_self).2
        rw [if_neg some, if_pos able, enabled]
        simp only [Bool.false_eq_true, if_false]
        rw [slot, n, matches_.linear_eq]
        unfold View.most
        split <;> rfl
      · rw [if_pos (ready.mpr able), if_neg able]
    · have some := matches_.events.pending_iff.mpr waiting
      rw [if_pos (by simpa using some), if_pos waiting]

theorem Matches.readBegin (matches_ : Matches limits chan view) (count : Nat) :
    Follows limits (chan.step limits law (.readBegin count))
      (view.step limits law (.readBegin count)) := by
  show Follows limits (some (chan.beginRead count)) (view.beginRead count)
  unfold Channel.beginRead View.beginRead
  rcases matches_.reading.cases with ⟨idle, none⟩ |
    ⟨res, amnt, copied, oldest, rest, under, begun, -, -, -, -⟩
  · rw [idle, none]
    dsimp only
    rw [matches_.readBegin_eq count]
    cases refused : view.refuses count (view.inbound.enabled && !view.inbound.waiting.isEmpty) with
    | some errno => exact ⟨chan, rfl, matches_⟩
    | none =>
      obtain ⟨first, filled, free, lays⟩ := matches_.inbound
      obtain ⟨oldest, rest, waits⟩ : ∃ oldest rest, view.inbound.waiting = oldest :: rest := by
        refine List.exists_cons_of_ne_nil fun none => ?_
        have able := View.refuses_none refused
        rw [none, List.isEmpty_nil, Bool.not_true, Bool.and_false] at able
        exact Bool.false_ne_true able
      have opened : 0 ≤ chan.buffers.read.outbuf := lays.lap.outbuf_nonneg_iff.mpr fun none => by
        rw [← lays.waiting_eq, none] at waits
        exact List.cons_ne_nil _ _ waits.symm
      refine ⟨_, rfl, { matches_ with reading := ?_, writing := matches_.writing }⟩
      exact .copying oldest 0 rfl rfl (view.share_le _) (Nat.zero_le _)
        (Int.toNat_of_nonneg opened).symm waits
  · rw [under, begun]
    exact ⟨chan, rfl, matches_⟩

/-- The block that is read. -/
theorem Matches.oldest_block (matches_ : Matches limits chan view) {res : Nat} {oldest : List UInt8}
    {rest : List (List UInt8)} (here : chan.buffers.read.outbuf = res)
    (waits : view.inbound.waiting = oldest :: rest) :
    (chan.buffers.read.block res).buf = oldest ∧ oldest.length = view.blocksize := by
  obtain ⟨first, filled, free, lays⟩ := matches_.inbound
  have blocks := lays.waiting_eq
  rw [waits] at blocks
  obtain ⟨block, more, rfl⟩ : ∃ block more, filled = block :: more := by
    refine List.exists_cons_of_ne_nil fun none => ?_
    rw [none] at blocks
    exact List.cons_ne_nil _ _ blocks.symm
  have slot : chan.buffers.read.block chan.buffers.read.outbuf.toNat = block := lays.lap.slot_outbuf
  rw [here, Int.toNat_natCast] at slot
  rw [slot]
  obtain ⟨rfl, -⟩ := List.cons.inj blocks
  exact ⟨rfl, (lays.complete block List.mem_cons_self).1⟩

/-- **A piece is copied to the process.** -/
theorem Matches.readCopy (matches_ : Matches limits chan view) (bytes : Nat) :
    Follows limits (chan.step limits law (.readCopy bytes))
      (view.step limits law (.readCopy bytes)) := by
  show Follows limits (chan.copyRead bytes) (view.copyRead bytes)
  unfold Channel.copyRead View.copyRead
  rcases matches_.reading.cases with ⟨idle, none⟩ |
    ⟨res, amnt, count, oldest, rest, under, begun, fits, most, here, waits⟩
  · rw [idle, none]
    exact ⟨chan, rfl, matches_⟩
  · obtain ⟨block, size⟩ := matches_.oldest_block here waits
    have length : (oldest.take count).length = count := by
      rw [List.length_take]
      omega
    obtain ⟨more, more_eq⟩ : ∃ more, more = min bytes (view.share amnt - count) := ⟨_, rfl⟩
    have copied : slice oldest count more = some ((oldest.drop count).take more) :=
      slice_inside (by omega)
    rw [under, begun]
    dsimp only
    rw [matches_.share_eq, length, block, ← more_eq, copied]
    refine ⟨_, rfl, { matches_ with reading := ?_, writing := matches_.writing }⟩
    refine .copying oldest (count + more) ?_ rfl fits ?_ here waits
    · rw [List.take_add]
    · show count + more ≤ view.share amnt
      omega

/-- **A read ends.** -/
theorem Matches.readEnd (matches_ : Matches limits chan view) :
    Follows limits (chan.step limits law .readEnd) (view.step limits law .readEnd) := by
  show Follows limits (some (chan.endRead law)) (view.endRead law)
  unfold Channel.endRead View.endRead
  rcases matches_.reading.cases with ⟨idle, none⟩ |
    ⟨res, amnt, count, oldest, rest, under, begun, fits, most, here, waits⟩
  · rw [idle, none]
    exact ⟨chan, rfl, matches_⟩
  · obtain ⟨block, size⟩ := matches_.oldest_block here waits
    have length : (oldest.take count).length = count := by
      rw [List.length_take]
      omega
    rw [under, begun]
    dsimp only
    rw [matches_.share_eq, length]
    by_cases whole : count = view.share amnt
    · obtain ⟨first, filled, free, lays⟩ := matches_.inbound
      obtain ⟨block, more, rfl⟩ : ∃ block more, filled = block :: more := by
        refine List.exists_cons_of_ne_nil fun none => ?_
        have blocks := lays.waiting_eq
        rw [waits, none] at blocks
        exact List.cons_ne_nil _ _ blocks.symm
      have drained := lays.drain matches_.two matches_.positive
      rw [here, Int.toNat_natCast] at drained
      rw [if_pos whole, if_pos whole, waits, List.headD_cons, ← whole, matches_.linear_eq]
      have shown : view.inbound.finish.Shows view.numbufs view.blocksize
          (Zaptel.readEnd chan.buffers res).read := by
        unfold Zaptel.readEnd
        rw [matches_.numbufs_eq]
        exact ⟨_, _, _, drained⟩
      exact ⟨_, rfl, { matches_ with
        inbound := shown
        reading := .idle rfl rfl
        writing := matches_.writing }⟩
    · rw [if_neg whole, if_neg whole]
      exact ⟨chan, rfl, matches_⟩

theorem Matches.readFault (matches_ : Matches limits chan view) :
    Follows limits (chan.step limits law .readFault) (view.step limits law .readFault) := by
  show Follows limits (some chan.faultRead) view.faultRead
  unfold Channel.faultRead View.faultRead
  rcases matches_.reading.cases with ⟨idle, none⟩ |
    ⟨res, amnt, count, oldest, rest, under, begun, -, -, -, -⟩
  · rw [idle, none]
    exact ⟨chan, rfl, matches_⟩
  · rw [under, begun]
    exact ⟨_, rfl, { matches_ with reading := .idle rfl rfl, writing := matches_.writing }⟩

/-! ### Writing -/

theorem Law.length_compressAll (law : Law) (bytes : List UInt8) :
    (law.compressAll bytes).length = bytes.length / 2 := by
  fun_induction Law.compressAll law bytes with
  | case1 low high more ih =>
    rw [List.length_cons, ih, List.length_cons, List.length_cons]
    omega
  | case2 bytes short =>
    rcases bytes with _ | ⟨low, _ | ⟨high, more⟩⟩
    · rfl
    · exact (Nat.div_eq_of_lt (by decide : 1 < 2)).symm
    · exact absurd rfl (short low high more)

/-- What a write stores has its share of bytes. -/
theorem View.length_stored (law : Law) (view : View) {usrbuf : List UInt8} {amnt : Nat}
    (within : amnt ≤ usrbuf.length) :
    (law.stored view.linear usrbuf amnt).length = view.share amnt := by
  unfold Law.stored View.share
  split
  · rw [law.length_compressAll, List.length_take, Nat.min_eq_left within]
  · rw [List.length_take, Nat.min_eq_left within]

/-- **The beginning of a write.** -/
theorem Matches.writeBegin_eq (matches_ : Matches limits chan view) (count : Nat) :
    Zaptel.writeBegin chan.events chan.buffers count =
      match view.refuses count (decide (view.outbound.waiting.length < view.numbufs)) with
      | some errno => .error errno
      | none => .ok (chan.buffers.write.inbuf.toNat, min (count % 65536) view.most) := by
  obtain ⟨first, filled, free, lays⟩ := matches_.outbound
  have ready : chan.buffers.write.inbuf < 0 ↔
      ¬ decide (view.outbound.waiting.length < view.numbufs) = true := by
    have room : 0 ≤ chan.buffers.write.inbuf ↔ free ≠ [] := lays.lap.inbuf_nonneg_iff
    have whole := lays.lap.length_eq
    rw [← List.length_pos_iff] at room
    rw [decide_eq_true_iff, lays.length_waiting]
    omega
  unfold Zaptel.writeBegin View.refuses EventQueue.pending
  by_cases zero : count % 65536 < 1
  · rw [if_pos zero, if_pos zero]
  · rw [if_neg zero, if_neg zero]
    by_cases waiting : view.events = []
    · have none := matches_.events.pending_iff.not.mpr (not_not_intro waiting)
      rw [if_neg (by simpa using none), if_neg (not_not_intro waiting)]
      by_cases able : decide (view.outbound.waiting.length < view.numbufs) = true
      · rw [if_neg fun below => ready.mp below able, if_pos able, matches_.linear_eq,
          matches_.blocksize_eq]
        unfold View.most
        split <;> rfl
      · rw [if_pos (ready.mpr able), if_neg able]
    · have some := matches_.events.pending_iff.mpr waiting
      rw [if_pos (by simpa using some), if_pos waiting]

theorem Matches.writeBegin (matches_ : Matches limits chan view) (usrbuf : List UInt8) :
    Follows limits (chan.step limits law (.writeBegin usrbuf))
      (view.step limits law (.writeBegin usrbuf)) := by
  show Follows limits (some (chan.beginWrite law usrbuf)) (view.beginWrite law usrbuf)
  unfold Channel.beginWrite View.beginWrite
  rcases matches_.writing.cases with ⟨idle, none⟩ |
    ⟨res, amnt, pos, data, under, begun, -, -, -, -, -⟩
  · rw [idle, none]
    dsimp only
    rw [matches_.writeBegin_eq usrbuf.length]
    cases refused : view.refuses usrbuf.length
        (decide (view.outbound.waiting.length < view.numbufs)) with
    | some errno => exact ⟨chan, rfl, matches_⟩
    | none =>
      obtain ⟨first, filled, free, lays⟩ := matches_.outbound
      have room := of_decide_eq_true (View.refuses_none refused)
      have opened : 0 ≤ chan.buffers.write.inbuf := by
        have full := lays.full_iff.not.mp room.ne
        exact lays.lap.inbuf_nonneg_iff.mpr full
      have some : min (usrbuf.length % 65536) view.most ≠ 0 := by
        have positive := matches_.positive
        have count : ¬ usrbuf.length % 65536 < 1 := by
          intro zero
          unfold View.refuses at refused
          rw [if_pos zero] at refused
          exact Option.some_ne_none _ refused
        unfold View.most
        split <;> omega
      dsimp only
      rw [if_neg some, matches_.linear_eq]
      refine ⟨_, rfl, { matches_ with reading := matches_.reading, writing := ?_ }⟩
      have within : min (usrbuf.length % 65536) view.most ≤ usrbuf.length :=
        (Nat.min_le_left _ _).trans (Nat.mod_le _ _)
      refine .copying 0 rfl rfl (view.length_stored law within) (view.share_le _) (Nat.zero_le _)
        (Int.toNat_of_nonneg opened).symm ?_
      rw [List.take_zero, List.take_zero]
  · rw [under, begun]
    exact ⟨chan, rfl, matches_⟩

/-- The block that is written. -/
theorem Matches.next_block (matches_ : Matches limits chan view) {res : Nat}
    (here : chan.buffers.write.inbuf = res) :
    ∃ first filled free, Outbound.Lays view.numbufs view.blocksize chan.buffers.write view.outbound
        first filled (chan.buffers.write.block res :: free) ∧
      (chan.buffers.write.block res).buf.length = view.blocksize := by
  obtain ⟨first, filled, free, lays⟩ := matches_.outbound
  have opened : 0 ≤ chan.buffers.write.inbuf := by omega
  obtain ⟨block, more, rfl⟩ := List.exists_cons_of_ne_nil (lays.lap.inbuf_nonneg_iff.mp opened)
  have slot : chan.buffers.write.block chan.buffers.write.inbuf.toNat = block := lays.lap.slot_inbuf
  rw [here, Int.toNat_natCast] at slot
  rw [slot]
  exact ⟨first, filled, more, lays, lays.sized block (List.mem_append_right _ List.mem_cons_self)⟩

/-- **A piece is copied from the process.** -/
theorem Matches.writeCopy (matches_ : Matches limits chan view) (bytes : Nat) :
    Follows limits (chan.step limits law (.writeCopy bytes))
      (view.step limits law (.writeCopy bytes)) := by
  show Follows limits (chan.copyWrite bytes) (view.copyWrite bytes)
  unfold Channel.copyWrite View.copyWrite
  rcases matches_.writing.cases with ⟨idle, none⟩ |
    ⟨res, amnt, pos, data, under, begun, length, fits, most, here, stored⟩
  · rw [idle, none]
    exact ⟨chan, rfl, matches_⟩
  · obtain ⟨first, filled, free, lays, size⟩ := matches_.next_block here
    have piece : ((data.drop pos).take bytes).length = min bytes (data.length - pos) := by
      rw [List.length_take, List.length_drop]
    have inside : pos + ((data.drop pos).take bytes).length
        ≤ (chan.buffers.write.block res).buf.length := by omega
    obtain ⟨buf, written, same, taken⟩ := blit_inside inside
    rw [under, begun]
    dsimp only
    unfold Zaptel.writeCopy
    rw [written]
    have put := lays.lap.write_free { chan.buffers.write.block res with buf := buf }
    have slot : chan.buffers.write.cursors.inbuf.toNat = res := by
      show chan.buffers.write.inbuf.toNat = res
      rw [here, Int.toNat_natCast]
    rw [slot] at put
    refine ⟨_, rfl, { matches_ with outbound := ?_, reading := matches_.reading, writing := ?_ }⟩
    · refine ⟨_, _, _, put, lays.within, ?_, lays.waiting_eq, lays.disable_eq, lays.policy_eq⟩
      intro other inside
      rcases List.mem_append.mp inside with old | new
      · exact lays.sized other (List.mem_append_left _ old)
      · rcases List.mem_cons.mp new with rfl | rest
        · exact same.trans size
        · exact lays.sized other (List.mem_append_right _ (List.mem_cons_of_mem _ rest))
    · refine .copying (pos + ((data.drop pos).take bytes).length) rfl ?_ length fits ?_ here ?_
      · rw [piece]
      · omega
      · show ((Function.update chan.buffers.write.block res _) res).buf.take _ = _
        rw [Function.update_self, taken, stored, ← List.take_add, piece]
        refine List.take_eq_take_iff.mpr ?_
        omega

/-- **A write ends.** -/
theorem Matches.writeEnd (matches_ : Matches limits chan view) :
    Follows limits (chan.step limits law .writeEnd) (view.step limits law .writeEnd) := by
  show Follows limits (some chan.endWrite) view.endWrite
  unfold Channel.endWrite View.endWrite
  rcases matches_.writing.cases with ⟨idle, none⟩ |
    ⟨res, amnt, pos, data, under, begun, length, fits, most, here, stored⟩
  · rw [idle, none]
    exact ⟨chan, rfl, matches_⟩
  · rw [under, begun]
    dsimp only
    by_cases whole : pos = data.length
    · obtain ⟨first, filled, free, lays, size⟩ := matches_.next_block here
      have submitted := lays.submit matches_.two fits
      rw [here, Int.toNat_natCast, ← length, ← whole, stored, whole, List.take_length] at submitted
      rw [if_pos whole, if_pos whole]
      have shown : (view.outbound.submit view.numbufs data).Shows view.numbufs view.blocksize
          (Zaptel.writeEnd chan.buffers res amnt).write := by
        unfold Zaptel.writeEnd
        rw [matches_.share_eq, matches_.numbufs_eq, ← length]
        exact ⟨_, _, _, submitted⟩
      exact ⟨_, rfl, { matches_ with
        outbound := shown
        reading := matches_.reading
        writing := .idle rfl rfl }⟩
    · rw [if_neg whole, if_neg whole]
      exact ⟨chan, rfl, matches_⟩

theorem Matches.writeFault (matches_ : Matches limits chan view) :
    Follows limits (chan.step limits law .writeFault) (view.step limits law .writeFault) := by
  show Follows limits (some chan.faultWrite) view.faultWrite
  unfold Channel.faultWrite View.faultWrite
  rcases matches_.writing.cases with ⟨idle, none⟩ |
    ⟨res, amnt, pos, data, under, begun, -, -, -, -, -⟩
  · rw [idle, none]
    exact ⟨chan, rfl, matches_⟩
  · rw [under, begun]
    exact ⟨_, rfl, { matches_ with reading := matches_.reading, writing := .idle rfl rfl }⟩

/-! ### Resets -/

/-- The read blocks after a flush. -/
theorem Matches.cleared_read (matches_ : Matches limits chan view) :
    view.inbound.reset.Shows view.numbufs view.blocksize
      (chan.buffers.read.clear chan.buffers.numbufs) := by
  obtain ⟨first, filled, free, lays⟩ := matches_.inbound
  have some : 0 < view.numbufs := by have := matches_.two; omega
  rw [matches_.numbufs_eq]
  have cleared : ∀ x < view.numbufs, ((chan.buffers.read.clear view.numbufs).block x).buf.length
      = view.blocksize ∧ ((chan.buffers.read.clear view.numbufs).block x).idx = 0 := by
    intro x inside
    rw [Side.clear_block _ inside]
    exact ⟨lays.block_sized inside, rfl⟩
  have blank := Inbound.Lays.start matches_.positive some rfl rfl rfl cleared lays.disable_eq
  rw [show (chan.buffers.read.clear view.numbufs).bufpolicy = view.inbound.policy from
    lays.policy_eq] at blank
  exact ⟨_, _, _, blank⟩

/-- The write blocks after a flush. -/
theorem Matches.cleared_write (matches_ : Matches limits chan view) :
    view.outbound.reset.Shows view.numbufs view.blocksize
      (chan.buffers.write.clear chan.buffers.numbufs) := by
  obtain ⟨first, filled, free, lays⟩ := matches_.outbound
  have some : 0 < view.numbufs := by have := matches_.two; omega
  rw [matches_.numbufs_eq]
  have cleared : ∀ x < view.numbufs,
      ((chan.buffers.write.clear view.numbufs).block x).buf.length = view.blocksize := by
    intro x inside
    rw [Side.clear_block _ inside]
    exact lays.block_sized inside
  have blank := Outbound.Lays.start some rfl rfl rfl cleared lays.disable_eq
  rw [show (chan.buffers.write.clear view.numbufs).bufpolicy = view.outbound.policy from
    lays.policy_eq] at blank
  exact ⟨_, _, _, blank⟩

/-- **A flush** while no call is under way there. -/
theorem Matches.flush (matches_ : Matches limits chan view) {read write : Bool} (event : Bool)
    (noRead : read = true → view.reading = none) (noWrite : write = true → view.writing = none) :
    Follows limits (chan.step limits law (.flush read write event))
      (view.step limits law (.flush read write event)) := by
  refine ⟨_, rfl, ⟨matches_.two, matches_.positive, matches_.numbufs_eq, matches_.blocksize_eq,
    matches_.linear_eq, ?_, ?_, ?_, ?_, ?_⟩⟩
  · cases event with
    | true => exact matches_.events.flush
    | false => exact matches_.events
  · cases read with
    | true => exact matches_.cleared_read
    | false => exact matches_.inbound
  · cases write with
    | true => exact matches_.cleared_write
    | false => exact matches_.outbound
  · cases read with
    | true => exact .idle (matches_.reading.idle_of (noRead rfl)) (noRead rfl)
    | false => exact matches_.reading
  · cases write with
    | true => exact .idle (matches_.writing.idle_of (noWrite rfl)) (noWrite rfl)
    | false => exact matches_.writing

/-- A piece of memory holds the blocks that are cut out of it. -/
theorem length_cut {memory : List UInt8} {size count x : Nat} (length : memory.length = size * 2 * count)
    (inside : x < 2 * count) : ((memory.drop (x * size)).take size).length = size := by
  have room : (x + 1) * size ≤ 2 * count * size := Nat.mul_le_mul_right size inside
  have whole : size * 2 * count = 2 * count * size := by
    rw [Nat.mul_comm size 2, Nat.mul_right_comm]
  rw [Nat.succ_mul] at room
  rw [List.length_take, List.length_drop, length, whole]
  omega

theorem Limits.two_le_clamp (limits : Limits) (numbufs : Int) : 2 ≤ limits.clamp numbufs := by
  have two := limits.two
  unfold Limits.clamp
  dsimp only
  split <;> split <;> omega

/-- **New blocks.** Both directions are empty, and each policy decides whether its other end waits. -/
theorem reallocbufs_shows {kmalloc : Kmalloc} (buffers : Buffers) {j : Nat} {numbufs : Int}
    {memory : List UInt8} (positive : 0 < j)
    (given : kmalloc.alloc (j * 2 * limits.clamp numbufs) = some memory) :
    ∃ after, reallocbufs limits kmalloc buffers j numbufs = .ok after ∧
      after.numbufs = limits.clamp numbufs ∧ after.blocksize = j ∧ after.linear = buffers.linear ∧
      Inbound.Shows (limits.clamp numbufs) j after.read
        ⟨[], [], buffers.read.bufpolicy ≠ .whenFull, buffers.read.bufpolicy⟩ ∧
      Outbound.Shows (limits.clamp numbufs) j after.write
        ⟨[], buffers.write.bufpolicy ≠ .whenFull, buffers.write.bufpolicy⟩ := by
  have length := kmalloc.length_eq _ _ given
  have some : 0 < limits.clamp numbufs := by have := limits.two_le_clamp numbufs; omega
  unfold reallocbufs
  dsimp only
  rw [if_neg positive.ne', given]
  refine ⟨_, rfl, rfl, rfl, rfl, ⟨_, _, _, Inbound.Lays.start positive some rfl ?_ rfl ?_ ?_⟩,
    ⟨_, _, _, Outbound.Lays.start some rfl ?_ rfl ?_ ?_⟩⟩
  · exact if_neg positive.ne'
  · intro x inside
    rw [Side.renew_block _ _ _ inside]
    exact ⟨length_cut length (by omega), rfl⟩
  · show decide (buffers.read.bufpolicy = .whenFull) = !decide (buffers.read.bufpolicy ≠ .whenFull)
    cases buffers.read.bufpolicy <;> rfl
  · exact if_neg positive.ne'
  · intro x inside
    rw [Side.renew_block _ _ _ inside]
    exact length_cut length (by omega)
  · show decide (buffers.write.bufpolicy = .whenFull) = !decide (buffers.write.bufpolicy ≠ .whenFull)
    cases buffers.write.bufpolicy <;> rfl

theorem Policy.immediate_iff (policy : Policy) : policy = .immediate ↔ policy ≠ .whenFull := by
  cases policy <;> decide

/-- **Blocks of another size or number** while no call is under way. -/
theorem Matches.setBufinfo (matches_ : Matches limits chan view) (noRead : view.reading = none)
    (noWrite : view.writing = none) (kmalloc : Kmalloc) (rxbufpolicy txbufpolicy : Policy)
    (bufsize numbufs : Int) :
    Follows limits (chan.step limits law (.setBufinfo kmalloc rxbufpolicy txbufpolicy bufsize numbufs))
      (view.step limits law (.setBufinfo kmalloc rxbufpolicy txbufpolicy bufsize numbufs)) := by
  unfold Channel.step View.step View.setBufinfo Zaptel.setBufinfo
  dsimp only
  by_cases large : bufsize > limits.maxBlocksize
  · rw [if_pos large, if_pos (.inl large)]
    exact ⟨chan, rfl, matches_⟩
  rw [if_neg large]
  by_cases small : bufsize < 16
  · rw [if_pos small, if_pos (.inr (.inl small))]
    exact ⟨chan, rfl, matches_⟩
  rw [if_neg small]
  by_cases space : (bufsize * numbufs).bmod (2 ^ 32) > limits.maxBufSpace
  · rw [if_pos space, if_pos (.inr (.inr space))]
    exact ⟨chan, rfl, matches_⟩
  rw [if_neg space, if_neg (by rintro (bad | bad | bad) <;> contradiction)]
  have positive : 0 < bufsize.toNat := by omega
  cases given : kmalloc.alloc (bufsize.toNat * 2 * limits.clamp numbufs) with
  | none =>
    unfold reallocbufs
    dsimp only
    rw [if_neg positive.ne', given, if_pos rfl]
    exact ⟨chan, rfl, matches_⟩
  | some memory =>
    obtain ⟨after, made, numbufs_eq, blocksize_eq, linear_eq, inbound, outbound⟩ :=
      reallocbufs_shows { chan.buffers with
        read := { chan.buffers.read with bufpolicy := rxbufpolicy }
        write := { chan.buffers.write with bufpolicy := txbufpolicy } } positive given
    rw [if_neg (Option.some_ne_none _), made]
    refine ⟨_, rfl, ⟨limits.two_le_clamp numbufs, positive, numbufs_eq, blocksize_eq,
      linear_eq.trans matches_.linear_eq, matches_.events, ?_, ?_, ?_, ?_⟩⟩
    · simp only [Policy.immediate_iff]
      exact inbound
    · simp only [Policy.immediate_iff]
      exact outbound
    · exact .idle (matches_.reading.idle_of noRead) noRead
    · exact .idle (matches_.writing.idle_of noWrite) noWrite

/-! ### Runs -/

/-- **One step** that the view allows. -/
theorem Matches.step (law : Law) (matches_ : Matches limits chan view) {act : Act} (allowed : view.Allows act) :
    Follows limits (chan.step limits law act) (view.step limits law act) := by
  cases act with
  | receive rxb => exact matches_.receive rxb
  | transmit bytes => exact matches_.transmit bytes
  | qevent event =>
    exact ⟨_, rfl, { matches_ with
      events := matches_.events.qevent event
      reading := matches_.reading
      writing := matches_.writing }⟩
  | getevent =>
    obtain ⟨oldest, rest⟩ := matches_.events.getevent
    refine ⟨{ chan with events := (chan.events.getevent limits.maxEventsize).2 }, ?_, { matches_ with
      events := rest
      reading := matches_.reading
      writing := matches_.writing }⟩
    exact congrArg (fun event => some
      ({ chan with events := (chan.events.getevent limits.maxEventsize).2 }, Out.event event)) oldest
  | readBegin count => exact matches_.readBegin count
  | readCopy bytes => exact matches_.readCopy bytes
  | readEnd => exact matches_.readEnd
  | readFault => exact matches_.readFault
  | writeBegin usrbuf => exact matches_.writeBegin usrbuf
  | writeCopy bytes => exact matches_.writeCopy bytes
  | writeEnd => exact matches_.writeEnd
  | writeFault => exact matches_.writeFault
  | iomuxWriteempty =>
    obtain ⟨first, filled, free, lays⟩ := matches_.outbound
    exact ⟨_, rfl, { matches_ with
      outbound := ⟨first, filled, free, { lays with disable_eq := rfl }⟩
      reading := matches_.reading
      writing := matches_.writing }⟩
  | flush read write event => exact matches_.flush event allowed.1 allowed.2
  | setBufinfo kmalloc rxbufpolicy txbufpolicy bufsize numbufs =>
    exact matches_.setBufinfo allowed.1 allowed.2 kmalloc rxbufpolicy txbufpolicy bufsize numbufs
  | setlinear on =>
    exact ⟨_, rfl, { matches_ with
      linear_eq := rfl
      reading := .idle (matches_.reading.idle_of allowed.1) allowed.1
      writing := .idle (matches_.writing.idle_of allowed.2) allowed.2 }⟩

/-- **Whole runs.** -/
theorem Matches.run (matches_ : Matches limits chan view) {acts : List Act}
    (orderly : view.Orderly limits law acts) :
    ∃ last, chan.run limits law acts = some (last, (view.run limits law acts).2) ∧
      Matches limits last (view.run limits law acts).1 := by
  induction acts generalizing chan view with
  | nil => exact ⟨chan, rfl, matches_⟩
  | cons act acts ih =>
    obtain ⟨next, stepped, still⟩ := matches_.step law orderly.1
    obtain ⟨last, ran, finally_⟩ := ih still orderly.2
    refine ⟨last, ?_, finally_⟩
    unfold Channel.run
    rw [stepped]
    simp only [Option.bind_eq_bind, Option.bind_some, ran]
    rfl

/-- **A channel is opened.** -/
theorem opened_matches {kmalloc : Kmalloc} {last : Channel}
    (opened : chan.opened limits kmalloc = .ok last) : Matches limits last (View.opened limits) := by
  unfold Channel.opened at opened
  cases given : kmalloc.alloc (limits.defaultBlocksize * 2 * limits.clamp limits.defaultNumBufs) with
  | none =>
    unfold reallocbufs at opened
    dsimp only at opened
    rw [if_neg limits.blocksize_pos.ne', given] at opened
    exact absurd opened (by rintro ⟨⟩)
  | some memory =>
    obtain ⟨after, made, numbufs_eq, blocksize_eq, linear_eq, inbound, outbound⟩ :=
      reallocbufs_shows chan.buffers limits.blocksize_pos given
    rw [made] at opened
    obtain rfl := Except.ok.inj opened
    obtain ⟨first, filled, free, lays⟩ := inbound
    obtain ⟨first', filled', free', lays'⟩ := outbound
    exact {
      two := limits.two_le_clamp _
      positive := limits.blocksize_pos
      numbufs_eq := numbufs_eq
      blocksize_eq := blocksize_eq
      linear_eq := rfl
      events := {
        out_lt := limits.eventsize_pos
        in_eq := (Nat.zero_mod _).symm
        fits := limits.eventsize_pos
        take_eq := rfl }
      inbound := ⟨first, filled, free, { lays with disable_eq := rfl, policy_eq := rfl }⟩
      outbound := ⟨first', filled', free', { lays' with disable_eq := rfl, policy_eq := rfl }⟩
      reading := .idle rfl rfl
      writing := .idle rfl rfl }

end

/-! ### A small channel -/

/-- Two blocks of two bytes. -/
def twoByTwo : Limits where
  maxEventsize := 4
  maxBlocksize := 32
  maxBufSpace := 64
  maxNumBufs := 4
  defaultBlocksize := 2
  defaultNumBufs := 2
  eventsize_pos := by decide
  blocksize_pos := by decide
  two := by decide

/-- Memory that does not run out. -/
def zeroed : Kmalloc where
  alloc size := some (List.replicate size 0)
  length_eq := by
    intro size memory given
    rw [← Option.some.inj given, List.length_replicate]

/-- The low byte of a sample is its code. -/
def lowByte : Law := ⟨fun byte => [byte, 0], fun low _ => low⟩

/-- A channel before it is opened. -/
def unopened : Channel where
  events := ⟨fun _ => .none, 0, 0⟩
  buffers := ⟨0, 0, false, ⟨fun _ => ⟨[], 0, 0⟩, -1, -1, false, .immediate⟩,
    ⟨fun _ => ⟨[], 0, 0⟩, -1, -1, false, .immediate⟩⟩
  reading := .idle
  writing := .idle

end Baps.Zaptel
