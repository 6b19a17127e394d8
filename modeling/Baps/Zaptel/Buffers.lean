/-
**The blocks of a channel.**

Between the interrupt and the process that has a channel open lie `numbufs` blocks in each direction.
The interrupt fills the read blocks (`__putbuf_chunk`) and empties the write blocks (`__zt_getbuf_chunk`);
the process does the opposite (`zt_chan_read`, `zt_chan_write`). A call of the process holds the
channel's lock at its beginning and at its end only; the bytes are copied in between without it.

This module has the two directions as one type, `Side`, and what the code does to them. Modelled is a
channel that carries samples: none of the flags for HDLC, for a network device or for PPP is set.

Not part of the repository are the constants of `zaptel.h` and the kernel's `kmalloc`, `copy_to_user` and
`copy_from_user`. The first two are arguments; a copy is made in pieces, between which interrupts fall.
-/

import Baps.Memory.Buffer
import Baps.Zaptel.Events

namespace Baps.Zaptel

open Baps.Memory

/-- `ZT_POLICY_IMMEDIATE` and `ZT_POLICY_WHEN_FULL`. -/
inductive Policy
  | immediate
  | whenFull
  deriving DecidableEq, Repr

/-- One block: `readbuf`, `readn` and `readidx` at one index, or the same of `write`. -/
structure Block where
  buf : List UInt8
  n : Nat
  idx : Nat

/-- The blocks of one direction: `inreadbuf`, `outreadbuf`, `rxdisable` and `rxbufpolicy` with the read
blocks, or `inwritebuf`, `outwritebuf`, `txdisable` and `txbufpolicy` with the write blocks. -/
structure Side where
  block : Nat → Block
  inbuf : Int
  outbuf : Int
  disable : Bool
  bufpolicy : Policy

/-- The blocks of a channel. `linear` is `ZT_FLAG_LINEAR`: the process counts two bytes a sample. -/
structure Buffers where
  numbufs : Nat
  blocksize : Nat
  linear : Bool
  read : Side
  write : Side

namespace Side

/-- Its two cursors. -/
def cursors (side : Side) : Cursors := ⟨side.inbuf, side.outbuf⟩

/-- Block `x` is replaced. -/
def put (side : Side) (x : Nat) (block : Block) : Side :=
  { side with block := Function.update side.block x block }

/-- Block `res` is full: `inbuf` moves on, and the other end is told. -/
def fill (numbufs : Nat) (side : Side) (res : Nat) : Side :=
  let moved := ((res : Int) + 1) % (numbufs : Int)
  { side with
    inbuf := if moved = side.outbuf then -1 else moved
    disable := if moved = side.outbuf then false else side.disable
    outbuf := if side.outbuf < 0 then res else side.outbuf }

/-- Block `res` has been used up: it is empty again, `outbuf` moves on, and the other end is told. -/
def drain (numbufs : Nat) (side : Side) (res : Nat) : Side :=
  let moved := ((res : Int) + 1) % (numbufs : Int)
  { side with
    block := Function.update side.block res { side.block res with idx := 0, n := 0 }
    outbuf := if moved = side.inbuf then -1 else moved
    disable := if moved = side.inbuf ∧ side.bufpolicy = .whenFull then true else side.disable
    inbuf := if side.inbuf < 0 then res else side.inbuf }

/-- All blocks are marked empty, and the first is the one to fill. -/
def clear (numbufs : Nat) (side : Side) : Side :=
  { side with
    block := fun x => if x < numbufs then { side.block x with n := 0, idx := 0 } else side.block x
    inbuf := 0
    outbuf := -1 }

/-- The blocks in new memory, of `blocksize` bytes each. -/
def renew (numbufs blocksize : Nat) (memory : Nat → List UInt8) (side : Side) : Side :=
  { side with
    block := fun x => if x < numbufs then ⟨memory x, 0, 0⟩ else side.block x
    inbuf := if blocksize = 0 then -1 else 0
    outbuf := -1
    disable := side.bufpolicy = .whenFull }

theorem clear_block (side : Side) {numbufs x : Nat} (inside : x < numbufs) :
    (side.clear numbufs).block x = { side.block x with n := 0, idx := 0 } := if_pos inside

theorem renew_block (side : Side) {numbufs x : Nat} (blocksize : Nat) (memory : Nat → List UInt8)
    (inside : x < numbufs) : (side.renew numbufs blocksize memory).block x = ⟨memory x, 0, 0⟩ :=
  if_pos inside

end Side

/-! ### The interrupt -/

/-- As many of the bytes as go into the block being filled. Returned are the others. -/
def putOnce (numbufs blocksize : Nat) (side : Side) (bytes : List UInt8) :
    Option (Side × List UInt8) := do
  let x := side.inbuf.toNat
  let left := min (blocksize - (side.block x).idx) bytes.length
  let buf ← blit (side.block x).buf (side.block x).idx (bytes.take left)
  let idx := (side.block x).idx + left
  -- the end of a frame is decided by the block size
  let eof := blocksize ≤ idx
  let n := if eof then idx else (side.block x).n
  let stored := side.put x ⟨buf, n, idx⟩
  return (if eof then stored.fill numbufs x else stored, bytes.drop left)

/-- `while (bytes)` of `__putbuf_chunk`. -/
def putLoop (numbufs blocksize : Nat) : Nat → Side → List UInt8 → Option Side
  | _, side, [] => some side
  | 0, _, _ :: _ => none
  | fuel + 1, side, byte :: more =>
    if side.inbuf > -1 then do
      let (next, rest) ← putOnce numbufs blocksize side (byte :: more)
      putLoop numbufs blocksize fuel next rest
    else
      -- no place to receive: drop on the floor
      some side

/-- `__putbuf_chunk`. -/
def putbufChunk (buffers : Buffers) (rxb : List UInt8) : Option Buffers := do
  let read ← putLoop buffers.numbufs buffers.blocksize rxb.length buffers.read rxb
  return { buffers with read }

/-- As many bytes as the oldest block still has. Returned are these, and how many are lacking. -/
def getOnce (numbufs : Nat) (side : Side) (bytes : Nat) : Option (List UInt8 × Nat × Side) := do
  let x := side.outbuf.toNat
  let left := min ((side.block x).n - (side.block x).idx) bytes
  let txb ← slice (side.block x).buf (side.block x).idx left
  let idx := (side.block x).idx + left
  let sent := side.put x { side.block x with idx := idx }
  return (txb, bytes - left, if (side.block x).n ≤ idx then sent.drain numbufs x else sent)

/-- `while (bytes)` of `__zt_getbuf_chunk`, as long as there is a block to send. Returned are the bytes
taken from blocks and how many the chunk still lacks. -/
def getLoop (numbufs : Nat) : Nat → Side → Nat → Option (List UInt8 × Nat × Side)
  | _, side, 0 => some ([], 0, side)
  | 0, _, _ + 1 => none
  | fuel + 1, side, bytes + 1 =>
    if side.outbuf > -1 ∧ side.disable = false then do
      let (txb, lacking, next) ← getOnce numbufs side (bytes + 1)
      let (more, rest, last) ← getLoop numbufs fuel next lacking
      return (txb ++ more, rest, last)
    else some ([], bytes + 1, side)

/-- `__zt_getbuf_chunk`. What the chunk lacks in the end is made up of a tone, of the looped chunk or of
silence; none of these touches a block. -/
def getbufChunk (buffers : Buffers) (bytes : Nat) : Option (List UInt8 × Nat × Buffers) := do
  let (txb, lacking, write) ← getLoop buffers.numbufs (bytes + buffers.numbufs) buffers.write bytes
  return (txb, lacking, { buffers with write })

/-! ### The calls -/

/-- The locked beginning of `zt_chan_read`: the block and the number of bytes to return. A call that may
sleep does so instead of returning `EAGAIN`, and begins again. -/
def readBegin (events : EventQueue) (buffers : Buffers) (count : Nat) : Except Errno (Nat × Nat) :=
  let count := count % 65536
  if count < 1 then .error .EINVAL
  else if events.pending then .error .ELAST
  else
    let res := if buffers.read.disable then -1 else buffers.read.outbuf
    if res < 0 then .error .EAGAIN
    else
      let n := (buffers.read.block res.toNat).n
      .ok (res.toNat, if buffers.linear then min count (n * 2) else min count n)

/-- The bytes of a block that a call copies, when it returns `amnt`. -/
def Buffers.share (buffers : Buffers) (amnt : Nat) : Nat := if buffers.linear then amnt / 2 else amnt

/-- The locked end of `zt_chan_read`. -/
def readEnd (buffers : Buffers) (res : Nat) : Buffers :=
  { buffers with read := buffers.read.drain buffers.numbufs res }

/-- The locked beginning of `zt_chan_write`. -/
def writeBegin (events : EventQueue) (buffers : Buffers) (count : Nat) : Except Errno (Nat × Nat) :=
  let count := count % 65536
  if count < 1 then .error .EINVAL
  else if events.pending then .error .ELAST
  else
    let res := buffers.write.inbuf
    if res < 0 then .error .EAGAIN
    else
      .ok (res.toNat,
        if buffers.linear then min count (buffers.blocksize * 2) else min count buffers.blocksize)

/-- A piece of the bytes to send is stored in block `res`, from `pos` on. -/
def writeCopy (buffers : Buffers) (res pos : Nat) (piece : List UInt8) : Option Buffers := do
  let buf ← blit (buffers.write.block res).buf pos piece
  return { buffers with write := buffers.write.put res { buffers.write.block res with buf := buf } }

/-- The end of `zt_chan_write`. -/
def writeEnd (buffers : Buffers) (res amnt : Nat) : Buffers :=
  let block := { buffers.write.block res with n := buffers.share amnt, idx := 0 }
  { buffers with write := (buffers.write.put res block).fill buffers.numbufs res }

/-! ### Resets -/

/-- What `kmalloc` answers: as many bytes as were asked for, with anything in them, or `NULL`. -/
structure Kmalloc where
  alloc : Nat → Option (List UInt8)
  length_eq : ∀ size memory, alloc size = some memory → memory.length = size

/-- The sizes of `zaptel.h`. There is room for an event and for two blocks, and blocks are not empty. -/
structure Limits where
  maxEventsize : Nat
  maxBlocksize : Nat
  maxBufSpace : Nat
  maxNumBufs : Nat
  defaultBlocksize : Nat
  defaultNumBufs : Nat
  eventsize_pos : 0 < maxEventsize
  blocksize_pos : 0 < defaultBlocksize
  two : 2 ≤ maxNumBufs

/-- The number of blocks that a channel gets. -/
def Limits.clamp (limits : Limits) (numbufs : Int) : Nat :=
  let numbufs := if numbufs < 2 then 2 else numbufs
  if numbufs > limits.maxNumBufs then limits.maxNumBufs else numbufs.toNat

/-- `zt_reallocbufs`: one piece of memory, cut into the read blocks and behind them the write blocks. -/
def reallocbufs (limits : Limits) (kmalloc : Kmalloc) (buffers : Buffers) (j : Nat) (numbufs : Int) :
    Except Errno Buffers :=
  let numbufs := limits.clamp numbufs
  let newbuf := if j = 0 then some [] else kmalloc.alloc (j * 2 * numbufs)
  match newbuf with
  | none => .error .ENOMEM
  | some memory => .ok { buffers with
      numbufs
      blocksize := j
      read := buffers.read.renew numbufs j fun x => (memory.drop (x * j)).take j
      write := buffers.write.renew numbufs j fun x => (memory.drop ((numbufs + x) * j)).take j }

/-- `ZT_SET_BUFINFO`. The product is that of two `int`s. -/
def setBufinfo (limits : Limits) (kmalloc : Kmalloc) (buffers : Buffers)
    (rxbufpolicy txbufpolicy : Policy) (bufsize numbufs : Int) : Except Errno Buffers :=
  if bufsize > limits.maxBlocksize then .error .EINVAL
  else if bufsize < 16 then .error .EINVAL
  else if (bufsize * numbufs).bmod (2 ^ 32) > limits.maxBufSpace then .error .EINVAL
  else
    reallocbufs limits kmalloc
      { buffers with
        read := { buffers.read with bufpolicy := rxbufpolicy }
        write := { buffers.write with bufpolicy := txbufpolicy } }
      bufsize.toNat numbufs

/-- `ZT_FLUSH`, and what `zt_hangup` does to the blocks of an open channel. -/
def flushBlocks (buffers : Buffers) (read write : Bool) : Buffers :=
  { buffers with
    read := if read then buffers.read.clear buffers.numbufs else buffers.read
    write := if write then buffers.write.clear buffers.numbufs else buffers.write }

end Baps.Zaptel
