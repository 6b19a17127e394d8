/-
**A channel between the interrupt and the process that has it open.**

`Channel` is what the interrupt and the process share: the events and the blocks. One step is what happens
under the channel's lock, or a piece of the copying that a call does without it: steps of the interrupt
fall between the pieces of a read and of a write, in any order. Its process reads and writes; a read
and a write may be under way at the same time, two reads may not.

`View` is what all this is for. Seen by the process, a channel is three queues: of events, of blocks to
read and of blocks to send; a read returns the oldest block when it ends, a write adds one when it ends.

`Channel.run` and `View.run` say what a channel answers to a sequence of steps.
-/

import Baps.Zaptel.ReadBlocks
import Baps.Zaptel.WriteBlocks

namespace Baps.Zaptel

open Baps.Memory

/-- `ZT_XLAW` and `ZT_LIN2X` of a channel, with the two bytes that a linear sample has. -/
structure Law where
  expand : UInt8 → List UInt8
  compress : UInt8 → UInt8 → UInt8

/-- Two bytes a sample. -/
def Law.compressAll (law : Law) : List UInt8 → List UInt8
  | low :: high :: more => law.compress low high :: law.compressAll more
  | _ => []

/-- What a write of `amnt` bytes stores in its block. -/
def Law.stored (law : Law) (linear : Bool) (usrbuf : List UInt8) (amnt : Nat) : List UInt8 :=
  if linear then law.compressAll (usrbuf.take amnt) else usrbuf.take amnt

/-- What a read gives of the bytes that it copies. -/
def Law.delivered (law : Law) (linear : Bool) (copied : List UInt8) : List UInt8 :=
  if linear then copied.flatMap law.expand else copied

/-! ### The channel -/

/-- How far a read is. It has copied the beginning of block `res`. -/
inductive Reading
  | idle
  | copying (res amnt : Nat) (copied : List UInt8)

/-- How far a write is. It has stored the first `pos` bytes of `data` in block `res`. -/
inductive Writing
  | idle
  | copying (res amnt pos : Nat) (data : List UInt8)

structure Channel where
  events : EventQueue
  buffers : Buffers
  reading : Reading
  writing : Writing

/-- What may happen next. -/
inductive Act
  | receive (rxb : List UInt8)
  | transmit (bytes : Nat)
  | qevent (event : Event)
  | getevent
  | readBegin (count : Nat)
  | readCopy (bytes : Nat)
  | readEnd
  | readFault
  | writeBegin (usrbuf : List UInt8)
  | writeCopy (bytes : Nat)
  | writeEnd
  | writeFault
  | iomuxWriteempty
  | flush (read write event : Bool)
  | setBufinfo (kmalloc : Kmalloc) (rxbufpolicy txbufpolicy : Policy) (bufsize numbufs : Int)
  | setlinear (on : Bool)

/-- What the process or the line gets. -/
inductive Out
  | silent
  | sent (txb : List UInt8) (lacking : Nat)
  | event (event : Event)
  | failed (errno : Errno)
  | read (amnt : Nat) (bytes : List UInt8)
  | wrote (amnt : Nat) (data : List UInt8)

namespace Channel

/-- `initialize_channel`, which has the channel opened. -/
def opened (limits : Limits) (kmalloc : Kmalloc) (chan : Channel) : Except Errno Channel := do
  let buffers ← reallocbufs limits kmalloc chan.buffers limits.defaultBlocksize limits.defaultNumBufs
  return {
    events := chan.events.flush
    buffers := { buffers with
      linear := false
      read := { buffers.read with bufpolicy := .immediate, disable := false }
      write := { buffers.write with bufpolicy := .immediate, disable := false } }
    reading := .idle
    writing := .idle }

/-- A read begins. -/
def beginRead (chan : Channel) (count : Nat) : Channel × Out :=
  match chan.reading with
  | .copying .. => (chan, .silent)
  | .idle =>
    match readBegin chan.events chan.buffers count with
    | .error errno => (chan, .failed errno)
    | .ok (res, amnt) => ({ chan with reading := .copying res amnt [] }, .silent)

/-- A read copies some more bytes of its block. -/
def copyRead (chan : Channel) (bytes : Nat) : Option (Channel × Out) :=
  match chan.reading with
  | .idle => some (chan, .silent)
  | .copying res amnt copied => do
    let more ← slice (chan.buffers.read.block res).buf copied.length
      (min bytes (chan.buffers.share amnt - copied.length))
    return ({ chan with reading := .copying res amnt (copied ++ more) }, .silent)

/-- A read ends, once it has copied what it returns. -/
def endRead (law : Law) (chan : Channel) : Channel × Out :=
  match chan.reading with
  | .idle => (chan, .silent)
  | .copying res amnt copied =>
    if copied.length = chan.buffers.share amnt then
      ({ chan with buffers := Zaptel.readEnd chan.buffers res, reading := .idle },
        .read amnt (law.delivered chan.buffers.linear copied))
    else (chan, .silent)

/-- `copy_to_user` fails. -/
def faultRead (chan : Channel) : Channel × Out :=
  match chan.reading with
  | .idle => (chan, .silent)
  | .copying .. => ({ chan with reading := .idle }, .failed .EFAULT)

/-- A write begins. -/
def beginWrite (law : Law) (chan : Channel) (usrbuf : List UInt8) : Channel × Out :=
  match chan.writing with
  | .copying .. => (chan, .silent)
  | .idle =>
    match writeBegin chan.events chan.buffers usrbuf.length with
    | .error errno => (chan, .failed errno)
    | .ok (res, amnt) =>
      if amnt = 0 then (chan, .wrote 0 [])
      else
        ({ chan with
          writing := .copying res amnt 0 (law.stored chan.buffers.linear usrbuf amnt) }, .silent)

/-- A write stores some more bytes in its block. -/
def copyWrite (chan : Channel) (bytes : Nat) : Option (Channel × Out) :=
  match chan.writing with
  | .idle => some (chan, .silent)
  | .copying res amnt pos data => do
    let piece := (data.drop pos).take bytes
    let buffers ← writeCopy chan.buffers res pos piece
    return ({ chan with buffers, writing := .copying res amnt (pos + piece.length) data }, .silent)

/-- A write ends, once it has stored everything. -/
def endWrite (chan : Channel) : Channel × Out :=
  match chan.writing with
  | .idle => (chan, .silent)
  | .copying res amnt pos data =>
    if pos = data.length then
      ({ chan with buffers := Zaptel.writeEnd chan.buffers res amnt, writing := .idle },
        .wrote amnt data)
    else (chan, .silent)

/-- `copy_from_user` fails. -/
def faultWrite (chan : Channel) : Channel × Out :=
  match chan.writing with
  | .idle => (chan, .silent)
  | .copying .. => ({ chan with writing := .idle }, .failed .EFAULT)

/-- One step. -/
def step (limits : Limits) (law : Law) (chan : Channel) : Act → Option (Channel × Out)
  | .receive rxb => do
    let buffers ← putbufChunk chan.buffers rxb
    return ({ chan with buffers }, .silent)
  | .transmit bytes => do
    let (txb, lacking, buffers) ← getbufChunk chan.buffers bytes
    return ({ chan with buffers }, .sent txb lacking)
  | .qevent event =>
    some ({ chan with events := chan.events.qevent limits.maxEventsize event }, .silent)
  | .getevent =>
    let (event, events) := chan.events.getevent limits.maxEventsize
    some ({ chan with events }, .event event)
  | .readBegin count => some (chan.beginRead count)
  | .readCopy bytes => chan.copyRead bytes
  | .readEnd => some (chan.endRead law)
  | .readFault => some chan.faultRead
  | .writeBegin usrbuf => some (chan.beginWrite law usrbuf)
  | .writeCopy bytes => chan.copyWrite bytes
  | .writeEnd => some chan.endWrite
  | .writeFault => some chan.faultWrite
  | .iomuxWriteempty =>
    -- if everything is empty, be sure the transmitter is enabled
    let write := { chan.buffers.write with disable := false }
    some ({ chan with buffers := { chan.buffers with write } }, .silent)
  | .flush read write event =>
    some ({ chan with
      buffers := flushBlocks chan.buffers read write
      events := if event then chan.events.flush else chan.events }, .silent)
  | .setBufinfo kmalloc rxbufpolicy txbufpolicy bufsize numbufs =>
    match Zaptel.setBufinfo limits kmalloc chan.buffers rxbufpolicy txbufpolicy bufsize numbufs with
    | .error errno => some (chan, .failed errno)
    | .ok buffers => some ({ chan with buffers }, .silent)
  | .setlinear on => some ({ chan with buffers := { chan.buffers with linear := on } }, .silent)

/-- A sequence of steps, and all that comes of them. -/
def run (limits : Limits) (law : Law) : Channel → List Act → Option (Channel × List Out)
  | chan, [] => some (chan, [])
  | chan, act :: acts => do
    let (next, out) ← chan.step limits law act
    let (last, outs) ← run limits law next acts
    return (last, out :: outs)

end Channel

/-! ### The three queues -/

/-- A channel as its process sees it. A read has `amnt` bytes to return and has copied some; a write has
`data` to store. -/
structure View where
  events : List Event
  numbufs : Nat
  blocksize : Nat
  linear : Bool
  inbound : Inbound
  outbound : Outbound
  reading : Option (Nat × Nat)
  writing : Option (Nat × Nat × List UInt8)

namespace View

/-- The limit on what a call returns. -/
def most (view : View) : Nat := if view.linear then view.blocksize * 2 else view.blocksize

/-- The bytes of a block that a call of `amnt` bytes copies. -/
def share (view : View) (amnt : Nat) : Nat := if view.linear then amnt / 2 else amnt

/-- Why a call does not begin. -/
def refuses (view : View) (count : Nat) (ready : Bool) : Option Errno :=
  if count % 65536 < 1 then some .EINVAL
  else if view.events ≠ [] then some .ELAST
  else if ready then none
  else some .EAGAIN

/-- A read begins, when a block waits and reading is enabled. -/
def beginRead (view : View) (count : Nat) : View × Out :=
  match view.reading with
  | some _ => (view, .silent)
  | none =>
    match view.refuses count (view.inbound.enabled && !view.inbound.waiting.isEmpty) with
    | some errno => (view, .failed errno)
    | none => ({ view with reading := some (min (count % 65536) view.most, 0) }, .silent)

/-- A read goes on. -/
def copyRead (view : View) (bytes : Nat) : View × Out :=
  match view.reading with
  | none => (view, .silent)
  | some (amnt, copied) =>
    ({ view with reading := some (amnt, copied + min bytes (view.share amnt - copied)) }, .silent)

/-- A read ends. It returns the beginning of the oldest block, and the block is gone. -/
def endRead (law : Law) (view : View) : View × Out :=
  match view.reading with
  | none => (view, .silent)
  | some (amnt, copied) =>
    if copied = view.share amnt then
      ({ view with inbound := view.inbound.finish, reading := none },
        .read amnt (law.delivered view.linear ((view.inbound.waiting.headD []).take (view.share amnt))))
    else (view, .silent)

/-- A read fails. -/
def faultRead (view : View) : View × Out :=
  match view.reading with
  | none => (view, .silent)
  | some _ => ({ view with reading := none }, .failed .EFAULT)

/-- A write begins, when there is room for a block. -/
def beginWrite (law : Law) (view : View) (usrbuf : List UInt8) : View × Out :=
  match view.writing with
  | some _ => (view, .silent)
  | none =>
    match view.refuses usrbuf.length (decide (view.outbound.waiting.length < view.numbufs)) with
    | some errno => (view, .failed errno)
    | none =>
      let amnt := min (usrbuf.length % 65536) view.most
      ({ view with writing := some (amnt, 0, law.stored view.linear usrbuf amnt) }, .silent)

/-- A write goes on. -/
def copyWrite (view : View) (bytes : Nat) : View × Out :=
  match view.writing with
  | none => (view, .silent)
  | some (amnt, pos, data) =>
    ({ view with writing := some (amnt, pos + min bytes (data.length - pos), data) }, .silent)

/-- A write ends. Its block is the last one to be sent. -/
def endWrite (view : View) : View × Out :=
  match view.writing with
  | none => (view, .silent)
  | some (amnt, pos, data) =>
    if pos = data.length then
      ({ view with outbound := view.outbound.submit view.numbufs data, writing := none },
        .wrote amnt data)
    else (view, .silent)

/-- A write fails. -/
def faultWrite (view : View) : View × Out :=
  match view.writing with
  | none => (view, .silent)
  | some _ => ({ view with writing := none }, .failed .EFAULT)

/-- The blocks are replaced by empty ones, if the numbers are in range and there is memory. -/
def setBufinfo (limits : Limits) (view : View) (kmalloc : Kmalloc) (rxbufpolicy txbufpolicy : Policy)
    (bufsize numbufs : Int) : View × Out :=
  if bufsize > limits.maxBlocksize ∨ bufsize < 16 ∨
      (bufsize * numbufs).bmod (2 ^ 32) > limits.maxBufSpace then (view, .failed .EINVAL)
  else if kmalloc.alloc (bufsize.toNat * 2 * limits.clamp numbufs) = none then (view, .failed .ENOMEM)
  else
    ({ view with
      numbufs := limits.clamp numbufs
      blocksize := bufsize.toNat
      inbound := ⟨[], [], rxbufpolicy = .immediate, rxbufpolicy⟩
      outbound := ⟨[], txbufpolicy = .immediate, txbufpolicy⟩ }, .silent)

/-- One step. -/
def step (limits : Limits) (law : Law) (view : View) : Act → View × Out
  | .receive rxb =>
    ({ view with inbound := rxb.foldl (Inbound.accept view.numbufs view.blocksize) view.inbound },
      .silent)
  | .transmit bytes =>
    let (txb, lacking, outbound) := view.outbound.transmit bytes
    ({ view with outbound }, .sent txb lacking)
  | .qevent event =>
    let room := view.events.length + 1 < limits.maxEventsize
    ({ view with events := if room then view.events ++ [event] else view.events }, .silent)
  | .getevent => ({ view with events := view.events.tail }, .event (view.events.headD .none))
  | .readBegin count => view.beginRead count
  | .readCopy bytes => view.copyRead bytes
  | .readEnd => view.endRead law
  | .readFault => view.faultRead
  | .writeBegin usrbuf => view.beginWrite law usrbuf
  | .writeCopy bytes => view.copyWrite bytes
  | .writeEnd => view.endWrite
  | .writeFault => view.faultWrite
  | .iomuxWriteempty => ({ view with outbound := { view.outbound with enabled := true } }, .silent)
  | .flush read write event =>
    ({ view with
      inbound := if read then view.inbound.reset else view.inbound
      outbound := if write then view.outbound.reset else view.outbound
      events := if event then [] else view.events }, .silent)
  | .setBufinfo kmalloc rxbufpolicy txbufpolicy bufsize numbufs =>
    view.setBufinfo limits kmalloc rxbufpolicy txbufpolicy bufsize numbufs
  | .setlinear on => ({ view with linear := on }, .silent)

/-- A sequence of steps, and all that comes of them. -/
def run (limits : Limits) (law : Law) : View → List Act → View × List Out
  | view, [] => (view, [])
  | view, act :: acts =>
    let (next, out) := view.step limits law act
    let (last, outs) := run limits law next acts
    (last, out :: outs)

theorem run_cons (limits : Limits) (law : Law) (view : View) (act : Act) (acts : List Act) :
    view.run limits law (act :: acts)
      = (((view.step limits law act).1.run limits law acts).1,
          (view.step limits law act).2 :: ((view.step limits law act).1.run limits law acts).2) := rfl

/-- A channel that has just been opened. -/
def opened (limits : Limits) : View where
  events := []
  numbufs := limits.clamp limits.defaultNumBufs
  blocksize := limits.defaultBlocksize
  linear := false
  inbound := ⟨[], [], true, .immediate⟩
  outbound := ⟨[], true, .immediate⟩
  reading := none
  writing := none

/-- The same, once its process has chosen the unit of its calls. -/
def openedAs (limits : Limits) (linear : Bool) : View := { opened limits with linear := linear }

/-- The blocks of a direction are neither flushed nor replaced while a call is under way there, and the
unit of the calls does not change. -/
def Allows (view : View) : Act → Prop
  | .flush read write _ => (read = true → view.reading = none) ∧ (write = true → view.writing = none)
  | .setBufinfo .. | .setlinear .. => view.reading = none ∧ view.writing = none
  | _ => True

/-- The steps are allowed where they are made. -/
def Orderly (limits : Limits) (law : Law) : View → List Act → Prop
  | _, [] => True
  | view, act :: acts => view.Allows act ∧ Orderly limits law (view.step limits law act).1 acts

end View

end Baps.Zaptel
