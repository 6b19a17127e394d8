/-
**Mixing.**

With every tick of the master span, the channels that are in a conference speak, and hear what the others say.
Channels of a span speak first, to the sums of the next tick, which then become those of this one; pseudo
channels, which a process holds, add to them at once. What a channel hears is the sum less what it has added
itself.

* `Desk.putaudio` — `__zt_process_putaudio_chunk`, what comes in from a channel;
* `Desk.getaudio` — `__zt_process_getaudio_chunk`, what goes out to it;
* `Desk.tick` — the part of `zt_receive` that the master span runs.

Echo cancellation and its training, SF tones and slaves of another channel are not modelled. What a process has
written, tones and dialling included, is an argument, and so is what a span has received.
-/

import Baps.Signal.Saturation
import Baps.Zaptel.Conferences

namespace Baps.Zaptel

open Baps.Signal (Rails)

/-! ### Sound -/

/-- A chunk of linear samples. -/
abbrev Chunk (n : Nat) := Fin n → Int

/-- A chunk of bytes. -/
abbrev Bytes (n : Nat) := Fin n → Nat

/-- `ACSS` and `SCSS` add and subtract samples, within the limits of a sample. -/
structure Arith where
  rails : Rails Int
  add : Int → Int → Int
  sub : Int → Int → Int
  add_eq : ∀ a b, add a b = rails.clip (a + b)
  sub_eq : ∀ a b, sub a b = rails.clip (a - b)

/-- `ZT_XLAW` and `ZT_LIN2X` of a channel. -/
structure Xlaw where
  xlaw : Nat → Int
  lin2x : Int → Nat

section

variable {n : Nat}

/-- `ACSS`. -/
def Arith.acss (arith : Arith) (dst src : Chunk n) : Chunk n := fun x => arith.add (dst x) (src x)

/-- `SCSS`. -/
def Arith.scss (arith : Arith) (dst src : Chunk n) : Chunk n := fun x => arith.sub (dst x) (src x)

/-- The samples of bytes. -/
def Xlaw.toLin (law : Xlaw) (buf : Bytes n) : Chunk n := fun x => law.xlaw (buf x)

/-- The bytes of samples. -/
def Xlaw.toX (law : Xlaw) (lin : Chunk n) : Bytes n := fun x => law.lin2x (lin x)

/-- A row after somebody has talked on it, and `conflast`, the amount actually added. -/
def Arith.talk (arith : Arith) (lin row : Chunk n) : Chunk n × Chunk n :=
  let k := arith.acss lin row
  let conflast := arith.scss k row
  (arith.acss row conflast, conflast)

/-- The last value written is subtracted, and the conference is added. -/
def Arith.hear (arith : Arith) (lin conflast row : Chunk n) : Chunk n := arith.acss (arith.scss lin conflast) row

end

/-! ### Channels -/

/-- A channel, as far as its sound goes. `pseudo` is `ZT_FLAG_PSEUDO`, and `ec` says that there is an echo
canceller. -/
structure Voice (n : Nat) where
  pseudo : Bool
  confmute : Bool
  dialing : Bool
  afterdialingtimer : Nat
  ec : Bool
  law : Xlaw
  rxgain : Nat → Nat
  txgain : Nat → Nat
  conflast : Chunk n
  conflast1 : Chunk n
  conflast2 : Chunk n
  getlin : Chunk n
  putlin : Chunk n
  getraw : Bytes n
  putraw : Bytes n
  readchunkpreec : Option (Chunk n)

/-- All channels, `conf_sums_prev`, `conf_sums`, `conf_sums_next`, and the last chunks that were handed to a
process and to a line. -/
structure Desk (n : Nat) where
  voices : Nat → Voice n
  prev : Nat → Chunk n
  sums : Nat → Chunk n
  next : Nat → Chunk n
  toReader : Nat → Bytes n
  toLine : Nat → Bytes n

/-- What a channel is to send, and whether it is still dialling when that is known. -/
structure Written (n : Nat) where
  bytes : Bytes n
  dialing : Bool

/-- What comes in with a tick: what lines have received, what processes have written, and what pseudo channels
receive, silence or a tone. -/
structure Sounds (n : Nat) where
  received : Nat → Option (Bytes n)
  written : Nat → Written n
  empty : Nat → Bytes n

section

variable {n : Nat}

/-- A chunk of silence. -/
def Voice.silence (ms : Voice n) : Bytes n := fun _ => ms.law.lin2x 0

/-- A channel that dials is not listened to for some time. -/
def Voice.dialed (ms : Voice n) : Voice n :=
  { ms with afterdialingtimer := if ms.dialing then 50 else ms.afterdialingtimer - 1 }

/-- What is received, as silence if dialing. -/
def Voice.gained (ms : Voice n) (rxb : Bytes n) : Bytes n :=
  fun y => ms.rxgain ((if ms.afterdialingtimer ≠ 0 ∧ ¬ ms.pseudo then ms.silence else rxb) y)

/-- What is received is kept for those that listen, unless by a pseudo channel. -/
def Voice.keep (ms : Voice n) (putlin : Chunk n) (putraw : Bytes n) : Voice n :=
  if ms.pseudo then ms else { ms with putlin, putraw }

/-- What a channel that listens to another one is to send with it. -/
def Voice.sentWith (other : Voice n) : ConfMode → Option (List (Chunk n))
  | .monitor => some [if other.pseudo then other.getlin else other.putlin]
  | .monitortx => some [if other.pseudo then other.putlin else other.getlin]
  | .monitorboth => some [other.putlin, other.getlin]
  | .monitorRxPreecho => other.readchunkpreec.map fun preec => [if other.pseudo then preec else other.putlin]
  | .monitorTxPreecho => other.readchunkpreec.map fun preec => [if other.pseudo then other.putlin else preec]
  | .monitorbothPreecho => other.readchunkpreec.map fun preec => [other.putlin, preec]
  | _ => none

/-- What the process of a pseudo channel that listens to another one hears with it. -/
def Voice.heardWith (other : Voice n) : ConfMode → Option (List (Chunk n))
  | .monitor => some [if other.pseudo then other.getlin else other.putlin]
  | .monitortx => some [if other.pseudo then other.putlin else other.getlin]
  | .monitorboth => some [other.getlin, other.putlin]
  | .monitorRxPreecho => other.readchunkpreec.map fun preec => [if other.pseudo then other.getlin else preec]
  | .monitorTxPreecho => other.readchunkpreec.map fun preec => [if other.pseudo then preec else other.getlin]
  | .monitorbothPreecho => other.readchunkpreec.map fun preec => [other.getlin, preec]
  | _ => none

/-- A monitored channel is added. -/
def Arith.monitor (arith : Arith) (law : Xlaw) (lin : Chunk n) (buf : Bytes n) :
    Option (List (Chunk n)) → Chunk n × Bytes n
  | none => (lin, buf)
  | some with_ =>
    let lin := with_.foldl arith.acss lin
    (lin, law.toX lin)

namespace Desk

/-- A channel is changed. -/
def setVoice (desk : Desk n) (x : Nat) (ms : Voice n) : Desk n :=
  { desk with voices := Function.update desk.voices x ms }

/-- The row of a conference is changed. -/
def setSums (desk : Desk n) (a : Nat) (row : Chunk n) : Desk n :=
  { desk with sums := Function.update desk.sums a row }

/-- So is its row for the next tick. -/
def setNext (desk : Desk n) (a : Nat) (row : Chunk n) : Desk n :=
  { desk with next := Function.update desk.next a row }

/-! ### What goes out -/

/-- The samples and bytes of a channel that may listen. -/
def listen (arith : Arith) (chan : ConfChan) (x : Nat) (getlin : Chunk n) (desk : Desk n) :
    Desk n × Chunk n × Bytes n :=
  let ms := desk.voices x
  let getlin := if chan.confmode.listener then arith.hear getlin ms.conflast (desk.sums chan.confn) else getlin
  (desk, getlin, ms.law.toX getlin)

/-- `ZT_CONF_CONF`. -/
def getConf (arith : Arith) (chan : ConfChan) (x : Nat) (getlin : Chunk n) (desk : Desk n) :
    Desk n × Chunk n × Bytes n :=
  let ms := desk.voices x
  if ms.pseudo then
    let desk :=
      if chan.confmode.talker then
        let (row, conflast) := arith.talk getlin (desk.sums chan.confn)
        (desk.setSums chan.confn row).setVoice x { ms with conflast }
      else desk.setVoice x { ms with conflast := 0 }
    (desk, ms.getlin, ms.silence)
  else desk.listen arith chan x getlin

/-- `ZT_CONF_REALANDPSEUDO`, before it falls through. -/
def getPseudo (arith : Arith) (chan : ConfChan) (x : Nat) (getlin : Chunk n) (desk : Desk n) : Desk n :=
  let ms := desk.voices x
  if chan.confmode.pseudoTalker then
    let (row, conflast1) := arith.talk getlin (desk.next chan.confn)
    (desk.setNext chan.confn row).setVoice x { ms with conflast1, conflast2 := ms.conflast1 }
  else desk.setVoice x { ms with conflast1 := 0, conflast2 := 0 }

/-- The `switch` of `__zt_process_getaudio_chunk`. -/
def getMode (arith : Arith) (confs : Confs) (chan : ConfChan) (x : Nat) (getlin : Chunk n) (txb : Bytes n)
    (desk : Desk n) : Desk n × Chunk n × Bytes n :=
  let ms := desk.voices x
  let other := desk.voices chan.confna
  match chan.confmode.mode with
  | .realandpseudo => (desk.getPseudo arith chan x getlin).getConf arith chan x 0
  | .conf => desk.getConf arith chan x getlin
  | .confmon => desk.listen arith chan x getlin
  | .confann | .confannmon =>
    -- first, add tx buffer to conf
    (desk.setNext chan.confn (arith.acss (desk.next chan.confn) getlin)).listen arith chan x 0
  | .digitalmon =>
    if (confs.chans chan.confna).isNone then (desk, getlin, txb)
    else
      let txb :=
        if ms.ec then ms.law.toX (if other.pseudo then other.getlin else other.putlin)
        else if other.pseudo then other.getraw else other.putraw
      (desk, ms.law.toLin txb, txb)
  | mode =>
    if ms.pseudo then (desk, getlin, txb)
    else (desk, arith.monitor ms.law getlin txb (other.sentWith mode))

/-- Conferencing, if the channel is open for it. -/
def getOpen (arith : Arith) (confs : Confs) (chan : ConfChan) (x : Nat) (txb : Bytes n) (desk : Desk n) :
    Desk n × Chunk n × Bytes n :=
  let ms := desk.voices x
  let getlin := ms.law.toLin txb
  if (¬ ms.confmute ∧ ¬ ms.dialing) ∨ ms.pseudo then desk.getMode arith confs chan x getlin txb
  else (desk, getlin, txb)

/-- `__zt_process_getaudio_chunk`. -/
def getaudio (arith : Arith) (confs : Confs) (chan : ConfChan) (x : Nat) (txb : Bytes n) (desk : Desk n) :
    Desk n × Bytes n :=
  let (desk, getlin, txb) := desk.getOpen arith confs chan x txb
  let ms := desk.voices x
  let txb := if ms.confmute then ms.silence else txb
  (desk.setVoice x { ms with getlin, getraw := txb }, fun y => ms.txgain (txb y))

/-! ### What comes in -/

/-- A talker's samples go to the next sums. -/
def say (arith : Arith) (chan : ConfChan) (x : Nat) (putlin : Chunk n) (desk : Desk n) : Desk n :=
  let ms := desk.voices x
  if chan.confmode.talker then
    let (row, conflast) := arith.talk putlin (desk.next chan.confn)
    (desk.setNext chan.confn row).setVoice x { ms with conflast }
  else desk.setVoice x { ms with conflast := 0 }

/-- A talker's samples take the place of its last ones in the sums. -/
def sayAgain (arith : Arith) (chan : ConfChan) (x : Nat) (putlin : Chunk n) (desk : Desk n) : Desk n :=
  let ms := desk.voices x
  if chan.confmode.talker then
    let row := arith.scss (desk.sums chan.confn) ms.conflast
    let (row, conflast) := arith.talk putlin row
    (desk.setSums chan.confn row).setVoice x { ms with conflast }
  else desk.setVoice x { ms with conflast := 0 }

/-- The `switch` of `__zt_process_putaudio_chunk`. -/
def putMode (arith : Arith) (chan : ConfChan) (x : Nat) (putlin : Chunk n) (rxb : Bytes n) (desk : Desk n) :
    Desk n × Bytes n :=
  let ms := desk.voices x
  let other := desk.voices chan.confna
  match chan.confmode.mode with
  | .realandpseudo =>
    let heard := if chan.confmode.pseudoListener then arith.hear 0 ms.conflast2 (desk.sums chan.confn) else 0
    (desk.say arith chan x putlin, ms.law.toX heard)
  | .conf =>
    if ms.pseudo then
      let putlin := if chan.confmode.listener then arith.hear putlin ms.conflast (desk.sums chan.confn) else putlin
      (desk.setVoice x { ms with getlin := putlin }, ms.law.toX putlin)
    else (desk.say arith chan x putlin, rxb)
  | .confann => (desk.say arith chan x putlin, rxb)
  | .confmon | .confannmon => (desk.sayAgain arith chan x putlin, ms.law.toX (desk.prev chan.confn))
  | .digitalmon => (desk, if ms.pseudo then (if other.pseudo then other.getraw else other.putraw) else rxb)
  | mode =>
    if ms.pseudo then (desk, (arith.monitor ms.law putlin rxb (other.heardWith mode)).2) else (desk, rxb)

/-- A chunk is taken: with the gain applied, and as samples. -/
def take (x : Nat) (rxb : Bytes n) (desk : Desk n) : Desk n × Chunk n × Bytes n :=
  let ms := (desk.voices x).dialed
  let rxb := ms.gained rxb
  let putlin := ms.law.toLin rxb
  (desk.setVoice x (ms.keep putlin rxb), putlin, rxb)

/-- `__zt_process_putaudio_chunk`. -/
def putaudio (arith : Arith) (chan : ConfChan) (x : Nat) (rxb : Bytes n) (desk : Desk n) : Desk n × Bytes n :=
  let (desk, putlin, rxb) := desk.take x rxb
  let ms := desk.voices x
  if (¬ ms.confmute ∧ ms.afterdialingtimer = 0) ∨ ms.pseudo then desk.putMode arith chan x putlin rxb
  else (desk, rxb)

/-! ### A tick -/

/-- A line of a channel with a `confmode` has received a chunk, or none, which is silence. -/
def receiveReal (arith : Arith) (confs : Confs) (sounds : Sounds n) (desk : Desk n) (x : Nat) : Desk n :=
  match confs.chans x with
  | none => desk
  | some chan =>
    if chan.confmode ≠ .zero ∧ ¬ (desk.voices x).pseudo then
      let buf := (sounds.received x).getD (desk.voices x).silence
      let (desk, buf) := desk.putaudio arith chan x buf
      { desk with toReader := Function.update desk.toReader x buf }
    else desk

/-- `rotate_sums`. -/
def rotateSums (confs : Confs) (desk : Desk n) : Desk n :=
  { desk with
    prev := desk.sums
    sums := desk.next
    next := fun a => if a < confs.maxconfs then 0 else desk.prev a }

/-- `__zt_getbuf_chunk`, which may end a dialling. -/
def getbuf (sounds : Sounds n) (x : Nat) (desk : Desk n) : Desk n :=
  desk.setVoice x { desk.voices x with dialing := (sounds.written x).dialing }

/-- A pseudo channel is given what a process has written. -/
def transmitPseudo (arith : Arith) (confs : Confs) (sounds : Sounds n) (desk : Desk n) (x : Nat) : Desk n :=
  match confs.chans x with
  | none => desk
  | some chan =>
    if (desk.voices x).pseudo then
      let desk := desk.getbuf sounds x
      if chan.audio ∨ chan.confmode ≠ .zero then
        (desk.getaudio arith confs chan x (sounds.written x).bytes).1
      else desk
    else desk

/-- A conference link, from `src` to `dst`. -/
def link (arith : Arith) (confs : Confs) (desk : Desk n) (link : Nat × Nat) : Desk n :=
  let y := confs.confalias link.1
  let z := confs.confalias link.2
  if z > 0 ∧ y > 0 then desk.setSums z (arith.acss (desk.sums z) (desk.sums y)) else desk

/-- A pseudo channel receives silence, or a tone. -/
def receivePseudo (arith : Arith) (confs : Confs) (sounds : Sounds n) (desk : Desk n) (x : Nat) : Desk n :=
  match confs.chans x with
  | none => desk
  | some chan =>
    if (desk.voices x).pseudo then
      let (desk, buf) :=
        if chan.audio ∨ chan.confmode ≠ .zero then desk.putaudio arith chan x (sounds.empty x)
        else (desk, sounds.empty x)
      { desk with toReader := Function.update desk.toReader x buf }
    else desk

/-- The line of a channel with a `confmode` is given a chunk. -/
def transmitReal (arith : Arith) (confs : Confs) (sounds : Sounds n) (desk : Desk n) (x : Nat) : Desk n :=
  match confs.chans x with
  | none => desk
  | some chan =>
    if chan.confmode ≠ .zero ∧ ¬ (desk.voices x).pseudo then
      let desk := desk.getbuf sounds x
      let (desk, buf) := desk.getaudio arith confs chan x (sounds.written x).bytes
      { desk with toLine := Function.update desk.toLine x buf }
    else desk

/-- The channels, `1` to `maxchans - 1`. -/
def channels (confs : Confs) : List Nat := List.range' 1 (confs.maxchans - 1)

/-- The tick of the master span, with the conference links. -/
def tick (arith : Arith) (confs : Confs) (links : List (Nat × Nat)) (sounds : Sounds n) (desk : Desk n) :
    Desk n :=
  let desk := (channels confs).foldl (receiveReal arith confs sounds) desk
  let desk := desk.rotateSums confs
  let desk := (channels confs).foldl (transmitPseudo arith confs sounds) desk
  let desk := links.foldl (link arith confs) desk
  let desk := (channels confs).foldl (receivePseudo arith confs sounds) desk
  (channels confs).foldl (transmitReal arith confs sounds) desk

end Desk

end

end Baps.Zaptel
