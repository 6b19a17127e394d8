/-
**Hook signalling on a channel.**

`Line` is what `zt_chan` keeps for the hook states of both directions, for dialling and for ringing.
It changes

* with each tick of the interrupt: `transmitTick` and `receiveTick` are what `zt_transmit` and
  `zt_receive` do to the timers of one channel that is its own master;
* when the driver reports the other end: `hooksig` is `zt_hooksig`, `rbsbits` is `zt_rbsbits`;
* when the process asks for something: `hook` is `ZT_HOOK`, `dial` is `ZT_DIAL`;
* when a tone that is dialled has been played: `toneEnd`.

What comes of it, events for the process and hook states for the driver, is written to `Line.said`, in
order. A driver that is told a hook state may store something in the channel; no function here reads it
after telling the driver. The span is one with `ZT_FLAG_RBS`; its driver takes hook states (`hooksig`) or
signalling bits (`rbsbits`). Times are numbers without bound.

The constants of `zaptel.h` and the switches of `zconfig.h` are not part of the repository. They are
arguments, as `Config`.
-/

import Baps.Zaptel.Events
import Baps.Wcfxs.World

namespace Baps.Zaptel

open Baps.Wcfxs (TxSig)

/-! ### Data types -/

/-- `chan->sig`: the signallings of `outs`, `ZT_SIG_CAS`, `ZT_SIG_DACS_RBS`, and all others. -/
inductive Sig
  | none
  | em
  | fxsls
  | fxsgs
  | fxsks
  | fxols
  | fxogs
  | fxoks
  | sf
  | emE1
  | cas
  | dacsRbs
  | other
  deriving DecidableEq, Repr

/-- `sig & __ZT_SIG_FXS`. -/
def Sig.isFxs (sig : Sig) : Bool := sig = .fxsls ∨ sig = .fxsgs ∨ sig = .fxsks

/-- `sig & __ZT_SIG_FXO`. -/
def Sig.isFxo (sig : Sig) : Bool := sig = .fxols ∨ sig = .fxogs ∨ sig = .fxoks

/-- `zt_rxsig_t`. -/
inductive RxHook
  | onhook
  | offhook
  | start
  | ring
  | initial
  deriving DecidableEq, Repr

/-- `zt_txstate_t`. -/
inductive TxState
  | onhook
  | offhook
  | start
  | prewink
  | wink
  | preflash
  | flash
  | debounce
  | afterstart
  | ringon
  | ringoff
  | kewl
  | afterkewl
  | pulsebreak
  | pulsemake
  | pulseafter
  deriving DecidableEq, Repr

/-- The bits of robbed-bit signalling: `ZT_ABIT`, `ZT_BBIT`, `ZT_CBIT` and `ZT_DBIT`. -/
structure Bits where
  a : Bool
  b : Bool
  c : Bool
  d : Bool
  deriving DecidableEq, Repr

/-- `DIGIT_MODE_DTMF`, `DIGIT_MODE_MFV1` and `DIGIT_MODE_PULSE`. -/
inductive DigitMode
  | dtmf
  | mfv1
  | pulse
  deriving DecidableEq, Repr

/-- A tone of `zt_dtmf_tone`: one of the zone's for a mode, or `tone_pause`. -/
inductive Tone
  | digit (mode : DigitMode) (index : Nat)
  | pause
  deriving DecidableEq, Repr

/-- How the span's driver is told a hook state. -/
inductive Wire
  | hooksig
  | rbsbits
  deriving DecidableEq, Repr

/-- What a channel says: to its process, or to its driver. `nullCall` is a call through a pointer that is
`NULL`. -/
inductive Signal
  | event (event : Event)
  | hooksig (txsig : TxSig) (txdialbuf : List UInt8)
  | rbsbits (bits : Bits)
  | nullCall
  deriving DecidableEq, Repr

/-- The event that is said. -/
def Signal.toEvent : Signal → Option Event
  | .event heard => some heard
  | .hooksig _ _ | .rbsbits _ | .nullCall => Option.none

/-- The sizes and times of `zaptel.h`, and the switches of `zconfig.h`. -/
structure Config where
  chunksize : Nat
  minPulsetime : Nat
  maxPulsetime : Nat
  pulsetimeout : Nat
  ringDebounceTime : Nat
  ringtrailer : Nat
  kewltime : Nat
  afterkewltime : Nat
  afterstartTime : Nat
  fxsflashMintime : Nat
  fxsflashMaxtime : Nat
  maxCadence : Nat
  maxDtmfBuf : Nat
  ringbegin : Bool
  emflash : Bool
  empulse : Bool
  fxsflash : Bool
  cacGroundstart : Bool
  chunksize_pos : 0 < chunksize

/-- The times that a process may set, in ticks. -/
structure Times where
  prewinktime : Int
  preflashtime : Int
  winktime : Int
  flashtime : Int
  starttime : Int
  rxwinktime : Int
  rxflashtime : Int
  debouncetime : Int
  pulsebreaktime : Int
  pulsemaketime : Int
  pulseaftertime : Int

/-- The signalling of a channel. `clear` is `ZT_FLAG_CLEAR`; `nonblock` says that a process has it open with
`O_NONBLOCK`; `zonecadence` is `curzone->ringcadence`. -/
structure Line where
  sig : Sig
  wire : Wire
  clear : Bool
  sigfreeze : Bool
  nonblock : Bool
  times : Times
  rxhooksig : RxHook
  rxsig : Bits
  txhooksig : TxSig
  txsig : Bits
  idlebits : Bits
  txstate : TxState
  otimer : Int
  itimer : Int
  itimerset : Int
  gotgs : Bool
  kewlonhook : Bool
  ringdebtimer : Int
  ringtrailer : Int
  pulsecount : Nat
  pulsetimer : Int
  pdialcount : Nat
  txdialbuf : List UInt8
  dialing : Bool
  digitmode : DigitMode
  curtone : Option Tone
  cadencepos : Nat
  firstcadencepos : Nat
  ringcadence : Nat → Int
  zonecadence : Nat → Int
  said : List Signal

/-! ### Dial strings -/

/-- `'T'`, `'M'`, `'P'` and `'W'`. -/
def keyT : UInt8 := 0x54
def keyM : UInt8 := 0x4d
def keyP : UInt8 := 0x50
def keyW : UInt8 := 0x57

/-- `'0'` to `'9'`. -/
def isDigit (c : UInt8) : Bool := 0x30 ≤ c ∧ c ≤ 0x39

/-- `zt_dtmf_tone`. -/
def dtmfTone (mode : DigitMode) (digit : UInt8) : Option Tone :=
  if isDigit digit then some (.digit mode (digit - 0x30).toNat)
  else if digit = 0x2a then some (.digit mode 10)
  else if digit = 0x23 then some (.digit mode 11)
  else if 0x41 ≤ digit ∧ digit ≤ 0x43 then some (.digit mode (digit + 12 - 0x41).toNat)
  else if digit = 0x44 then
    if mode = .mfv1 then none else some (.digit mode (digit + 12 - 0x41).toNat)
  else if digit = keyW then some .pause
  else none

/-- `toupper`. -/
def toupper (c : UInt8) : UInt8 := if 0x61 ≤ c ∧ c ≤ 0x7a then c - 0x20 else c

namespace Line

/-! ### Hook states to the driver -/

/-- Something is said. -/
def say (signal : Signal) (line : Line) : Line := { line with said := line.said ++ [signal] }

/-- `__qevent`. -/
def qevent (event : Event) (line : Line) : Line := line.say (.event event)

/-- The events for the process. -/
def events (line : Line) : List Event := line.said.filterMap Signal.toEvent

/-- The table `outs` of `zt_rbs_sethook`. -/
def outs (config : Config) : Sig → TxSig → Option Bits
  | .none, .onhook => some ⟨true, false, true, true⟩
  | .none, _ => some ⟨false, false, false, false⟩
  | .em, .offhook | .em, .start => some ⟨true, true, true, true⟩
  | .em, _ => some ⟨false, false, false, false⟩
  | .fxsls, .onhook | .fxsgs, .onhook | .fxsks, .onhook => some ⟨false, true, false, true⟩
  | .fxsls, .kewl | .fxsgs, .kewl | .fxsks, .kewl => some ⟨false, false, false, false⟩
  | .fxsgs, .start =>
    some (if config.cacGroundstart then ⟨false, false, false, false⟩ else ⟨true, false, true, false⟩)
  | .fxsls, _ | .fxsgs, _ | .fxsks, _ => some ⟨true, true, true, true⟩
  | .fxogs, .onhook => some ⟨true, true, true, true⟩
  | .fxols, .onhook | .fxoks, .onhook => some ⟨false, true, false, true⟩
  | .fxols, .offhook | .fxogs, .offhook | .fxoks, .offhook => some ⟨false, true, false, true⟩
  | .fxoks, .kewl => some ⟨true, true, true, true⟩
  | .fxols, _ | .fxogs, _ | .fxoks, _ => some ⟨false, false, false, false⟩
  | .sf, .offhook | .sf, .start => some ⟨true, true, true, true⟩
  | .sf, _ => some ⟨false, true, true, true⟩
  | .emE1, .offhook | .emE1, .start => some ⟨true, true, false, true⟩
  | .emE1, _ => some ⟨false, false, false, true⟩
  | .cas, _ | .dacsRbs, _ | .other, _ => Option.none

/-- `zt_rbs_sethook`. The tone of `ZT_SIG_SF` is not modelled. -/
def rbsSethook (config : Config) (txsig : TxSig) (txstate : TxState) (timeout : Int) (line : Line) :
    Line :=
  if line.sig = .dacsRbs then line
  else if line.sig = .sf then
    { line with txstate, txhooksig := txsig, otimer := timeout * config.chunksize }
  else
    match line.wire with
    | .hooksig =>
      let told := if line.txhooksig ≠ txsig then
          { line with txhooksig := txsig }.say (.hooksig txsig line.txdialbuf)
        else line
      { told with txstate, otimer := timeout * config.chunksize }
    | .rbsbits =>
      match outs config line.sig txsig with
      | some bits =>
        { line with txhooksig := txsig, txsig := bits, txstate, otimer := timeout * config.chunksize }.say
          (.rbsbits bits)
      | none => { line with txstate }

/-- `span->hooksig(chan, ZT_TXSIG_START)` of `__do_dtmf`. -/
def spanStart (line : Line) : Line :=
  match line.wire with
  | .hooksig => line.say (.hooksig .start line.txdialbuf)
  | .rbsbits => line.say .nullCall

/-- `zt_cas_setbits`. -/
def casSetbits (bits : Bits) (line : Line) : Line :=
  match line.wire with
  | .hooksig => line
  | .rbsbits => { line with txsig := bits }.say (.rbsbits bits)

/-! ### Dialling -/

/-- The loop of `__do_dtmf`, on what is left of the dial string. -/
def dialOn (config : Config) : List UInt8 → Line → Line
  | [], line => { line with txdialbuf := [], dialing := false }.qevent .dialcomplete
  | c :: rest, line =>
    let line : Line := { line with txdialbuf := rest }
    if c = keyT then dialOn config rest { line with digitmode := .dtmf }.spanStart
    else if c = keyM then dialOn config rest { line with digitmode := .mfv1 }
    else if c = keyP then dialOn config rest { line with digitmode := .pulse }.spanStart
    else if c ≠ keyW ∧ line.digitmode = .pulse then
      if isDigit c ∧ line.txhooksig = .offhook then
        { line with pdialcount := if c = 0x30 then 10 else (c - 0x30).toNat }.rbsSethook config
          .onhook .pulsebreak line.times.pulsebreaktime
      else dialOn config rest line
    else
      match dtmfTone line.digitmode c with
      | some tone => { line with curtone := some tone }
      | none => dialOn config rest { line with curtone := none }

/-- `__do_dtmf`. -/
def doDtmf (config : Config) (line : Line) : Line := dialOn config line.txdialbuf line

/-- A tone has been played to its end, in `__zt_getbuf_chunk`. -/
def toneEnd (config : Config) (line : Line) : Line :=
  if line.curtone = none then line
  else
    let line : Line := { line with curtone := none }
    if line.dialing then line.doDtmf config else line

/-- Dialling is stopped, as by `ZT_HOOK`, `ZT_DIAL_OP_CANCEL` and a write. -/
def stopDialing (line : Line) : Line :=
  { line with curtone := none, dialing := false, txdialbuf := [], pdialcount := 0 }

/-- `ZT_DIAL_OP_CANCEL`, `ZT_DIAL_OP_REPLACE` and `ZT_DIAL_OP_APPEND`. -/
inductive DialOp
  | cancel
  | replace
  | append
  deriving DecidableEq, Repr

/-- `ZT_DIAL`. -/
def dial (config : Config) (op : DialOp) (dialstr : List UInt8) (line : Line) : Line × Option Errno :=
  let dialstr := (dialstr.take (config.maxDtmfBuf - 1)).map toupper
  match op with
  | .cancel => (line.stopDialing, none)
  | .replace => ({ line with txdialbuf := dialstr, dialing := true }.doDtmf config, none)
  | .append =>
    if dialstr.length + line.txdialbuf.length ≥ config.maxDtmfBuf - 1 then (line, some .EBUSY)
    else
      let line : Line := { line with txdialbuf := line.txdialbuf ++ dialstr }
      (if line.dialing then line else { line with dialing := true }.doDtmf config, none)

/-! ### Timers -/

/-- `rbs_itimer_expire`. -/
def rbsItimerExpire (config : Config) (line : Line) : Line :=
  match line.sig with
  | .fxols | .fxogs | .fxoks => { line.qevent .onhook with gotgs := false }
  | .em | .emE1 =>
    if (config.emflash ∨ config.empulse) ∧ line.rxhooksig = .onhook then line.qevent .onhook
    else line.qevent .ringoffhook
  | .fxsks =>
    if config.fxsflash ∧ line.rxhooksig = .onhook then line.qevent .onhook
    else line.qevent .ringoffhook
  | _ => line.qevent .ringoffhook

/-- `ZT_EVENT_HOOKCOMPLETE`, to a process that does not wait for it. -/
def hookcomplete (line : Line) : Line := if line.nonblock then line.qevent .hookcomplete else line

/-- The position in the cadence behind another. -/
def nextCadence (config : Config) (first : Nat) (line : Line) : Nat :=
  let pos := line.cadencepos + 1
  let pos := if pos ≥ config.maxCadence then first else pos
  if line.ringcadence pos = 0 then first else pos

/-- The `switch (chan->txstate)` of `__rbs_otimer_expire`: move to the next timer state. -/
def txstateExpire (config : Config) (line : Line) : TxState → Line
  | .ringoff =>
    let pos := line.nextCadence config line.firstcadencepos
    ({ line with cadencepos := pos }.rbsSethook config .start .ringon (line.ringcadence pos)).qevent
      .ringeron
  | .ringon =>
    -- where the cadence ends here, the length is that of the zone
    let next := line.cadencepos + 1
    let ends := line.ringcadence (if next ≥ config.maxCadence then 0 else next) = 0
    let pos := line.nextCadence config 0
    let len := if ends then line.zonecadence pos else line.ringcadence pos
    ({ line with cadencepos := pos }.rbsSethook config .offhook .ringoff len).qevent .ringeroff
  | .start => line.rbsSethook config .offhook .afterstart config.afterstartTime
  | .prewink => line.rbsSethook config .offhook .wink line.times.winktime
  | .wink => (line.rbsSethook config .onhook .onhook 0).hookcomplete
  | .preflash => line.rbsSethook config .onhook .flash line.times.flashtime
  | .flash => (line.rbsSethook config .offhook .offhook 0).hookcomplete
  | .debounce =>
    let line : Line := line.rbsSethook config .offhook .offhook 0
    -- see if we've gone back on hook
    if line.rxhooksig = .onhook ∧ line.times.rxflashtime > 2 then
      { line with
        itimer := line.times.rxflashtime * config.chunksize
        itimerset := line.times.rxflashtime * config.chunksize }
    else line
  | .afterstart => (line.rbsSethook config .offhook .offhook 0).hookcomplete
  | .kewl => (line.rbsSethook config .onhook .afterkewl config.afterkewltime).hookcomplete
  | .afterkewl =>
    let line : Line := if line.kewlonhook then line.qevent .onhook else line
    { line with txstate := .onhook, gotgs := false }
  | .pulsebreak => line.rbsSethook config .offhook .pulsemake line.times.pulsemaketime
  | .pulsemake =>
    let line : Line := { line with pdialcount := line.pdialcount - 1 }
    if line.pdialcount ≠ 0 then line.rbsSethook config .onhook .pulsebreak line.times.pulsebreaktime
    else
      { line with
        txstate := .pulseafter
        otimer := line.times.pulseaftertime * config.chunksize }
  | .pulseafter => { line with txstate := .offhook }.doDtmf config
  | .onhook | .offhook => line

/-- `__rbs_otimer_expire`. -/
def rbsOtimerExpire (config : Config) (line : Line) : Line :=
  { line with otimer := 0 }.txstateExpire config line.txstate

/-- What `zt_transmit` does to the timer of a channel. -/
def transmitTick (config : Config) (line : Line) : Line :=
  if line.otimer = 0 then line
  else
    let line : Line := { line with otimer := line.otimer - config.chunksize }
    if line.otimer ≤ 0 then line.rbsOtimerExpire config else line

/-- `ZT_EVENT_PULSEDIGIT` for so many pulses. -/
def pulsedigit (pulsecount : Nat) : Option Char :=
  if pulsecount > 12 then none
  else if pulsecount > 11 then some '#'
  else if pulsecount > 10 then some '*'
  else if pulsecount > 9 then some '0'
  else some (Char.ofNat (0x30 + pulsecount))

/-- The timer `itimer`. -/
def itimerTick (config : Config) (line : Line) : Line :=
  if line.itimer = 0 then line
  else
    let line : Line := { line with itimer := line.itimer - config.chunksize }
    if line.itimer ≤ 0 then line.rbsItimerExpire config else line

/-- The timers for ringing. -/
def ringTick (config : Config) (line : Line) : Line :=
  let line : Line :=
    if line.ringdebtimer = 0 then line else { line with ringdebtimer := line.ringdebtimer - 1 }
  if line.sig.isFxs then
    if line.rxhooksig = .ring then { line with ringtrailer := config.ringtrailer }
    else if line.ringtrailer = 0 then line
    else
      let line : Line := { line with ringtrailer := line.ringtrailer - config.chunksize }
      -- see if the ring trailer is expired
      if line.ringtrailer = 0 ∧ line.ringdebtimer = 0 then line.qevent .ringoffhook else line
  else line

/-- The timer `pulsetimer`. -/
def pulseTick (line : Line) : Line :=
  if line.pulsetimer = 0 then line
  else
    let line : Line := { line with pulsetimer := line.pulsetimer - 1 }
    if line.pulsetimer ≤ 0 ∧ line.pulsecount ≠ 0 then
      match pulsedigit line.pulsecount with
      | some digit => { line.qevent (.pulsedigit digit) with pulsecount := 0 }
      | none => { line with pulsecount := 0 }
    else line

/-- What `zt_receive` does to the timers of a channel. -/
def receiveTick (config : Config) (line : Line) : Line :=
  ((line.itimerTick config).ringTick config).pulseTick

/-! ### Hook states from the driver -/

/-- A pulse is counted. -/
def countPulse (config : Config) (line : Line) : Line :=
  let line : Line := { line with
    pulsecount := line.pulsecount + 1
    pulsetimer := config.pulsetimeout }
  if line.pulsecount = 1 then line.qevent .pulseStart else line

/-- The other end of an E and M channel has changed its hook state. -/
def emHooksig (config : Config) (rxsig : RxHook) (line : Line) : Line :=
  match rxsig with
  | .offhook =>
    let wink := { line with
      itimer := line.times.rxwinktime * config.chunksize
      itimerset := line.times.rxwinktime * config.chunksize }
    if config.emflash ∧ line.itimer ≠ 0 then { line.qevent .winkflash with itimer := 0, itimerset := 0 }
    else if config.empulse ∧ line.itimer ≠ 0 then
      let plen : Int := line.itimerset - line.itimer
      if plen ≤ config.maxPulsetime ∧ plen ≥ config.minPulsetime then
        { line with itimer := 0, itimerset := 0 }.countPulse config
      else line
    else wink
  | .onhook =>
    if line.itimer ≠ 0 then { line.qevent .winkflash with itimer := 0, itimerset := 0 }
    else if config.emflash then
      { line with
        itimer := line.times.rxflashtime * config.chunksize
        itimerset := line.times.rxflashtime * config.chunksize
        gotgs := false }
    else if config.empulse then
      { line with
        itimer := line.times.rxwinktime * config.chunksize
        itimerset := line.times.rxwinktime * config.chunksize
        gotgs := false }
    else { line.qevent .onhook with itimer := 0, itimerset := 0, gotgs := false }
  | _ => line

/-- The office has opened the loop of an FXS channel. -/
def fxsOpened (config : Config) (rxsig : RxHook) (line : Line) : Line :=
  if rxsig = .onhook then
    let line : Line := { line with ringdebtimer := config.ringDebounceTime, ringtrailer := 0 }
    if line.txstate ≠ .debounce then { line with gotgs := false }.qevent .onhook else line
  else line

/-- The other end of an FXS kewlstart channel has changed its hook state. -/
def fxsksHooksig (config : Config) (rxsig : RxHook) (line : Line) : Line :=
  -- ignore a bit poopy if loop not closed and stable
  if line.txstate ≠ .offhook then line
  else if config.fxsflash ∧ rxsig = .onhook then
    { line with itimer := config.fxsflashMaxtime * config.chunksize }
  else if config.fxsflash ∧ rxsig = .offhook then
    let line : Line := if line.itimer ≠ 0 ∧
        line.itimer ≤ ((config.fxsflashMaxtime : Int) - config.fxsflashMintime) * config.chunksize then
      line.qevent .winkflash else line
    { line with itimer := 0 }
  else line.fxsOpened config rxsig

/-- What it was that ends as the phone of an FXO channel closes its loop: a pulse, a flash, or a call that
has not begun. -/
def loopClosed (config : Config) (line : Line) : Line :=
  if line.itimer ≠ 0 then
    if line.itimerset - line.itimer ≤ config.maxPulsetime then
      if line.itimerset - line.itimer ≥ config.minPulsetime then line.countPulse config else line
    else line.qevent .winkflash
  else if line.gotgs then line
  else { line.qevent .ringoffhook with gotgs := true }

/-- The phone of an FXO channel has been picked up. -/
def pickedUp (config : Config) (line : Line) : Line :=
  -- if asserting ring, stop it
  let line : Line := if line.txstate = .start then
    line.rbsSethook config .offhook .afterstart config.afterstartTime else line
  let line : Line := { line with kewlonhook := false }.loopClosed config
  { line with itimer := 0, itimerset := 0 }

/-- The phone of an FXO channel has been put down. -/
def putDown (config : Config) (line : Line) : Line :=
  -- if not during offhook debounce time
  let line : Line :=
    if line.txstate ≠ .debounce ∧ line.txstate ≠ .kewl ∧ line.txstate ≠ .afterkewl then
      { line with
        itimer := line.times.rxflashtime * config.chunksize
        itimerset := line.times.rxflashtime * config.chunksize }
    else line
  if line.txstate = .kewl then { line with kewlonhook := true } else line

/-- The other end of an FXO channel has changed its hook state. -/
def fxoHooksig (config : Config) (rxsig : RxHook) (line : Line) : Line :=
  match rxsig with
  | .offhook => line.pickedUp config
  | .onhook => line.putDown config
  | _ => line

/-- The phone of an FXO groundstart channel asks for a line. -/
def groundStart (rxsig : RxHook) (line : Line) : Line :=
  if rxsig = .start ∧ line.gotgs = false then { line.qevent .ringoffhook with gotgs := true } else line

/-- `__zt_hooksig_pvt`, and `zt_hooksig`. -/
def hooksig (config : Config) (rxsig : RxHook) (line : Line) : Line :=
  if line.rxhooksig = rxsig then line
  else if line.sigfreeze then line
  else
    let line : Line := { line with rxhooksig := rxsig }
    let line : Line := if config.ringbegin ∧ line.sig.isFxs ∧ rxsig = .ring ∧ line.ringdebtimer = 0 then
      line.qevent .ringbegin else line
    match line.sig with
    | .em | .emE1 => line.emHooksig config rxsig
    | .fxsks => line.fxsksHooksig config rxsig
    | .fxsgs => line.fxsOpened config rxsig
    | .fxogs => (line.groundStart rxsig).fxoHooksig config rxsig
    | .fxols | .fxoks => line.fxoHooksig config rxsig
    | _ => line

/-- `zt_rbsbits`. -/
def rbsbits (config : Config) (cursig : Bits) (line : Line) : Line :=
  if cursig = line.rxsig then line
  else if line.sigfreeze then line
  else
    let hook : RxHook := if cursig.a then .offhook else .onhook
    let line : Line := match line.sig with
      | .fxogs => line.hooksig config (if cursig.b then hook else .start)
      | .em | .emE1 | .fxols | .fxoks => line.hooksig config hook
      | .fxsks | .fxsgs =>
        line.hooksig config (if cursig.b then if cursig.a then .onhook else .offhook else .ring)
      | .fxsls => line.hooksig config (if cursig.b then .offhook else .ring)
      | .cas => line.qevent .bitschanged
      | _ => line
    { line with rxsig := cursig }

/-! ### Requests of the process -/

/-- `zt_hangup` of an open channel, but for its blocks. -/
def hangup (config : Config) (line : Line) : Line × Option Errno :=
  if line.clear then (line, some .EINVAL)
  else
    let line : Line := { line with
      kewlonhook := false
      ringdebtimer := if line.sig.isFxs then config.ringDebounceTime else line.ringdebtimer }
    let line : Line :=
      if line.sig = .cas then line.casSetbits line.idlebits
      else if line.sig = .fxoks ∧ line.txstate ≠ .onhook then
        line.rbsSethook config .kewl .kewl config.kewltime
      else line.rbsSethook config .onhook .onhook 0
    ({ line.stopDialing with cadencepos := 0 }, none)

/-- What `ZT_HOOK` asks for: `ZT_RING` is `ZT_START` under another name. -/
inductive HookOp
  | onhook
  | offhook
  | start
  | wink
  | flash
  | ringoff
  deriving DecidableEq, Repr

/-- `ZT_HOOK`. A process that does not wait for the end of what it began gets `EINPROGRESS`; one that waits
is not followed any further. -/
def hook (config : Config) (op : HookOp) (line : Line) : Line × Option Errno :=
  if line.clear then (line, some .EINVAL)
  else if line.sig = .cas then (line, some .EINVAL)
  else
    -- if dialing, stop it
    let line : Line := line.stopDialing
    let begun := if line.nonblock then some Errno.EINPROGRESS else none
    match op with
    | .onhook => ((line.hangup config).1, none)
    | .offhook =>
      if line.txstate = .kewl ∨ line.txstate = .afterkewl then (line, some .EBUSY)
      else (line.rbsSethook config .offhook .debounce line.times.debouncetime, none)
    | .start =>
      if line.txstate ≠ .onhook then (line, some .EBUSY)
      else if line.sig.isFxo then
        ({ line with cadencepos := 0 }.rbsSethook config .start .ringon (line.ringcadence 0), begun)
      else (line.rbsSethook config .start .start line.times.starttime, begun)
    | .wink =>
      if line.txstate ≠ .onhook then (line, some .EBUSY)
      else (line.rbsSethook config .onhook .prewink line.times.prewinktime, begun)
    | .flash =>
      if line.txstate ≠ .offhook then (line, some .EBUSY)
      else (line.rbsSethook config .offhook .preflash line.times.preflashtime, begun)
    | .ringoff => (line.rbsSethook config .onhook .onhook 0, none)

end Line

/-! ### A channel with short times -/

/-- Times of a few ticks. -/
def shortTimes : Config where
  chunksize := 8
  minPulsetime := 8
  maxPulsetime := 24
  pulsetimeout := 6
  ringDebounceTime := 4
  ringtrailer := 16
  kewltime := 3
  afterkewltime := 2
  afterstartTime := 2
  fxsflashMintime := 3
  fxsflashMaxtime := 5
  maxCadence := 16
  maxDtmfBuf := 8
  ringbegin := true
  emflash := false
  empulse := false
  fxsflash := false
  cacGroundstart := false
  chunksize_pos := Nat.succ_pos 7

/-- A line off hook. -/
def offhookLine (sig : Sig) : Line where
  sig
  wire := .hooksig
  clear := false
  sigfreeze := false
  nonblock := true
  times := ⟨1, 1, 2, 2, 4, 3, 4, 2, 2, 2, 5⟩
  rxhooksig := .offhook
  rxsig := ⟨true, true, true, true⟩
  txhooksig := .offhook
  txsig := ⟨true, true, true, true⟩
  idlebits := ⟨false, false, false, false⟩
  txstate := .offhook
  otimer := 0
  itimer := 0
  itimerset := 0
  gotgs := true
  kewlonhook := false
  ringdebtimer := 0
  ringtrailer := 0
  pulsecount := 0
  pulsetimer := 0
  pdialcount := 0
  txdialbuf := []
  dialing := false
  digitmode := .dtmf
  curtone := none
  cadencepos := 0
  firstcadencepos := 0
  ringcadence pos := if pos = 0 then 2 else if pos = 1 then 4 else 0
  zonecadence pos := if pos = 0 then 2 else if pos = 1 then 4 else 0
  said := []

end Baps.Zaptel
