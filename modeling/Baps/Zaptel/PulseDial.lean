/-
**A number that is dialled with pulses.**

The channel of an FXS line dials a digit by going on hook so many times (`doDtmf`, `txstateExpire`). Its
peer, the channel of an FXO line at the other end, hears it as the phone's loop that opens and closes, or as
the bits of a robbed-bit link. `Call` is the two of them; a beat is a tick of `zt_transmit` for the one or of
`zt_receive` for the other, and the two clocks may drift apart by some ticks.

* `Opened.closes`, `Closed.opens` — a break and a make, and what the peer makes of them;
* `Closed.digit` — a digit arrives with as many pulses as it has;
* `pulses_dialled` — **a number arrives**: the peer reports the digits of the dial string, each once and in
  order, and the dialling process hears that dialling is complete.
-/

import Baps.Zaptel.PulseReceive
import Mathlib.Data.List.Infix

namespace Baps.Zaptel

open Baps.Wcfxs (TxSig)

/-! ### The two ends -/

/-- What the peer hears of a signal: the hook state of an FXS line is the loop that a phone opens or closes. -/
def deliver (config : Config) (peer : Line) : Signal → Line
  | .hooksig .onhook _ => peer.hooksig config .onhook
  | .hooksig .offhook _ | .hooksig .start _ => peer.hooksig config .offhook
  | .rbsbits bits => peer.rbsbits config bits
  | .hooksig .kewl _ | .event _ | .nullCall => peer

/-- A channel that dials, and its peer. -/
structure Call where
  dialler : Line
  peer : Line

/-- A tick of the dialler's `zt_transmit`, or of the peer's `zt_receive`. -/
inductive Beat
  | transmit
  | receive
  deriving DecidableEq, Repr

namespace Call

/-- The dialler does something, and the peer hears of it. -/
def dials (config : Config) (call : Call) (dialler : Line) : Call where
  dialler := dialler
  peer := (dialler.said.drop call.dialler.said.length).foldl (deliver config) call.peer

/-- One beat. -/
def beat (config : Config) (call : Call) : Beat → Call
  | .transmit => call.dials config (call.dialler.transmitTick config)
  | .receive => { call with peer := call.peer.receiveTick config }

/-- `ZT_DIAL` by the dialler's process. -/
def dial (config : Config) (call : Call) (op : Line.DialOp) (dialstr : List UInt8) : Call :=
  call.dials config (call.dialler.dial config op dialstr).1

end Call

/-- The ticks of both ends in a stretch of the schedule differ by the jitter at most. -/
def Near (jitter : Nat) (stretch : List Beat) : Prop :=
  stretch.count .receive ≤ stretch.count .transmit + jitter ∧
    stretch.count .transmit ≤ stretch.count .receive + jitter

/-- That holds of every stretch. -/
def Steady (jitter : Nat) (schedule : List Beat) : Prop :=
  ∀ stretch, stretch <:+: schedule → Near jitter stretch

/-- The dialler's line and the times on both sides. -/
structure Link where
  sig : Sig
  wire : Wire
  pulsebreak : Nat
  pulsemake : Nat
  pulseafter : Nat
  flash : Nat
  jitter : Nat

/-- The times fit: a break is neither too short nor too long for a pulse, pulses of one digit follow each
other soon enough, and digits do not. -/
structure Link.Timely (config : Config) (link : Link) : Prop where
  fxs : link.sig.isFxs = true
  make_pos : 0 < link.pulsemake
  least : config.minPulsetime ≤ (link.pulsebreak - link.jitter) * config.chunksize
  most : (link.pulsebreak + link.jitter) * config.chunksize ≤ config.maxPulsetime
  flash : link.pulsebreak + link.jitter < link.flash
  together : link.pulsemake + link.pulsebreak + link.jitter < config.pulsetimeout
  apart : config.pulsetimeout + link.jitter ≤ link.pulsemake + link.pulseafter
  break_pos : 0 < link.pulsebreak
  after_pos : 0 < link.pulseafter

/-- The dialler is in a state of pulse dialling, with some ticks to go in it, some pulses of the digit left
and some keys behind the digit. -/
structure Dials (config : Config) (link : Link) (line : Line) (state : TxState) (hook : TxSig)
    (ticks pulses : Nat) (keys : List UInt8) : Prop where
  sig_eq : line.sig = link.sig
  wire_eq : line.wire = link.wire
  mode : line.digitmode = .pulse
  break_eq : line.times.pulsebreaktime = link.pulsebreak
  make_eq : line.times.pulsemaketime = link.pulsemake
  after_eq : line.times.pulseaftertime = link.pulseafter
  state_eq : line.txstate = state
  hook_eq : line.txhooksig = hook
  otimer_eq : line.otimer = ticks * config.chunksize
  pulses_eq : line.pdialcount = pulses
  keys_eq : line.txdialbuf = keys

/-- The bits of an FXS line on hook and off hook. -/
def hookBits : TxSig → Bits
  | .onhook => ⟨false, true, false, true⟩
  | _ => ⟨true, true, true, true⟩

/-- The bits that the peer has heard last are those of the dialler's hook state. -/
def Link.Heard (link : Link) (hook : TxSig) (rxsig : Bits) : Prop :=
  link.wire = .rbsbits → rxsig = hookBits hook

/-- A break has begun. -/
structure Opened (config : Config) (link : Link) (call : Call) (left : Nat) (keys : List UInt8)
    (pulses timer : Nat) : Prop where
  dials : Dials config link call.dialler .pulsebreak .onhook link.pulsebreak left keys
  hears : ∃ rxsig, link.Heard .onhook rxsig ∧
    Broken config link.flash rxsig call.peer pulses timer 0

/-- A make has begun. -/
structure Closed (config : Config) (link : Link) (call : Call) (left : Nat) (keys : List UInt8)
    (pulses : Nat) : Prop where
  dials : Dials config link call.dialler .pulsemake .offhook link.pulsemake left keys
  hears : ∃ rxsig, link.Heard .offhook rxsig ∧
    Listening link.flash rxsig call.peer pulses config.pulsetimeout

/-- The dialler is off hook with some keys to dial, and the peer waits for nothing. -/
structure Idle (config : Config) (link : Link) (call : Call) (keys : List UInt8) : Prop where
  dials : Dials config link call.dialler .offhook .offhook 0 0 keys
  hears : ∃ rxsig, link.Heard .offhook rxsig ∧ Listening link.flash rxsig call.peer 0 0

/-- A key that does not leave pulse dialling. `'P'` itself needs a driver that takes hook states. -/
structure Link.Plain (link : Link) (key : UInt8) : Prop where
  ne_T : key ≠ keyT
  ne_M : key ≠ keyM
  ne_W : key ≠ keyW
  wire : key = keyP → link.wire = .hooksig

/-- The pulses of a digit. -/
def pulsesOf (key : UInt8) : Nat := if key = 0x30 then 10 else (key - 0x30).toNat

/-- What the peer says of a dial string. -/
def heardDigits (keys : List UInt8) : List Signal :=
  (keys.filter isDigit).flatMap fun key =>
    [.event .pulseStart, .event (.pulsedigit (Char.ofNat key.toNat))]

/-- The dialler's ticks for a digit, and for a dial string. -/
def Link.digitTime (link : Link) (key : UInt8) : Nat :=
  pulsesOf key * (link.pulsemake + link.pulsebreak) + link.pulseafter

def Link.dialTime (link : Link) (keys : List UInt8) : Nat :=
  ((keys.filter isDigit).map link.digitTime).sum

/-- The peer says something, and the dialler's process hears nothing. -/
structure Reports (call after : Call) (said : List Signal) : Prop where
  peer : after.peer.said = call.peer.said ++ said
  dialler : after.dialler.events = call.dialler.events

/-- A dial string goes on: it is at its end, or a break of its next digit begins. -/
inductive DialsOn (config : Config) (link : Link) (call : Call) (keys : List UInt8) (after : Call) : Prop
  | complete (none : keys.filter isDigit = []) (idle : Idle config link after [])
    (stopped : after.dialler.dialing = false) (peer : after.peer.said = call.peer.said)
    (events : after.dialler.events = call.dialler.events ++ [.dialcomplete])
  | breaks (key : UInt8) (rest : List UInt8)
    (first : keys.filter isDigit = key :: rest.filter isDigit) (shorter : rest.length < keys.length)
    (plain : ∀ other ∈ rest, link.Plain other) (digit : isDigit key = true)
    (opened : Opened config link after (pulsesOf key) rest 0 0) (reports : Reports call after [])

section

variable {config : Config} {link : Link} {call : Call} {left pulses timer ticks : Nat}
  {keys : List UInt8} {state : TxState} {hook : TxSig} {line next : Line}

/-! ### Signals on the way -/

/-- The peer hears what is said. -/
theorem Call.dials_said {said : List Signal} (says_ : next.said = call.dialler.said ++ said) :
    call.dials config next = ⟨next, said.foldl (deliver config) call.peer⟩ := by
  unfold Call.dials
  rw [says_, List.drop_left]

theorem Call.dials_silent (silent : next.said = call.dialler.said) :
    call.dials config next = ⟨next, call.peer⟩ :=
  Call.dials_said (silent.trans (List.append_nil _).symm)

theorem outs_fxs {sig : Sig} (fxs : sig.isFxs = true) (plain : hook = .onhook ∨ hook = .offhook) :
    Line.outs config sig hook = some (hookBits hook) := by
  rcases plain with rfl | rfl
  · cases sig <;> first | rfl | exact absurd fxs Bool.false_ne_true
  · cases sig <;> first | rfl | exact absurd fxs Bool.false_ne_true

/-- What an FXS line says of a new hook state. -/
def hookSignal (wire : Wire) (hook : TxSig) (keys : List UInt8) : Signal :=
  match wire with
  | .hooksig => .hooksig hook keys
  | .rbsbits => .rbsbits (hookBits hook)

/-- **An FXS line goes on or off hook.** -/
theorem Line.rbsSethook_fxs (fxs : line.sig.isFxs = true) (plain : hook = .onhook ∨ hook = .offhook)
    (changes : line.txhooksig ≠ hook) (state : TxState) (timeout : Int) :
    ∃ txsig, line.rbsSethook config hook state timeout = { line with
      txstate := state
      txhooksig := hook
      txsig := txsig
      otimer := timeout * config.chunksize
      said := line.said ++ [hookSignal line.wire hook line.txdialbuf] } := by
  have dacs : line.sig ≠ .dacsRbs := fun same => by
    rw [same] at fxs
    exact Bool.false_ne_true fxs
  have sf : line.sig ≠ .sf := fun same => by
    rw [same] at fxs
    exact Bool.false_ne_true fxs
  unfold Line.rbsSethook hookSignal
  rw [if_neg dacs, if_neg sf]
  cases line.wire with
  | hooksig =>
    refine ⟨line.txsig, ?_⟩
    dsimp only
    rw [if_pos changes]
    rfl
  | rbsbits =>
    refine ⟨hookBits hook, ?_⟩
    dsimp only
    rw [outs_fxs fxs plain]
    rfl

/-- Bits that change the hook state of an FXO line. -/
theorem Attends.rbsbits_eq {flash : Nat} {rxsig : Bits} {heard : RxHook}
    (attends : Attends flash rxsig line heard pulses timer) {bits : Bits} (ground : bits.b = true)
    (changed : bits ≠ rxsig) :
    line.rbsbits config bits
      = { line.hooksig config (if bits.a then .offhook else .onhook) with rxsig := bits } := by
  have fxo := attends.fxo
  have thawed : ¬ line.sigfreeze = true := by
    rw [attends.thawed]
    exact Bool.false_ne_true
  unfold Line.rbsbits
  rw [if_neg (changed.trans_eq attends.rxsig_eq.symm), if_neg thawed, ground]
  revert fxo
  cases line.sig <;> first | exact fun _ => rfl | exact fun bad => absurd bad Bool.false_ne_true

/-- The peer hears the loop open. -/
theorem Listening.deliver (config : Config) {rxsig : Bits}
    (listening : Listening link.flash rxsig line pulses timer) (heard : link.Heard .offhook rxsig) (keys : List UInt8) :
    ∃ rxsig, link.Heard .onhook rxsig ∧
      Broken config link.flash rxsig (deliver config line (hookSignal link.wire .onhook keys)) pulses
        timer 0 ∧
      (Zaptel.deliver config line (hookSignal link.wire .onhook keys)).said = line.said := by
  obtain ⟨broken, said⟩ := listening.opened config
  unfold Link.Heard hookSignal
  cases wire : link.wire with
  | hooksig => exact ⟨rxsig, nofun, broken, said⟩
  | rbsbits =>
    have changed : hookBits .onhook ≠ rxsig := by
      rw [heard wire]
      decide
    have heardNow : Zaptel.deliver config line (.rbsbits (hookBits .onhook))
        = { line.hooksig config .onhook with rxsig := hookBits .onhook } :=
      listening.attends.rbsbits_eq rfl changed
    dsimp only
    rw [heardNow]
    exact ⟨hookBits .onhook, fun _ => rfl,
      ⟨{ broken.attends with rxsig_eq := rfl }, broken.itimerset_eq, broken.itimer_eq⟩, said⟩

/-- The peer hears the loop close, and counts a pulse. -/
theorem Broken.deliver {rxsig : Bits} {elapsed : Nat}
    (broken : Broken config link.flash rxsig line pulses timer elapsed)
    (heard : link.Heard .onhook rxsig) (least : config.minPulsetime ≤ elapsed * config.chunksize)
    (most : elapsed * config.chunksize ≤ config.maxPulsetime) (soon : elapsed < link.flash)
    (keys : List UInt8) :
    ∃ rxsig, link.Heard .offhook rxsig ∧
      Listening link.flash rxsig (deliver config line (hookSignal link.wire .offhook keys))
        (pulses + 1) config.pulsetimeout ∧
      (Zaptel.deliver config line (hookSignal link.wire .offhook keys)).said
        = line.said ++ if pulses = 0 then [.event .pulseStart] else [] := by
  obtain ⟨listening, said⟩ := broken.closed least most soon
  unfold Link.Heard hookSignal
  cases wire : link.wire with
  | hooksig => exact ⟨rxsig, nofun, listening, said⟩
  | rbsbits =>
    have changed : hookBits .offhook ≠ rxsig := by
      rw [heard wire]
      decide
    have heardNow : Zaptel.deliver config line (.rbsbits (hookBits .offhook))
        = { line.hooksig config .offhook with rxsig := hookBits .offhook } :=
      broken.attends.rbsbits_eq rfl changed
    dsimp only
    rw [heardNow]
    exact ⟨hookBits .offhook, fun _ => rfl,
      ⟨{ listening.attends with rxsig_eq := rfl }, listening.itimer_eq⟩, said⟩

/-! ### Waiting -/

theorem Dials.transmit_early
    (dials : Dials config link line state hook (ticks + 2) left keys) :
    Dials config link (line.transmitTick config) state hook (ticks + 1) left keys ∧
      (line.transmitTick config).said = line.said := by
  have positive : (0 : Int) < config.chunksize := by exact_mod_cast config.chunksize_pos
  have otimer : line.otimer - config.chunksize = (ticks + 1 : Nat) * config.chunksize := by
    rw [dials.otimer_eq]
    push_cast
    ring
  have remains : 0 < ((ticks + 1 : Nat) : Int) * config.chunksize := mul_pos (by omega) positive
  have running : ¬ line.otimer = 0 := by omega
  have goesOn : ¬ line.otimer - config.chunksize ≤ 0 := by omega
  have ticked : line.transmitTick config = { line with otimer := line.otimer - config.chunksize } := by
    unfold Line.transmitTick
    rw [if_neg running]
    exact if_neg goesOn
  rw [ticked]
  exact ⟨{ dials with otimer_eq := otimer }, rfl⟩

/-- The last tick in a state. -/
theorem Dials.transmit_last (dials : Dials config link line state hook 1 left keys) :
    line.transmitTick config = line.rbsOtimerExpire config := by
  have positive : (0 : Int) < config.chunksize := by exact_mod_cast config.chunksize_pos
  have otimer : line.otimer = config.chunksize := by
    rw [dials.otimer_eq]
    push_cast
    ring
  have running : ¬ line.otimer = 0 := by omega
  have ends : line.otimer - config.chunksize ≤ 0 := by omega
  unfold Line.transmitTick
  rw [if_neg running]
  exact if_pos ends

/-- The dialler waits and the peer ticks. -/
theorem Dials.waits (dials : Dials config link line state hook (ticks + 1) left keys) (peer : Line)
    {stretch : List Beat} (few : stretch.count .transmit ≤ ticks) :
    ∃ next, stretch.foldl (Call.beat config) ⟨line, peer⟩
        = ⟨next, (Line.receiveTick config)^[stretch.count .receive] peer⟩ ∧
      Dials config link next state hook (ticks + 1 - stretch.count .transmit) left keys ∧
      next.said = line.said := by
  induction stretch generalizing line peer ticks with
  | nil => exact ⟨line, rfl, dials, rfl⟩
  | cons beat rest ih =>
    cases beat with
    | transmit =>
      rw [List.count_cons_self] at few
      obtain ⟨less, rfl⟩ : ∃ less, ticks = less + 1 := ⟨ticks - 1, by omega⟩
      obtain ⟨waits, still⟩ := dials.transmit_early
      obtain ⟨next, ran, finally_, said⟩ := ih waits peer (by omega)
      refine ⟨next, ?_, ?_, said.trans still⟩
      · rw [List.foldl_cons, Call.beat, Call.dials_silent still, ran,
          List.count_cons_of_ne (by decide)]
      · rw [List.count_cons_self, Nat.add_sub_add_right]
        exact finally_
    | receive =>
      have transmits : (Beat.receive :: rest).count .transmit = rest.count .transmit :=
        List.count_cons_of_ne (by decide)
      rw [transmits] at few ⊢
      obtain ⟨next, ran, finally_, said⟩ := ih dials (peer.receiveTick config) few
      refine ⟨next, ?_, finally_, said⟩
      rw [List.foldl_cons, Call.beat, ran, List.count_cons_self, Function.iterate_succ_apply]

/-- **A state of the dialler passes:** its last tick, after as many others as it has. -/
theorem Dials.passes (dials : Dials config link line state hook (ticks + 1) left keys) (peer : Line)
    {stretch : List Beat} (count : stretch.count .transmit = ticks) :
    ∃ last, (stretch ++ [Beat.transmit]).foldl (Call.beat config) ⟨line, peer⟩
        = Call.dials config ⟨last, (Line.receiveTick config)^[stretch.count .receive] peer⟩
          (last.rbsOtimerExpire config) ∧
      Dials config link last state hook 1 left keys ∧ last.said = line.said := by
  obtain ⟨last, ran, ends, said⟩ := dials.waits peer count.le
  rw [count, Nat.add_sub_cancel_left] at ends
  refine ⟨last, ?_, ends, said⟩
  rw [List.foldl_append, ran, List.foldl_cons, List.foldl_nil, Call.beat, ends.transmit_last]

/-! ### Breaks and makes -/

/-- The dialler goes on or off hook. -/
theorem Dials.sethook (dials : Dials config link line state hook ticks left keys)
    (fxs : link.sig.isFxs = true) {after : TxSig} (plain : after = .onhook ∨ after = .offhook)
    (changes : hook ≠ after) (next : TxState) (timeout : Nat) :
    Dials config link (line.rbsSethook config after next timeout) next after timeout left keys ∧
      (line.rbsSethook config after next timeout).said
        = line.said ++ [hookSignal link.wire after keys] := by
  rw [← dials.sig_eq] at fxs
  obtain ⟨txsig, hooked⟩ := Line.rbsSethook_fxs fxs plain (dials.hook_eq.trans_ne changes) next timeout
  rw [hooked]
  refine ⟨{ dials with state_eq := rfl, hook_eq := rfl, otimer_eq := rfl }, ?_⟩
  rw [← dials.wire_eq, ← dials.keys_eq]

theorem Line.events_say_hook {said : List Signal} (wire : Wire)
    (says_ : next.said = said ++ [hookSignal wire hook keys]) (same : line.said = said) :
    next.events = line.events := by
  unfold Line.events hookSignal at *
  rw [says_, same, List.filterMap_append]
  cases wire <;> exact List.append_nil _

theorem Line.events_congr (same : next.said = line.said) : next.events = line.events := by
  unfold Line.events
  rw [same]

variable {stretch : List Beat}

theorem count_transmit_concat (stretch : List Beat) :
    (stretch ++ [Beat.transmit]).count .transmit = stretch.count .transmit + 1 := by
  rw [List.count_append, List.count_singleton_self]

theorem count_receive_concat (stretch : List Beat) :
    (stretch ++ [Beat.transmit]).count .receive = stretch.count .receive := by
  rw [List.count_append]
  rfl

section

variable {jitter : Nat} {first second : List Beat}

theorem count_two (beat : Beat) :
    (first ++ [Beat.transmit] ++ (second ++ [Beat.transmit])).count beat
      = (first ++ [Beat.transmit]).count beat + (second ++ [Beat.transmit]).count beat :=
  List.count_append

/-- Two stretches, one behind the other. -/
theorem Near.most (near : Near jitter (first ++ [.transmit] ++ (second ++ [.transmit]))) :
    first.count .receive + second.count .receive
      ≤ (first.count .transmit + 1) + (second.count .transmit + 1) + jitter := by
  have most := near.1
  rwa [count_two, count_two, count_transmit_concat, count_transmit_concat, count_receive_concat,
    count_receive_concat] at most

theorem Near.least (near : Near jitter (first ++ [.transmit] ++ (second ++ [.transmit]))) :
    (first.count .transmit + 1) + (second.count .transmit + 1)
      ≤ first.count .receive + second.count .receive + jitter := by
  have least := near.2
  rwa [count_two, count_two, count_transmit_concat, count_transmit_concat, count_receive_concat,
    count_receive_concat] at least

end

/-- **A break ends,** and the peer counts a pulse. -/
theorem Opened.closes (timely : link.Timely config) (opened : Opened config link call left keys pulses timer)
    (count : stretch.count .transmit + 1 = link.pulsebreak)
    (near : Near link.jitter (stretch ++ [.transmit]))
    (early : pulses = 0 ∨ stretch.count .receive < timer) :
    ∃ after, (stretch ++ [Beat.transmit]).foldl (Call.beat config) call = after ∧
      Closed config link after left keys (pulses + 1) ∧
      Reports call after (if pulses = 0 then [.event .pulseStart] else []) := by
  obtain ⟨dials, rxsig, heard, broken⟩ := opened
  obtain ⟨most, least⟩ := near
  rw [count_transmit_concat, count_receive_concat, count] at most least
  -- the ticks of the break, as the peer counts them
  have short := Nat.mul_le_mul_right config.chunksize most
  have long := Nat.mul_le_mul_right config.chunksize (Nat.sub_le_iff_le_add.mpr least)
  have soon : stretch.count .receive < link.flash := lt_of_le_of_lt most timely.flash
  rw [← count] at dials
  obtain ⟨last, ran, ends, silent⟩ := dials.passes call.peer rfl
  obtain ⟨waited, still⟩ := broken.waits early soon
  obtain ⟨rxsig, hears, listening, said⟩ := waited.deliver heard (timely.least.trans long)
    (short.trans timely.most) soon keys
  -- the dialler goes off hook
  have stopped : Dials config link { last with otimer := 0 } .pulsebreak .onhook 0 left keys :=
    { ends with otimer_eq := by rw [Int.natCast_zero, Int.zero_mul] }
  obtain ⟨closed, says_⟩ := stopped.sethook timely.fxs (.inr rfl) (by decide) .pulsemake link.pulsemake
  have expired : last.rbsOtimerExpire config
      = Line.rbsSethook config .offhook .pulsemake link.pulsemake { last with otimer := 0 } := by
    unfold Line.rbsOtimerExpire
    rw [ends.state_eq, ← ends.make_eq]
    rfl
  rw [expired, Call.dials_said says_] at ran
  refine ⟨_, ran, ⟨closed, rxsig, hears, listening⟩, ?_, ?_⟩
  · exact said.trans (by rw [still])
  · exact Line.events_say_hook link.wire says_ silent.symm

/-- **A make ends,** and another pulse begins. -/
theorem Closed.opens (timely : link.Timely config) (closed : Closed config link call (left + 2) keys pulses)
    (count : stretch.count .transmit + 1 = link.pulsemake)
    (early : stretch.count .receive < config.pulsetimeout) :
    ∃ after, (stretch ++ [Beat.transmit]).foldl (Call.beat config) call = after ∧
      Opened config link after (left + 1) keys pulses
        (config.pulsetimeout - stretch.count .receive) ∧
      Reports call after [] := by
  obtain ⟨dials, rxsig, heard, listening⟩ := closed
  rw [← count] at dials
  obtain ⟨last, ran, ends, silent⟩ := dials.passes call.peer rfl
  obtain ⟨waited, still⟩ := listening.waits config (.inr early)
  obtain ⟨rxsig, hears, broken, said⟩ := waited.deliver config heard keys
  have stopped : Dials config link { last with otimer := 0, pdialcount := left + 1 } .pulsemake .offhook 0
      (left + 1) keys :=
    { ends with
      otimer_eq := by rw [Int.natCast_zero, Int.zero_mul]
      pulses_eq := rfl }
  obtain ⟨opened, says_⟩ :=
    stopped.sethook timely.fxs (.inl rfl) (by decide) .pulsebreak link.pulsebreak
  have expired : last.rbsOtimerExpire config
      = Line.rbsSethook config .onhook .pulsebreak link.pulsebreak
        { last with otimer := 0, pdialcount := left + 1 } := by
    unfold Line.rbsOtimerExpire Line.txstateExpire
    rw [ends.state_eq, ← ends.break_eq]
    dsimp only
    rw [ends.pulses_eq, if_pos (by omega)]
    rfl
  rw [expired, Call.dials_said says_] at ran
  refine ⟨_, ran, ⟨opened, rxsig, hears, broken⟩, ?_, ?_⟩
  · exact said.trans (still.trans (List.append_nil _).symm)
  · exact Line.events_say_hook link.wire says_ silent.symm

/-- **Another pulse of the digit,** soon enough behind the last one. -/
theorem Closed.pulse (timely : link.Timely config) (closed : Closed config link call (left + 2) keys pulses)
    (some : pulses ≠ 0) {first second : List Beat}
    (make : first.count .transmit + 1 = link.pulsemake)
    (break_ : second.count .transmit + 1 = link.pulsebreak)
    (both : Near link.jitter (first ++ [.transmit] ++ (second ++ [.transmit])))
    (near : Near link.jitter (second ++ [.transmit])) :
    ∃ after, (first ++ [Beat.transmit] ++ (second ++ [Beat.transmit])).foldl (Call.beat config) call = after ∧
      Closed config link after (left + 1) keys (pulses + 1) ∧ Reports call after [] := by
  have most := both.most
  have together := timely.together
  rw [make, break_] at most
  obtain ⟨middle, ran, opened, reports⟩ := closed.opens timely make (by omega)
  obtain ⟨after, ran', closed', reports'⟩ := opened.closes timely break_ near (.inr (by omega))
  rw [if_neg some] at reports'
  refine ⟨after, ?_, closed', ?_, ?_⟩
  · rw [List.foldl_append, ran, ran']
  · rw [reports'.peer, reports.peer, List.append_nil, List.append_nil]
  · rw [reports'.dialler, reports.dialler]

/-- **The last make of a digit, and the pause behind it:** the peer reports the digit. -/
theorem Closed.ends (timely : link.Timely config) (closed : Closed config link call 1 keys pulses)
    (some : pulses ≠ 0) {first second : List Beat}
    (make : first.count .transmit + 1 = link.pulsemake)
    (pause : second.count .transmit + 1 = link.pulseafter)
    (both : Near link.jitter (first ++ [.transmit] ++ (second ++ [.transmit]))) :
    ∃ idle : Call, (first ++ [Beat.transmit] ++ (second ++ [Beat.transmit])).foldl (Call.beat config) call
        = idle.dials config (idle.dialler.doDtmf config) ∧
      Idle config link idle keys ∧ Reports call idle (digitSaid pulses) := by
  obtain ⟨dials, rxsig, heard, listening⟩ := closed
  have least := both.least
  have apart := timely.apart
  have together := timely.together
  rw [make, pause] at least
  rw [← make] at dials
  obtain ⟨last, ran, ends, silent⟩ := dials.passes call.peer rfl
  -- the pause begins, unheard
  obtain ⟨paused, expired, pausing, unheard⟩ : ∃ paused, last.rbsOtimerExpire config = paused ∧
      Dials config link paused .pulseafter .offhook (second.count .transmit + 1) 0 keys ∧
      paused.said = last.said := by
    refine ⟨{ last with
      txstate := .pulseafter
      otimer := link.pulseafter * config.chunksize
      pdialcount := 0 }, ?_, { ends with state_eq := rfl, otimer_eq := by rw [pause], pulses_eq := rfl }, rfl⟩
    unfold Line.rbsOtimerExpire Line.txstateExpire
    rw [ends.state_eq, ← ends.after_eq]
    dsimp only
    rw [ends.pulses_eq, if_neg (by decide)]
  rw [expired, Call.dials_silent unheard] at ran
  obtain ⟨idle, ran', ends', silent'⟩ := pausing.passes
    ((Line.receiveTick config)^[first.count .receive] call.peer) rfl
  have late : config.pulsetimeout ≤ second.count .receive + first.count .receive := by omega
  obtain ⟨reported, said⟩ := listening.digit config some (by omega) late
  rw [Function.iterate_add_apply] at reported said
  have ended : idle.rbsOtimerExpire config
      = Line.doDtmf config { idle with otimer := 0, txstate := .offhook } := by
    unfold Line.rbsOtimerExpire
    rw [ends'.state_eq]
    rfl
  rw [ended] at ran'
  have off : Dials config link { idle with otimer := 0, txstate := .offhook } .offhook .offhook 0 0 keys :=
    { ends' with
      state_eq := rfl
      otimer_eq := by rw [Int.natCast_zero, Int.zero_mul] }
  refine ⟨⟨{ idle with otimer := 0, txstate := .offhook }, _⟩, ?_, ⟨off, rxsig, heard, reported⟩, said, ?_⟩
  · rw [List.foldl_append, ran, ran']
    rfl
  · exact Line.events_congr (silent'.trans (unheard.trans silent))

/-! ### Digits -/

theorem isDigit_cases {key : UInt8} (digit : isDigit key = true) :
    ∃ n < 10, key = UInt8.ofNat (0x30 + n) := by
  have bounds : 0x30 ≤ key ∧ key ≤ 0x39 := of_decide_eq_true digit
  rw [UInt8.le_iff_toNat_le, UInt8.le_iff_toNat_le] at bounds
  have least : 48 ≤ key.toNat := bounds.1
  have most : key.toNat ≤ 57 := bounds.2
  refine ⟨key.toNat - 48, by omega, ?_⟩
  rw [Nat.add_sub_cancel' least, UInt8.ofNat_toNat]

/-- **The peer reports the digit that is dialled.** -/
theorem digitSaid_pulsesOf {key : UInt8} (digit : isDigit key = true) :
    0 < pulsesOf key ∧ digitSaid (pulsesOf key) = [.event (.pulsedigit (Char.ofNat key.toNat))] := by
  obtain ⟨n, small, rfl⟩ := isDigit_cases digit
  interval_cases n <;> exact ⟨by decide, by decide⟩

/-! ### What is said stays said -/

theorem Line.rbsSethook_said (config : Config) (txsig : TxSig) (state : TxState) (timeout : Int)
    (line : Line) : ∃ more, (line.rbsSethook config txsig state timeout).said = line.said ++ more := by
  have silent : ∃ more, line.said = line.said ++ more := ⟨[], (List.append_nil _).symm⟩
  unfold Line.rbsSethook
  split
  · exact silent
  · split
    · exact silent
    · split
      · by_cases changes : line.txhooksig ≠ txsig
        · rw [if_pos changes]
          exact ⟨_, rfl⟩
        · rw [if_neg changes]
          exact silent
      · split
        · exact ⟨_, rfl⟩
        · exact silent

theorem Line.dialOn_said (config : Config) (keys : List UInt8) (line : Line) :
    ∃ more, (line.dialOn config keys).said = line.said ++ more := by
  have start (line : Line) : ∃ more, line.spanStart.said = line.said ++ more := by
    unfold Line.spanStart
    split <;> exact ⟨_, rfl⟩
  induction keys generalizing line with
  | nil => exact ⟨_, rfl⟩
  | cons c rest ih =>
    have on {next : Line} (said : ∃ more, next.said = line.said ++ more) :
        ∃ more, (next.dialOn config rest).said = line.said ++ more := by
      obtain ⟨first, said⟩ := said
      obtain ⟨second, more⟩ := ih next
      exact ⟨first ++ second, by rw [more, said, List.append_assoc]⟩
    have silent : ∃ more, line.said = line.said ++ more := ⟨[], (List.append_nil _).symm⟩
    unfold Line.dialOn
    dsimp only
    split
    · exact on (start { line with txdialbuf := rest, digitmode := .dtmf })
    split
    · exact on silent
    split
    · exact on (start { line with txdialbuf := rest, digitmode := .pulse })
    split
    · split
      · exact Line.rbsSethook_said _ _ _ _ _
      · exact on silent
    · split
      · exact silent
      · exact on silent

/-! ### Dial strings -/

theorem Line.spanStart_hooksig (wire : line.wire = .hooksig) :
    line.spanStart = line.say (.hooksig .start line.txdialbuf) := by
  unfold Line.spanStart
  rw [wire]

/-- What the dialler says reaches the peer, one signal behind the other. -/
theorem Call.dials_through {signal : Signal} {final : Line}
    (first : next.said = call.dialler.said ++ [signal])
    (rest : ∃ more, final.said = next.said ++ more) :
    call.dials config final
      = Call.dials config ⟨next, deliver config call.peer signal⟩ final := by
  obtain ⟨more, rest⟩ := rest
  have whole : final.said = call.dialler.said ++ (signal :: more) := by
    rw [rest, first, List.append_assoc, List.singleton_append]
  rw [Call.dials_said whole, Call.dials_said rest]
  rfl

theorem Call.dials_past {final : Line} (silent : next.said = call.dialler.said) :
    call.dials config final = Call.dials config ⟨next, call.peer⟩ final := by
  unfold Call.dials
  rw [silent]

/-- A key that is not dialled is passed over, and so is what it says. -/
theorem DialsOn.skip {c : UInt8} {rest : List UInt8} {after : Call} (skips : isDigit c = false)
    (events : line.events = call.dialler.events)
    (on : DialsOn config link ⟨line, call.peer⟩ rest after) :
    DialsOn config link call (c :: rest) after := by
  have filtered : (c :: rest).filter isDigit = rest.filter isDigit := by
    rw [List.filter_cons, skips, if_neg Bool.false_ne_true]
  rcases on with ⟨none, idle, stopped, peer, complete⟩ |
    ⟨key, more, first, shorter, plain, digit, opened, reports⟩
  · exact .complete (filtered.trans none) idle stopped peer (complete.trans (by rw [events]))
  · exact .breaks key more (filtered.trans first) (Nat.lt_succ_of_lt shorter) plain digit opened
      ⟨reports.peer, reports.dialler.trans events⟩

/-- **On with the dial string.** -/
theorem Idle.doDtmf (timely : link.Timely config) (idle : Idle config link call keys)
    (plain : ∀ key ∈ keys, link.Plain key) :
    DialsOn config link call keys (call.dials config (call.dialler.doDtmf config)) := by
  induction keys generalizing call with
  | nil =>
    obtain ⟨line, peer⟩ := call
    obtain ⟨dials, rxsig, heard, listening⟩ := idle
    obtain ⟨next, ended, said, off, stopped⟩ : ∃ next, line.doDtmf config = next ∧
        next.said = line.said ++ [.event .dialcomplete] ∧
        Dials config link next .offhook .offhook 0 0 [] ∧ next.dialing = false := by
      unfold Line.doDtmf
      rw [show line.txdialbuf = [] from dials.keys_eq]
      exact ⟨_, rfl, rfl, { dials with keys_eq := rfl }, rfl⟩
    have unheard : Call.dials config ⟨line, peer⟩ next
        = ⟨next, [Signal.event .dialcomplete].foldl (deliver config) peer⟩ := Call.dials_said said
    have events : next.events = line.events ++ [.dialcomplete] := by
      unfold Line.events
      rw [said, List.filterMap_append]
      rfl
    rw [ended, unheard]
    exact .complete rfl ⟨off, rxsig, heard, listening⟩ stopped rfl events
  | cons c rest ih =>
    obtain ⟨line, peer⟩ := call
    obtain ⟨dials, rxsig, heard, listening⟩ := idle
    obtain ⟨ne_T, ne_M, ne_W, wire⟩ := plain c List.mem_cons_self
    have others : ∀ other ∈ rest, link.Plain other := fun other inside =>
      plain other (List.mem_cons_of_mem _ inside)
    have goesOn (next : Line) (waits : Dials config link next .offhook .offhook 0 0 rest) :
        DialsOn config link ⟨next, peer⟩ rest
          (Call.dials config ⟨next, peer⟩ (next.dialOn config rest)) := by
      have on := @ih ⟨next, peer⟩ ⟨waits, rxsig, heard, listening⟩ others
      unfold Line.doDtmf at on
      rwa [waits.keys_eq] at on
    unfold Line.doDtmf
    rw [dials.keys_eq]
    unfold Line.dialOn
    dsimp only
    rw [if_neg ne_T, if_neg ne_M]
    by_cases pulse : c = keyP
    · -- the driver is told to start, on a loop that is closed already
      have skips : isDigit c = false := by
        rw [pulse]
        rfl
      obtain ⟨next, started, said, waits⟩ : ∃ next,
          Line.spanStart { line with txdialbuf := rest, digitmode := .pulse } = next ∧
          next.said = line.said ++ [.hooksig .start rest] ∧
          Dials config link next .offhook .offhook 0 0 rest := by
        refine ⟨_, Line.spanStart_hooksig ?_, rfl, { dials with mode := rfl, keys_eq := rfl }⟩
        exact dials.wire_eq.trans (wire pulse)
      have unheard : deliver config peer (.hooksig .start rest) = peer :=
        if_pos listening.attends.hook_eq
      have events : next.events = line.events := by
        unfold Line.events
        rw [said, List.filterMap_append]
        exact List.append_nil _
      rw [if_pos pulse, started, Call.dials_through said (Line.dialOn_said config rest next), unheard]
      exact .skip skips events (goesOn next waits)
    have dialled : c ≠ keyW ∧ line.digitmode = .pulse := ⟨ne_W, dials.mode⟩
    rw [if_neg pulse, if_pos dialled]
    by_cases digit : isDigit c = true
    · -- the next digit
      have dialled : isDigit c ∧ line.txhooksig = .offhook := ⟨digit, dials.hook_eq⟩
      have first : (c :: rest).filter isDigit = c :: rest.filter isDigit := by
        rw [List.filter_cons, if_pos digit]
      have ready : Dials config link { line with txdialbuf := rest, pdialcount := pulsesOf c }
          .offhook .offhook 0 (pulsesOf c) rest := { dials with keys_eq := rfl, pulses_eq := rfl }
      obtain ⟨opened, says_⟩ :=
        ready.sethook timely.fxs (.inl rfl) (by decide) .pulsebreak link.pulsebreak
      obtain ⟨rxsig, hears, broken, said⟩ := listening.deliver config heard rest
      have breaks : line.times.pulsebreaktime = link.pulsebreak := dials.break_eq
      rw [if_pos dialled, breaks]
      show DialsOn config link ⟨line, peer⟩ (c :: rest) (Call.dials config ⟨line, peer⟩
        (Line.rbsSethook config .onhook .pulsebreak link.pulsebreak
          { line with txdialbuf := rest, pdialcount := pulsesOf c }))
      rw [Call.dials_said says_]
      exact .breaks c rest first (Nat.lt_succ_self _) others digit ⟨opened, rxsig, hears, broken⟩
        ⟨said.trans (List.append_nil _).symm, Line.events_say_hook link.wire says_ rfl⟩
    · -- any other key
      have passed : ¬ (isDigit c ∧ line.txhooksig = .offhook) := fun both => digit both.1
      have skips : isDigit c = false := Bool.eq_false_of_not_eq_true digit
      obtain ⟨next, next_eq, waits⟩ : ∃ next, next = { line with txdialbuf := rest } ∧
          Dials config link next .offhook .offhook 0 0 rest :=
        ⟨{ line with txdialbuf := rest }, rfl, { dials with keys_eq := rfl }⟩
      have silent : next.said = line.said := by rw [next_eq]
      rw [if_neg passed, ← next_eq, Call.dials_past silent]
      exact .skip skips (Line.events_congr silent) (goesOn next waits)

/-! ### Schedules -/

section

variable {jitter n m : Nat} {schedule : List Beat}

/-- The first ticks of the dialler. -/
theorem exists_ticks (enough : n < schedule.count .transmit) :
    ∃ first rest, schedule = first ++ [Beat.transmit] ++ rest ∧ first.count .transmit = n := by
  induction schedule generalizing n with
  | nil => exact absurd enough (Nat.not_lt_zero n)
  | cons beat later ih =>
    cases beat with
    | receive =>
      rw [List.count_cons_of_ne (by decide)] at enough
      obtain ⟨first, rest, rfl, count⟩ := ih enough
      exact ⟨.receive :: first, rest, rfl, by rwa [List.count_cons_of_ne (by decide)]⟩
    | transmit =>
      rw [List.count_cons_self] at enough
      cases n with
      | zero => exact ⟨[], later, rfl, rfl⟩
      | succ n =>
        obtain ⟨first, rest, rfl, count⟩ := ih (Nat.lt_of_succ_lt_succ enough)
        exact ⟨.transmit :: first, rest, rfl, by rw [List.count_cons_self, count]⟩

/-- A part of a steady schedule is steady. -/
theorem Steady.part (steady : Steady jitter schedule) {part : List Beat} (inside : part <:+: schedule) :
    Steady jitter part := fun _ within => steady _ (within.trans inside)

/-- The first ticks of the dialler, and some more. -/
theorem Steady.cut (steady : Steady jitter schedule)
    (enough : (n + 1) + (m + 1) ≤ schedule.count .transmit) :
    ∃ first second rest, schedule = first ++ [.transmit] ++ (second ++ [.transmit]) ++ rest ∧
      first.count .transmit = n ∧ second.count .transmit = m ∧
      schedule.count .transmit = (n + 1) + (m + 1) + rest.count .transmit ∧
      Near jitter (first ++ [.transmit] ++ (second ++ [.transmit])) ∧
      Near jitter (second ++ [.transmit]) ∧ Steady jitter rest := by
  obtain ⟨first, later, rfl, count⟩ := exists_ticks (show n < schedule.count .transmit by omega)
  rw [List.count_append, count_transmit_concat, count] at enough
  obtain ⟨second, rest, rfl, count'⟩ := exists_ticks (show m < later.count .transmit by omega)
  refine ⟨first, second, rest, (List.append_assoc _ _ _).symm, count, count', ?_, ?_, ?_, ?_⟩
  · rw [List.count_append, count_transmit_concat, count, List.count_append, count_transmit_concat, count']
    exact (Nat.add_assoc _ _ _).symm
  · apply steady
    exact ⟨[], rest, by rw [List.nil_append, List.append_assoc (first ++ _)]⟩
  · apply steady
    exact ⟨first ++ [.transmit], rest, by rw [List.append_assoc (first ++ _)]⟩
  · apply steady.part
    exact ⟨first ++ [.transmit] ++ (second ++ [.transmit]), [], by
      rw [List.append_nil, List.append_assoc (first ++ _)]⟩

end

/-! ### Numbers -/

/-- A tick of a dialler that waits for nothing. -/
theorem Dials.transmit_off (dials : Dials config link line state hook 0 left keys) :
    line.transmitTick config = line := by
  have stopped : line.otimer = 0 := dials.otimer_eq.trans (by rw [Int.natCast_zero, Int.zero_mul])
  exact if_pos stopped

/-- Nothing more is dialled, and nothing more is heard. -/
theorem Idle.rests (idle : Idle config link call keys) (schedule : List Beat) :
    Idle config link (schedule.foldl (Call.beat config) call) keys ∧
      (schedule.foldl (Call.beat config) call).dialler = call.dialler ∧
      (schedule.foldl (Call.beat config) call).peer.said = call.peer.said := by
  induction schedule generalizing call with
  | nil => exact ⟨idle, rfl, rfl⟩
  | cons beat rest ih =>
    obtain ⟨dials, rxsig, heard, listening⟩ := idle
    rw [List.foldl_cons]
    cases beat with
    | transmit =>
      have still : call.beat config .transmit = call := by
        unfold Call.beat
        rw [dials.transmit_off, Call.dials_silent rfl]
      rw [still]
      exact ih ⟨dials, rxsig, heard, listening⟩
    | receive =>
      obtain ⟨waits, silent⟩ := listening.early config (.inl rfl)
      obtain ⟨after, same, said⟩ :=
        @ih (call.beat config .receive) ⟨dials, rxsig, heard, waits⟩
      exact ⟨after, same, said.trans silent⟩

/-- **A digit,** behind its first break: the pulses that are left, and the pause. -/
theorem Closed.digit (timely : link.Timely config)
    (closed : Closed config link call (left + 1) keys pulses) (some : pulses ≠ 0)
    {schedule : List Beat} (steady : Steady link.jitter schedule)
    (enough : left * (link.pulsemake + link.pulsebreak) + (link.pulsemake + link.pulseafter)
      ≤ schedule.count .transmit) :
    ∃ stretch rest, ∃ idle : Call, schedule = stretch ++ rest ∧ Steady link.jitter rest ∧
      schedule.count .transmit = left * (link.pulsemake + link.pulsebreak)
        + (link.pulsemake + link.pulseafter) + rest.count .transmit ∧
      stretch.foldl (Call.beat config) call = idle.dials config (idle.dialler.doDtmf config) ∧
      Idle config link idle keys ∧ Reports call idle (digitSaid (pulses + left)) := by
  have make_pos := timely.make_pos
  have break_pos := timely.break_pos
  have after_pos := timely.after_pos
  have makes : link.pulsemake - 1 + 1 = link.pulsemake := Nat.sub_add_cancel make_pos
  induction left generalizing call pulses schedule with
  | zero =>
    rw [Nat.zero_mul, Nat.zero_add] at enough
    obtain ⟨first, second, rest, cut, make, pause, count, both, -, steady⟩ :=
      @Steady.cut _ (link.pulsemake - 1) (link.pulseafter - 1) _ steady (by omega)
    obtain ⟨idle, ran, waits, reports⟩ := closed.ends timely some (by omega) (by omega) both
    refine ⟨_, rest, idle, cut, steady, ?_, ran, waits, reports⟩
    rw [count, Nat.zero_mul, Nat.zero_add, makes, Nat.sub_add_cancel after_pos]
  | succ left ih =>
    rw [Nat.succ_mul] at enough
    obtain ⟨first, second, later, rfl, make, break_, count, both, near, steady⟩ :=
      @Steady.cut _ (link.pulsemake - 1) (link.pulsebreak - 1) _ steady (by omega)
    obtain ⟨next, ran, another, reports⟩ := closed.pulse timely some (by omega) (by omega) both near
    obtain ⟨stretch, rest, idle, rfl, steady, counted, ran', waits, reports'⟩ :=
      ih another (Nat.succ_ne_zero pulses) steady (by omega)
    refine ⟨_, rest, idle, (List.append_assoc _ _ _).symm, steady, ?_, ?_, waits, ?_, ?_⟩
    · rw [count, counted, Nat.succ_mul]
      omega
    · rw [List.foldl_append, ran, ran']
    · rw [reports'.peer, reports.peer, List.append_nil, Nat.add_right_comm, Nat.add_assoc]
    · rw [reports'.dialler, reports.dialler]

/-- **The rest of a dial string.** -/
theorem DialsOn.number (timely : link.Timely config) {after : Call}
    (on : DialsOn config link call keys after) {schedule : List Beat}
    (steady : Steady link.jitter schedule) (enough : link.dialTime keys ≤ schedule.count .transmit) :
    ∃ final, schedule.foldl (Call.beat config) after = final ∧ Idle config link final [] ∧
      final.dialler.dialing = false ∧
      final.peer.said = call.peer.said ++ heardDigits keys ∧
      final.dialler.events = call.dialler.events ++ [.dialcomplete] := by
  generalize size : keys.length = length
  induction length using Nat.strong_induction_on generalizing call keys after schedule with
  | _ length ih =>
    rcases on with ⟨none, idle, stopped, peer, complete⟩ |
      ⟨key, rest, first, shorter, plain, digit, opened, reports⟩
    · obtain ⟨rests, same, silent⟩ := idle.rests schedule
      refine ⟨_, rfl, rests, by rw [same, stopped], ?_, by rw [same, complete]⟩
      rw [silent, peer, heardDigits, none, List.flatMap_nil, List.append_nil]
    · obtain ⟨some, told⟩ := digitSaid_pulsesOf digit
      obtain ⟨left, pulses_eq⟩ := Nat.exists_eq_add_one_of_ne_zero some.ne'
      have time : link.dialTime keys = link.digitTime key + link.dialTime rest := by
        unfold Link.dialTime
        rw [first, List.map_cons, List.sum_cons]
      have heard : heardDigits keys
          = [.event .pulseStart, .event (.pulsedigit (Char.ofNat key.toNat))] ++ heardDigits rest := by
        unfold heardDigits
        rw [first, List.flatMap_cons]
      have digitTime : link.digitTime key = link.pulsebreak
          + (left * (link.pulsemake + link.pulsebreak) + (link.pulsemake + link.pulseafter)) := by
        unfold Link.digitTime
        rw [pulses_eq]
        ring
      have break_pos := timely.break_pos
      obtain ⟨stretch, later, rfl, count⟩ := exists_ticks
        (show link.pulsebreak - 1 < schedule.count .transmit by omega)
      have near : Near link.jitter (stretch ++ [.transmit]) :=
        steady _ ⟨[], later, List.nil_append _⟩
      have steady' : Steady link.jitter later := steady.part ⟨stretch ++ [.transmit], [], List.append_nil _⟩
      rw [List.count_append, count_transmit_concat, count] at enough
      rw [pulses_eq] at opened
      obtain ⟨middle, ran, closed, started⟩ := opened.closes timely (by omega) near (.inl rfl)
      obtain ⟨rest', beats, idle, rfl, steady, counted, ran', waits, ended⟩ :=
        closed.digit timely (by decide) steady' (by omega)
      obtain ⟨final, ran'', finally_, stopped, said, complete⟩ := ih rest.length (by omega)
        (waits.doDtmf timely plain) steady (by omega) rfl
      refine ⟨final, ?_, finally_, stopped, ?_, ?_⟩
      · rw [List.foldl_append, ran, List.foldl_append, ran', ran'']
      · rw [said, ended.peer, started.peer, reports.peer, heard, Nat.zero_add, Nat.add_comm 1 left,
          ← pulses_eq, told, if_pos rfl]
        simp only [List.append_assoc, List.nil_append, List.cons_append]
      · rw [complete, ended.dialler, started.dialler, reports.dialler]

/-- A channel that may dial with pulses: it is in that mode, or its first key says so. -/
structure Ready (config : Config) (link : Link) (call : Call) (keys : List UInt8) : Prop where
  idle : Idle config link { call with dialler := { call.dialler with digitmode := .pulse } } []
  stopped : call.dialler.dialing = false
  mode : call.dialler.digitmode = .pulse ∨ keys.head? = some keyP

/-- The mode does not matter in front of a `'P'`. -/
theorem Line.dialOn_mode (config : Config) (mode : line.digitmode = .pulse ∨ keys.head? = some keyP) :
    line.dialOn config keys = Line.dialOn config keys { line with digitmode := .pulse } := by
  rcases mode with mode | first
  · rw [← mode]
  · cases keys with
    | nil => exact absurd first nofun
    | cons c rest =>
      obtain rfl : c = keyP := Option.some.inj first
      rfl

/-- `ZT_DIAL` begins the dial string. -/
theorem Ready.dial (ready : Ready config link call keys) {dialstr : List UInt8}
    (keys_eq : keys = (dialstr.take (config.maxDtmfBuf - 1)).map toupper) {op : Line.DialOp}
    (taken : op = .replace ∨ op = .append ∧ keys.length < config.maxDtmfBuf - 1) :
    ∃ line, Idle config link ⟨line, call.peer⟩ keys ∧ line.said = call.dialler.said ∧
      call.dial config op dialstr = Call.dials config ⟨line, call.peer⟩ (line.doDtmf config) := by
  obtain ⟨dialler, peer⟩ := call
  obtain ⟨⟨dials, rxsig, heard, listening⟩, stopped, mode⟩ := ready
  have begins : (dialler.dial config op dialstr).1
      = Line.doDtmf config { dialler with txdialbuf := keys, dialing := true } := by
    rw [keys_eq]
    rcases taken with rfl | ⟨rfl, short⟩
    · rfl
    · have empty : dialler.txdialbuf = [] := dials.keys_eq
      have fits : ¬ ((dialstr.take (config.maxDtmfBuf - 1)).map toupper).length
          + dialler.txdialbuf.length ≥ config.maxDtmfBuf - 1 := by
        rw [keys_eq] at short
        rw [empty, List.length_nil]
        omega
      unfold Line.dial
      dsimp only
      rw [if_neg fits, stopped, empty, List.nil_append, if_neg Bool.false_ne_true]
  obtain ⟨line, line_eq, waits, silent⟩ : ∃ line : Line,
      line = { dialler with txdialbuf := keys, dialing := true, digitmode := .pulse } ∧
      Dials config link line .offhook .offhook 0 0 keys ∧ line.said = dialler.said :=
    ⟨_, rfl, { dials with keys_eq := rfl }, rfl⟩
  have switched : Line.doDtmf config { dialler with txdialbuf := keys, dialing := true }
      = line.doDtmf config := by
    rw [line_eq]
    exact Line.dialOn_mode config mode
  refine ⟨line, ⟨waits, rxsig, heard, listening⟩, silent, ?_⟩
  unfold Call.dial
  rw [begins, switched]
  exact Call.dials_past silent

end

/-! ### A number of one digit -/

/-- A schedule is steady where the dialler's clock is ahead by some ticks at most. -/
theorem steady_of_lead {jitter : Nat} {schedule : List Beat}
    (lead : ∀ part ∈ schedule.inits, part.count .receive ≤ part.count .transmit ∧
      part.count .transmit ≤ part.count .receive + jitter) : Steady jitter schedule := by
  rintro stretch ⟨front, back, rfl⟩
  have before := lead front (by
    rw [List.mem_inits, List.append_assoc]
    exact List.prefix_append _ _)
  have behind := lead (front ++ stretch) (by
    rw [List.mem_inits]
    exact List.prefix_append _ _)
  rw [List.count_append, List.count_append] at behind
  exact ⟨by omega, by omega⟩

/-- A kewlstart line with those times. -/
def shortLink : Link := ⟨.fxsks, .hooksig, 2, 2, 5, 4, 1⟩

end Baps.Zaptel
