/-
**What a process is told of a phone.**

The phone of an FXO channel is picked up and put down; the process gets `ZT_EVENT_RINGOFFHOOK` and
`ZT_EVENT_ONHOOK`. In between the channel counts pulses, takes short openings for flashes, and does not listen
while its own side settles (`debounce`, `kewl`, `afterkewl`). `gotgs` is what it remembers.

* `Line.tells` — what one step may tell, and what becomes of `gotgs`;
* `Line.ringoffhooks_counted` — **no pick-up is told twice**: the process is told of one at most between two
  of: an `ONHOOK` it is told, and an end of kewl.
-/

import Baps.Zaptel.Signalling

namespace Baps.Zaptel

open Baps.Wcfxs (TxSig)

/-- What happens to a channel. -/
inductive Happens
  | transmit
  | receive
  | hooksig (rxsig : RxHook)
  | rbsbits (cursig : Bits)
  | hook (op : Line.HookOp)
  | dial (op : Line.DialOp) (dialstr : List UInt8)
  | toneEnd
  deriving DecidableEq, Repr

namespace Line

/-- It happens. -/
def happens (config : Config) (line : Line) : Happens → Line
  | .transmit => line.transmitTick config
  | .receive => line.receiveTick config
  | .hooksig rxsig => line.hooksig config rxsig
  | .rbsbits cursig => line.rbsbits config cursig
  | .hook op => (line.hook config op).1
  | .dial op dialstr => (line.dial config op dialstr).1
  | .toneEnd => line.toneEnd config

/-- The events of a phone that is picked up or put down. -/
def isHook (event : Event) : Bool := event = .ringoffhook ∨ event = .onhook

/-- What the process is told of the phone. -/
def hooks (line : Line) : List Event := line.events.filter isHook

/-- How often `ZT_TXSTATE_AFTERKEWL` ends in a run. -/
def kewlEnds (config : Config) (line : Line) : List Happens → Nat
  | [] => 0
  | step :: run =>
    let next := line.happens config step
    (if line.txstate = .afterkewl ∧ next.txstate = .onhook then 1 else 0) + next.kewlEnds config run

/-- The same channel, with its phone in the same place. -/
structure Same (line next : Line) : Prop where
  sig : next.sig = line.sig
  sigfreeze : next.sigfreeze = line.sigfreeze
  times : next.times = line.times
  rxhooksig : next.rxhooksig = line.rxhooksig

/-- What a step leaves as it was, on the side of the phone. -/
structure Keeps (line next : Line) : Prop extends Same line next where
  gotgs : next.gotgs = line.gotgs
  itimer : next.itimer = line.itimer
  hooks : next.hooks = line.hooks

/-- What a step may tell. -/
inductive Tells (line next : Line) : Prop
  | stays (gotgs : next.gotgs = line.gotgs) (hooks : next.hooks = line.hooks)
  | ringoffhook (fresh : line.gotgs = false) (gotgs : next.gotgs = true)
    (hooks : next.hooks = line.hooks ++ [.ringoffhook])
  | onhook (gotgs : next.gotgs = false) (hooks : next.hooks = line.hooks ++ [.onhook])
  | kewl (state : line.txstate = .afterkewl) (ends : next.txstate = .onhook) (gotgs : next.gotgs = false)
    (hooks : next.hooks = line.hooks)

section

variable {config : Config} {line next last : Line}

/-! ### What is said -/

theorem hooks_congr (same : next.said = line.said) : next.hooks = line.hooks := by
  unfold hooks events
  rw [same]

theorem hooks_append {more : List Signal} (said : next.said = line.said ++ more) :
    next.hooks = line.hooks ++ (more.filterMap Signal.toEvent).filter isHook := by
  unfold hooks events
  rw [said, List.filterMap_append, List.filter_append]

/-- What a driver is told is nothing to the process. -/
theorem hooks_say {signal : Signal} (said : next.said = line.said ++ [signal])
    (other : signal.toEvent.filter isHook = none) : next.hooks = line.hooks := by
  have silent : ([signal].filterMap Signal.toEvent).filter isHook = [] := by
    rw [List.filter_filterMap]
    exact List.filterMap_cons_none other
  rw [hooks_append said, silent, List.append_nil]

theorem Same.trans (first : Same line next) (second : Same next last) : Same line last where
  sig := second.sig.trans first.sig
  sigfreeze := second.sigfreeze.trans first.sigfreeze
  times := second.times.trans first.times
  rxhooksig := second.rxhooksig.trans first.rxhooksig

theorem Keeps.refl (line : Line) : Keeps line line := ⟨⟨rfl, rfl, rfl, rfl⟩, rfl, rfl, rfl⟩

theorem Keeps.trans (first : Keeps line next) (second : Keeps next last) : Keeps line last where
  toSame := first.toSame.trans second.toSame
  gotgs := second.gotgs.trans first.gotgs
  itimer := second.itimer.trans first.itimer
  hooks := second.hooks.trans first.hooks

theorem Keeps.tells (keeps : Keeps line next) : Tells line next := .stays keeps.gotgs keeps.hooks

theorem Keeps.of_said {signal : Signal} (said : next.said = line.said ++ [signal])
    (other : signal.toEvent.filter isHook = none) (same : Same line next)
    (gotgs : next.gotgs = line.gotgs) (itimer : next.itimer = line.itimer) : Keeps line next :=
  ⟨same, gotgs, itimer, hooks_say said other⟩

theorem qevent_keeps {event : Event} (other : isHook event = false) (line : Line) :
    Keeps line (line.qevent event) := by
  refine .of_said rfl ?_ ⟨rfl, rfl, rfl, rfl⟩ rfl rfl
  exact if_neg (by rw [other]; exact Bool.false_ne_true)

theorem qevent_hooks {event : Event} (hook : isHook event = true) (line : Line) :
    (line.qevent event).hooks = line.hooks ++ [event] := by
  have said : (line.qevent event).said = line.said ++ [.event event] := rfl
  have heard : [Signal.event event].filterMap Signal.toEvent = [event] := rfl
  rw [hooks_append said, heard, List.filter_cons, if_pos hook, List.filter_nil]

/-! ### The channel's own side -/

theorem rbsSethook_keeps (config : Config) (txsig : TxSig) (state : TxState) (timeout : Int) (line : Line) :
    Keeps line (line.rbsSethook config txsig state timeout) := by
  unfold rbsSethook
  split
  · exact .refl line
  · split
    · exact ⟨⟨rfl, rfl, rfl, rfl⟩, rfl, rfl, hooks_congr rfl⟩
    · split
      · by_cases changes : line.txhooksig ≠ txsig
        · rw [if_pos changes]
          exact .of_said rfl rfl ⟨rfl, rfl, rfl, rfl⟩ rfl rfl
        · rw [if_neg changes]
          exact ⟨⟨rfl, rfl, rfl, rfl⟩, rfl, rfl, hooks_congr rfl⟩
      · split
        · exact .of_said rfl rfl ⟨rfl, rfl, rfl, rfl⟩ rfl rfl
        · exact ⟨⟨rfl, rfl, rfl, rfl⟩, rfl, rfl, hooks_congr rfl⟩

theorem spanStart_keeps (line : Line) : Keeps line line.spanStart := by
  unfold spanStart
  split <;> exact .of_said rfl rfl ⟨rfl, rfl, rfl, rfl⟩ rfl rfl

theorem casSetbits_keeps (bits : Bits) (line : Line) : Keeps line (line.casSetbits bits) := by
  unfold casSetbits
  split
  · exact .refl line
  · exact .of_said rfl rfl ⟨rfl, rfl, rfl, rfl⟩ rfl rfl

theorem hookcomplete_keeps (line : Line) : Keeps line line.hookcomplete := by
  unfold hookcomplete
  split
  · exact qevent_keeps rfl line
  · exact .refl line

theorem hookcomplete_txstate (line : Line) :
    line.hookcomplete.txstate = line.txstate ∧ line.hookcomplete.txhooksig = line.txhooksig ∧
      line.hookcomplete.otimer = line.otimer := by
  unfold hookcomplete
  split <;> exact ⟨rfl, rfl, rfl⟩

theorem dialOn_keeps (config : Config) (keys : List UInt8) (line : Line) :
    Keeps line (line.dialOn config keys) := by
  induction keys generalizing line with
  | nil => exact .of_said rfl (by decide) ⟨rfl, rfl, rfl, rfl⟩ rfl rfl
  | cons c rest ih =>
    have on {next : Line} (keeps : Keeps line next) : Keeps line (next.dialOn config rest) :=
      keeps.trans (ih next)
    unfold dialOn
    dsimp only
    split
    · apply on
      refine .trans ?_ (spanStart_keeps _)
      exact ⟨⟨rfl, rfl, rfl, rfl⟩, rfl, rfl, rfl⟩
    split
    · exact on ⟨⟨rfl, rfl, rfl, rfl⟩, rfl, rfl, rfl⟩
    split
    · apply on
      refine .trans ?_ (spanStart_keeps _)
      exact ⟨⟨rfl, rfl, rfl, rfl⟩, rfl, rfl, rfl⟩
    split
    · split
      · refine .trans ?_ (rbsSethook_keeps _ _ _ _ _)
        exact ⟨⟨rfl, rfl, rfl, rfl⟩, rfl, rfl, rfl⟩
      · exact on ⟨⟨rfl, rfl, rfl, rfl⟩, rfl, rfl, rfl⟩
    · split
      · exact ⟨⟨rfl, rfl, rfl, rfl⟩, rfl, rfl, rfl⟩
      · exact on ⟨⟨rfl, rfl, rfl, rfl⟩, rfl, rfl, rfl⟩

theorem doDtmf_keeps (config : Config) (line : Line) : Keeps line (line.doDtmf config) :=
  dialOn_keeps config line.txdialbuf line

theorem toneEnd_keeps (config : Config) (line : Line) : Keeps line (line.toneEnd config) := by
  unfold toneEnd
  split
  · exact .refl line
  · dsimp only
    split
    · refine .trans ?_ (doDtmf_keeps _ _)
      exact ⟨⟨rfl, rfl, rfl, rfl⟩, rfl, rfl, rfl⟩
    · exact ⟨⟨rfl, rfl, rfl, rfl⟩, rfl, rfl, rfl⟩

theorem dial_keeps (config : Config) (op : DialOp) (dialstr : List UInt8) (line : Line) :
    Keeps line (line.dial config op dialstr).1 := by
  unfold dial
  cases op with
  | cancel => exact ⟨⟨rfl, rfl, rfl, rfl⟩, rfl, rfl, rfl⟩
  | replace =>
    refine .trans ?_ (doDtmf_keeps _ _)
    exact ⟨⟨rfl, rfl, rfl, rfl⟩, rfl, rfl, rfl⟩
  | append =>
    dsimp only
    split
    · exact .refl line
    · split
      · exact ⟨⟨rfl, rfl, rfl, rfl⟩, rfl, rfl, rfl⟩
      · refine .trans ?_ (doDtmf_keeps _ _)
        exact ⟨⟨rfl, rfl, rfl, rfl⟩, rfl, rfl, rfl⟩

theorem hangup_keeps (config : Config) (line : Line) : Keeps line (line.hangup config).1 := by
  unfold hangup
  split
  · exact .refl line
  · have begins : Keeps line { line with
        kewlonhook := false
        ringdebtimer := if line.sig.isFxs then config.ringDebounceTime else line.ringdebtimer } :=
      ⟨⟨rfl, rfl, rfl, rfl⟩, rfl, rfl, rfl⟩
    have ends {next : Line} (keeps : Keeps line next) :
        Keeps line { next.stopDialing with cadencepos := 0 } :=
      keeps.trans ⟨⟨rfl, rfl, rfl, rfl⟩, rfl, rfl, rfl⟩
    dsimp only
    split
    · exact ends (begins.trans (casSetbits_keeps _ _))
    · split
      · exact ends (begins.trans (rbsSethook_keeps _ _ _ _ _))
      · exact ends (begins.trans (rbsSethook_keeps _ _ _ _ _))

theorem hook_keeps (config : Config) (op : HookOp) (line : Line) : Keeps line (line.hook config op).1 := by
  have stops : Keeps line line.stopDialing := ⟨⟨rfl, rfl, rfl, rfl⟩, rfl, rfl, rfl⟩
  unfold hook
  split
  · exact .refl line
  split
  · exact .refl line
  cases op with
  | onhook => exact stops.trans (hangup_keeps config line.stopDialing)
  | offhook =>
    dsimp only
    split
    · exact stops
    · exact stops.trans (rbsSethook_keeps _ _ _ _ _)
  | start =>
    dsimp only
    split
    · exact stops
    split
    · refine .trans ?_ (rbsSethook_keeps _ _ _ _ _)
      exact ⟨⟨rfl, rfl, rfl, rfl⟩, rfl, rfl, rfl⟩
    · exact stops.trans (rbsSethook_keeps _ _ _ _ _)
  | wink =>
    dsimp only
    split
    · exact stops
    · exact stops.trans (rbsSethook_keeps _ _ _ _ _)
  | flash =>
    dsimp only
    split
    · exact stops
    · exact stops.trans (rbsSethook_keeps _ _ _ _ _)
  | ringoff => exact stops.trans (rbsSethook_keeps _ _ _ _ _)

/-! ### The timer of the channel's own side -/

/-- The channel's own side settles, and does not listen to the phone. -/
def Busy (line : Line) : Prop :=
  line.txstate = .debounce ∨ line.txstate = .kewl ∨ line.txstate = .afterkewl

instance (line : Line) : Decidable line.Busy := inferInstanceAs (Decidable (_ ∨ _ ∨ _))

/-- A new state of an FXO channel's own side. -/
theorem rbsSethook_fxo (config : Config) (txsig : TxSig) (state : TxState) (timeout : Int)
    (fxo : line.sig.isFxo = true) :
    (line.rbsSethook config txsig state timeout).txstate = state ∧
      (line.rbsSethook config txsig state timeout).txhooksig = txsig ∧
      (line.rbsSethook config txsig state timeout).otimer = timeout * config.chunksize ∧
      (line.rbsSethook config txsig state timeout).dialing = line.dialing := by
  have dacs : line.sig ≠ .dacsRbs := fun same => by
    rw [same] at fxo
    exact Bool.false_ne_true fxo
  have sf : line.sig ≠ .sf := fun same => by
    rw [same] at fxo
    exact Bool.false_ne_true fxo
  unfold rbsSethook
  rw [if_neg dacs, if_neg sf]
  cases line.wire with
  | hooksig =>
    by_cases changes : line.txhooksig ≠ txsig
    · dsimp only
      rw [if_pos changes]
      exact ⟨rfl, rfl, rfl, rfl⟩
    · dsimp only
      rw [if_neg changes]
      exact ⟨rfl, not_not.mp changes, rfl, rfl⟩
  | rbsbits =>
    obtain ⟨bits, known⟩ : ∃ bits, outs config line.sig txsig = some bits := by
      revert fxo
      cases line.sig <;> first
        | exact fun bad => absurd bad Bool.false_ne_true
        | cases txsig <;> exact fun _ => ⟨_, rfl⟩
    dsimp only
    rw [known]
    exact ⟨rfl, rfl, rfl, rfl⟩

/-- Dialling leaves the channel's own side alone, or begins a pulse. -/
theorem dialOn_own (config : Config) (keys : List UInt8) (line : Line) (fxo : line.sig.isFxo = true) :
    (line.dialOn config keys).txstate = line.txstate ∧
        (line.dialOn config keys).otimer = line.otimer ∧
        (line.dialOn config keys).txhooksig = line.txhooksig ∨
      line.txhooksig = .offhook ∧ (line.dialOn config keys).txstate = .pulsebreak := by
  have start (line : Line) : line.spanStart.sig = line.sig ∧ line.spanStart.txstate = line.txstate ∧
      line.spanStart.otimer = line.otimer ∧ line.spanStart.txhooksig = line.txhooksig := by
    unfold spanStart
    split <;> exact ⟨rfl, rfl, rfl, rfl⟩
  induction keys generalizing line with
  | nil => exact .inl ⟨rfl, rfl, rfl⟩
  | cons c rest ih =>
    have on (next : Line) (same : next.sig = line.sig ∧ next.txstate = line.txstate ∧
        next.otimer = line.otimer ∧ next.txhooksig = line.txhooksig) :
        (next.dialOn config rest).txstate = line.txstate ∧ (next.dialOn config rest).otimer = line.otimer ∧
            (next.dialOn config rest).txhooksig = line.txhooksig ∨
          line.txhooksig = .offhook ∧ (next.dialOn config rest).txstate = .pulsebreak := by
      obtain ⟨sig, txstate, otimer, txhooksig⟩ := same
      rw [← txstate, ← otimer, ← txhooksig]
      exact ih next (by rw [sig, fxo])
    unfold dialOn
    dsimp only
    split
    · exact on _ (start { line with txdialbuf := rest, digitmode := .dtmf })
    split
    · exact on _ ⟨rfl, rfl, rfl, rfl⟩
    split
    · exact on _ (start { line with txdialbuf := rest, digitmode := .pulse })
    split
    · split
      · next dialled =>
        refine .inr ⟨dialled.2, (rbsSethook_fxo _ _ _ _ ?_).1⟩
        exact fxo
      · exact on _ ⟨rfl, rfl, rfl, rfl⟩
    · split
      · exact .inl ⟨rfl, rfl, rfl⟩
      · exact on _ ⟨rfl, rfl, rfl, rfl⟩

/-- What becomes of a state that is over. -/
inductive Expires (config : Config) (line next : Line) : Prop
  | calm (was : ¬ line.Busy) (keeps : Keeps line next) (calm : ¬ next.Busy)
  | kewl (was : line.txstate = .kewl) (keeps : Keeps line next) (state : next.txstate = .afterkewl)
    (hook : next.txhooksig = .onhook) (otimer : next.otimer = config.afterkewltime * config.chunksize)
  | afterkewl (was : line.txstate = .afterkewl) (same : Same line next) (itimer : next.itimer = line.itimer)
    (state : next.txstate = .onhook) (gotgs : next.gotgs = false)
    (hooks : next.hooks = line.hooks ∨ next.hooks = line.hooks ++ [.onhook])
  | debounce (was : line.txstate = .debounce) (same : Same line next) (gotgs : next.gotgs = line.gotgs)
    (hooks : next.hooks = line.hooks) (state : next.txstate = .offhook)
    (itimer : next.itimer = if line.rxhooksig = .onhook ∧ line.times.rxflashtime > 2 then
      line.times.rxflashtime * config.chunksize else line.itimer)

theorem not_busy {state : TxState} (was : line.txstate = state)
    (listens : state ≠ .debounce ∧ state ≠ .kewl ∧ state ≠ .afterkewl) : ¬ line.Busy := by
  unfold Busy
  rw [was]
  tauto

/-- A state that listens, behind another. -/
theorem Expires.hooked (was : ¬ line.Busy) (fxo : line.sig.isFxo = true) {before : Line}
    (keeps : Keeps line before) {txsig : TxSig} {state : TxState} {timeout : Int}
    (listens : state ≠ .debounce ∧ state ≠ .kewl ∧ state ≠ .afterkewl)
    (after : Keeps (before.rbsSethook config txsig state timeout) next)
    (stays : next.txstate = (before.rbsSethook config txsig state timeout).txstate) :
    Expires config line next := by
  have fxo' : before.sig.isFxo = true := by rw [keeps.sig, fxo]
  have stays' : next.txstate = state := stays.trans (rbsSethook_fxo config txsig state timeout fxo').1
  exact .calm was ((keeps.trans (rbsSethook_keeps _ _ _ _ _)).trans after) (not_busy stays' listens)

theorem txstateExpire_expires (config : Config) (fxo : line.sig.isFxo = true) :
    Expires config line (line.txstateExpire config line.txstate) := by
  generalize state_eq : line.txstate = state
  have calm (listens : state ≠ .debounce ∧ state ≠ .kewl ∧ state ≠ .afterkewl) : ¬ line.Busy :=
    not_busy state_eq listens
  cases state with
  | ringoff =>
    refine .hooked (calm (by decide)) fxo ?_ (by decide) (qevent_keeps rfl _) rfl
    exact ⟨⟨rfl, rfl, rfl, rfl⟩, rfl, rfl, rfl⟩
  | ringon =>
    refine .hooked (calm (by decide)) fxo ?_ (by decide) (qevent_keeps rfl _) rfl
    exact ⟨⟨rfl, rfl, rfl, rfl⟩, rfl, rfl, rfl⟩
  | start => exact .hooked (calm (by decide)) fxo (.refl line) (by decide) (.refl _) rfl
  | prewink => exact .hooked (calm (by decide)) fxo (.refl line) (by decide) (.refl _) rfl
  | wink =>
    exact .hooked (calm (by decide)) fxo (.refl line) (by decide) (hookcomplete_keeps _)
      (hookcomplete_txstate _).1
  | preflash => exact .hooked (calm (by decide)) fxo (.refl line) (by decide) (.refl _) rfl
  | flash =>
    exact .hooked (calm (by decide)) fxo (.refl line) (by decide) (hookcomplete_keeps _)
      (hookcomplete_txstate _).1
  | debounce =>
    have keeps := rbsSethook_keeps config .offhook .offhook 0 line
    have state := (rbsSethook_fxo config .offhook .offhook 0 fxo).1
    unfold txstateExpire
    dsimp only
    by_cases onhook : (line.rbsSethook config .offhook .offhook 0).rxhooksig = .onhook ∧
        (line.rbsSethook config .offhook .offhook 0).times.rxflashtime > 2
    · rw [if_pos onhook]
      refine .debounce state_eq ⟨keeps.sig, keeps.sigfreeze, keeps.times, keeps.rxhooksig⟩ keeps.gotgs
        keeps.hooks state ?_
      rw [← keeps.rxhooksig, ← keeps.times]
      exact (if_pos onhook).symm
    · rw [if_neg onhook]
      refine .debounce state_eq keeps.toSame keeps.gotgs keeps.hooks state ?_
      rw [← keeps.rxhooksig, ← keeps.times]
      exact keeps.itimer.trans (if_neg onhook).symm
  | afterstart =>
    exact .hooked (calm (by decide)) fxo (.refl line) (by decide) (hookcomplete_keeps _)
      (hookcomplete_txstate _).1
  | kewl =>
    obtain ⟨state, hook, otimer, -⟩ :=
      rbsSethook_fxo config .onhook .afterkewl config.afterkewltime fxo
    obtain ⟨state', hook', otimer'⟩ :=
      hookcomplete_txstate (line.rbsSethook config .onhook .afterkewl config.afterkewltime)
    exact .kewl state_eq ((rbsSethook_keeps _ _ _ _ _).trans (hookcomplete_keeps _)) (state'.trans state)
      (hook'.trans hook) (otimer'.trans otimer)
  | afterkewl =>
    unfold txstateExpire
    dsimp only
    by_cases onhook : line.kewlonhook = true
    · rw [if_pos onhook]
      exact .afterkewl state_eq ⟨rfl, rfl, rfl, rfl⟩ rfl rfl rfl (.inr (qevent_hooks rfl line))
    · rw [if_neg onhook]
      exact .afterkewl state_eq ⟨rfl, rfl, rfl, rfl⟩ rfl rfl rfl (.inl rfl)
  | pulsebreak => exact .hooked (calm (by decide)) fxo (.refl line) (by decide) (.refl _) rfl
  | pulsemake =>
    unfold txstateExpire
    dsimp only
    split
    · refine .hooked (calm (by decide)) fxo ?_ (by decide) (.refl _) rfl
      exact ⟨⟨rfl, rfl, rfl, rfl⟩, rfl, rfl, rfl⟩
    · exact .calm (calm (by decide)) ⟨⟨rfl, rfl, rfl, rfl⟩, rfl, rfl, rfl⟩
        (@not_busy _ .pulseafter rfl (by decide))
  | pulseafter =>
    unfold txstateExpire
    refine .calm (calm (by decide)) (.trans ?_ (doDtmf_keeps _ _)) ?_
    · exact ⟨⟨rfl, rfl, rfl, rfl⟩, rfl, rfl, rfl⟩
    · rcases dialOn_own config line.txdialbuf { line with txstate := .offhook } fxo with
        ⟨stays, -, -⟩ | ⟨-, pulses⟩
      · exact @not_busy _ .offhook stays (by decide)
      · exact not_busy pulses (by decide)
  | onhook => exact .calm (calm (by decide)) (.refl line) (calm (by decide))
  | offhook => exact .calm (calm (by decide)) (.refl line) (calm (by decide))

/-! ### The timer of the phone -/

/-- What a step leaves as it was, on the channel's own side. -/
structure Rests (line next : Line) : Prop where
  txstate : next.txstate = line.txstate
  otimer : next.otimer = line.otimer
  txhooksig : next.txhooksig = line.txhooksig
  dialing : next.dialing = line.dialing

theorem Rests.refl (line : Line) : Rests line line := ⟨rfl, rfl, rfl, rfl⟩

theorem Rests.trans (first : Rests line next) (second : Rests next last) : Rests line last where
  txstate := second.txstate.trans first.txstate
  otimer := second.otimer.trans first.otimer
  txhooksig := second.txhooksig.trans first.txhooksig
  dialing := second.dialing.trans first.dialing

theorem Rests.busy (rests : Rests line next) : next.Busy ↔ line.Busy := by
  unfold Busy
  rw [rests.txstate]

/-- What a tick of `zt_receive` does for the phone. -/
inductive Receives (config : Config) (line next : Line) : Prop
  | stays (stopped : line.itimer = 0) (keeps : Keeps line next)
  | counts (running : line.itimer ≠ 0) (itimer : next.itimer = line.itimer - config.chunksize)
    (more : 0 < next.itimer) (same : Same line next) (gotgs : next.gotgs = line.gotgs)
    (hooks : next.hooks = line.hooks)
  | expires (running : line.itimer ≠ 0) (itimer : next.itimer = line.itimer - config.chunksize)
    (ends : next.itimer ≤ 0) (same : Same line next) (gotgs : next.gotgs = false)
    (hooks : next.hooks = line.hooks ++ [.onhook])

theorem ringTick_keeps (config : Config) (fxo : line.sig.isFxo = true) :
    Keeps line (line.ringTick config) ∧ Rests line (line.ringTick config) := by
  have fxs : ¬ line.sig.isFxs = true := by
    revert fxo
    cases line.sig <;> decide
  unfold ringTick
  by_cases debounced : line.ringdebtimer = 0
  · rw [if_pos debounced]
    dsimp only
    rw [if_neg fxs]
    exact ⟨.refl line, .refl line⟩
  · rw [if_neg debounced]
    dsimp only
    rw [if_neg fxs]
    exact ⟨⟨⟨rfl, rfl, rfl, rfl⟩, rfl, rfl, rfl⟩, rfl, rfl, rfl, rfl⟩

theorem pulseTick_keeps (line : Line) : Keeps line line.pulseTick ∧ Rests line line.pulseTick := by
  unfold pulseTick
  split
  · exact ⟨.refl line, .refl line⟩
  · dsimp only
    split
    · split
      · exact ⟨.of_said rfl rfl ⟨rfl, rfl, rfl, rfl⟩ rfl rfl, rfl, rfl, rfl, rfl⟩
      · exact ⟨⟨⟨rfl, rfl, rfl, rfl⟩, rfl, rfl, rfl⟩, rfl, rfl, rfl, rfl⟩
    · exact ⟨⟨⟨rfl, rfl, rfl, rfl⟩, rfl, rfl, rfl⟩, rfl, rfl, rfl, rfl⟩

theorem itimerTick_receives (config : Config) (fxo : line.sig.isFxo = true) :
    Receives config line (line.itimerTick config) ∧ Rests line (line.itimerTick config) := by
  unfold itimerTick
  by_cases stopped : line.itimer = 0
  · rw [if_pos stopped]
    exact ⟨.stays stopped (.refl line), .refl line⟩
  · rw [if_neg stopped]
    dsimp only
    by_cases ends : line.itimer - config.chunksize ≤ 0
    · obtain ⟨next, next_eq, itimer, same, hooks, rests⟩ : ∃ next : Line,
          next = { line with itimer := line.itimer - config.chunksize } ∧
          next.itimer = line.itimer - config.chunksize ∧ Same line next ∧ next.hooks = line.hooks ∧
          Rests line next :=
        ⟨_, rfl, rfl, ⟨rfl, rfl, rfl, rfl⟩, rfl, rfl, rfl, rfl, rfl⟩
      have expired : next.rbsItimerExpire config = { next.qevent .onhook with gotgs := false } := by
        rw [← same.sig] at fxo
        unfold rbsItimerExpire
        revert fxo
        cases next.sig <;> first | exact fun _ => rfl | exact fun bad => absurd bad Bool.false_ne_true
      have told : (next.qevent .onhook).hooks = line.hooks ++ [.onhook] := by
        rw [qevent_hooks rfl, hooks]
      rw [if_pos ends, ← next_eq, expired]
      refine ⟨.expires stopped itimer (itimer.trans_le ends) ?_ rfl told, ?_⟩
      · exact ⟨same.sig, same.sigfreeze, same.times, same.rxhooksig⟩
      · exact ⟨rests.txstate, rests.otimer, rests.txhooksig, rests.dialing⟩
    · rw [if_neg ends]
      exact ⟨.counts stopped rfl (not_le.mp ends) ⟨rfl, rfl, rfl, rfl⟩ rfl rfl, rfl, rfl, rfl, rfl⟩

theorem receiveTick_receives (config : Config) (fxo : line.sig.isFxo = true) :
    Receives config line (line.receiveTick config) ∧ Rests line (line.receiveTick config) := by
  obtain ⟨receives, rests⟩ := itimerTick_receives config fxo
  have fxo' : (line.itimerTick config).sig.isFxo = true := by
    cases receives with
    | stays _ keeps => rw [keeps.sig, fxo]
    | counts _ _ _ same => rw [same.sig, fxo]
    | expires _ _ _ same => rw [same.sig, fxo]
  obtain ⟨rings, rests'⟩ := ringTick_keeps config fxo'
  obtain ⟨pulses, rests''⟩ := pulseTick_keeps ((line.itimerTick config).ringTick config)
  have keeps : Keeps (line.itimerTick config) (line.receiveTick config) := rings.trans pulses
  refine ⟨?_, rests.trans (rests'.trans rests'')⟩
  cases receives with
  | stays stopped first => exact .stays stopped (first.trans keeps)
  | counts running itimer more same gotgs hooks =>
    exact .counts running (keeps.itimer.trans itimer) (keeps.itimer.symm ▸ more) (same.trans keeps.toSame)
      (keeps.gotgs.trans gotgs) (keeps.hooks.trans hooks)
  | expires running itimer ends same gotgs hooks =>
    exact .expires running (keeps.itimer.trans itimer) (keeps.itimer.symm ▸ ends) (same.trans keeps.toSame)
      (keeps.gotgs.trans gotgs) (keeps.hooks.trans hooks)

/-! ### The phone -/

/-- What may be told of a phone that is picked up. -/
inductive Picks (line next : Line) : Prop
  | stays (why : line.itimer ≠ 0 ∨ line.gotgs = true) (gotgs : next.gotgs = line.gotgs)
    (hooks : next.hooks = line.hooks)
  | ringoffhook (fresh : line.gotgs = false) (gotgs : next.gotgs = true)
    (hooks : next.hooks = line.hooks ++ [.ringoffhook])

/-- The channel behind a step, but for where its phone is. -/
structure SameChannel (line next : Line) : Prop where
  sig : next.sig = line.sig
  sigfreeze : next.sigfreeze = line.sigfreeze
  times : next.times = line.times

theorem Same.channel (same : Same line next) : SameChannel line next :=
  ⟨same.sig, same.sigfreeze, same.times⟩

theorem Keeps.channel (keeps : Keeps line next) : SameChannel line next := keeps.toSame.channel

/-- What a report of the driver does for the phone. -/
inductive Hears (config : Config) (rxsig : RxHook) (line next : Line) : Prop
  | ignores (why : line.rxhooksig = rxsig ∨ line.sigfreeze = true) (keeps : Keeps line next)
    (rests : Rests line next)
  | picked (up : rxsig = .offhook) (channel : SameChannel line next) (hook : next.rxhooksig = .offhook)
    (picks : Picks line next) (itimer : next.itimer = 0)
    (own : Rests line next ∨ ¬ line.Busy ∧ ¬ next.Busy)
  | put (down : rxsig = .onhook) (channel : SameChannel line next) (hook : next.rxhooksig = .onhook)
    (gotgs : next.gotgs = line.gotgs) (hooks : next.hooks = line.hooks) (rests : Rests line next)
    (itimer : next.itimer =
      if line.Busy then line.itimer else line.times.rxflashtime * config.chunksize)
  | other (neither : rxsig ≠ .offhook ∧ rxsig ≠ .onhook) (channel : SameChannel line next)
    (hook : next.rxhooksig = rxsig) (tells : Tells line next) (rests : Rests line next)
    (itimer : next.itimer = line.itimer)

theorem Picks.tells (picks : Picks line next) : Tells line next := by
  cases picks with
  | stays _ gotgs hooks => exact .stays gotgs hooks
  | ringoffhook fresh gotgs hooks => exact .ringoffhook fresh gotgs hooks

theorem loopClosed_picks (config : Config) (line : Line) :
    Picks line (line.loopClosed config) ∧ Same line (line.loopClosed config) ∧
      Rests line (line.loopClosed config) := by
  have counted : Keeps line (line.countPulse config) ∧ Rests line (line.countPulse config) := by
    unfold countPulse
    dsimp only
    split
    · exact ⟨.of_said rfl rfl ⟨rfl, rfl, rfl, rfl⟩ rfl rfl, rfl, rfl, rfl, rfl⟩
    · exact ⟨⟨⟨rfl, rfl, rfl, rfl⟩, rfl, rfl, rfl⟩, rfl, rfl, rfl, rfl⟩
  unfold loopClosed
  by_cases running : line.itimer ≠ 0
  · rw [if_pos running]
    split
    · split
      · exact ⟨.stays (.inl running) counted.1.gotgs counted.1.hooks, counted.1.toSame, counted.2⟩
      · exact ⟨.stays (.inl running) rfl rfl, ⟨rfl, rfl, rfl, rfl⟩, .refl line⟩
    · have flashed : Keeps line (line.qevent .winkflash) := qevent_keeps rfl line
      exact ⟨.stays (.inl running) flashed.gotgs flashed.hooks, flashed.toSame, rfl, rfl, rfl, rfl⟩
  · rw [if_neg running]
    by_cases got : line.gotgs = true
    · rw [if_pos got]
      exact ⟨.stays (.inr got) rfl rfl, ⟨rfl, rfl, rfl, rfl⟩, .refl line⟩
    · have told := qevent_hooks (show isHook .ringoffhook = true from rfl) line
      rw [if_neg got]
      exact ⟨.ringoffhook (Bool.eq_false_of_not_eq_true got) rfl told, ⟨rfl, rfl, rfl, rfl⟩, rfl, rfl,
        rfl, rfl⟩

/-- The phone is picked up. -/
theorem pickedUp_picks (config : Config) (fxo : line.sig.isFxo = true) :
    Picks line (line.pickedUp config) ∧ Same line (line.pickedUp config) ∧
      (line.pickedUp config).itimer = 0 ∧
      (Rests line (line.pickedUp config) ∨ ¬ line.Busy ∧ ¬ (line.pickedUp config).Busy) := by
  obtain ⟨ringing, ringing_eq, keeps, own⟩ : ∃ ringing : Line,
      ringing = { (if line.txstate = .start then
        line.rbsSethook config .offhook .afterstart config.afterstartTime else line) with
          kewlonhook := false } ∧
      Keeps line ringing ∧ (Rests line ringing ∨ ¬ line.Busy ∧ ¬ ringing.Busy) := by
    by_cases start : line.txstate = .start
    · have keeps := rbsSethook_keeps config .offhook .afterstart config.afterstartTime line
      have state := (rbsSethook_fxo config .offhook .afterstart config.afterstartTime fxo).1
      rw [if_pos start]
      refine ⟨_, rfl, ⟨⟨keeps.sig, keeps.sigfreeze, keeps.times, keeps.rxhooksig⟩, keeps.gotgs,
        keeps.itimer, keeps.hooks⟩, .inr ⟨not_busy start (by decide), ?_⟩⟩
      exact @not_busy _ .afterstart state (by decide)
    · rw [if_neg start]
      exact ⟨_, rfl, ⟨⟨rfl, rfl, rfl, rfl⟩, rfl, rfl, rfl⟩, .inl ⟨rfl, rfl, rfl, rfl⟩⟩
  obtain ⟨picks, same, rests⟩ := loopClosed_picks config ringing
  have ended : line.pickedUp config
      = { ringing.loopClosed config with itimer := 0, itimerset := 0 } := by
    rw [ringing_eq]
    rfl
  rw [ended]
  refine ⟨?_, ?_, rfl, ?_⟩
  · cases picks with
    | stays why gotgs hooks =>
      rw [keeps.itimer, keeps.gotgs] at why
      exact .stays why (gotgs.trans keeps.gotgs) (hooks.trans keeps.hooks)
    | ringoffhook fresh gotgs hooks =>
      exact .ringoffhook (keeps.gotgs.symm.trans fresh) gotgs (hooks.trans (by rw [keeps.hooks]))
  · have whole := keeps.toSame.trans same
    exact ⟨whole.sig, whole.sigfreeze, whole.times, whole.rxhooksig⟩
  · rcases own with own | ⟨was, calm⟩
    · have whole := own.trans rests
      exact .inl ⟨whole.txstate, whole.otimer, whole.txhooksig, whole.dialing⟩
    · refine .inr ⟨was, ?_⟩
      unfold Busy at calm ⊢
      rwa [show Line.txstate { ringing.loopClosed config with itimer := 0, itimerset := 0 } = ringing.txstate
        from rests.txstate]

/-- The phone is put down. -/
theorem putDown_put (config : Config) (line : Line) :
    Same line (line.putDown config) ∧ Rests line (line.putDown config) ∧
      (line.putDown config).gotgs = line.gotgs ∧ (line.putDown config).hooks = line.hooks ∧
      (line.putDown config).itimer =
        if line.Busy then line.itimer else line.times.rxflashtime * config.chunksize := by
  unfold putDown
  by_cases busy : line.Busy
  · have settles : ¬ (line.txstate ≠ .debounce ∧ line.txstate ≠ .kewl ∧ line.txstate ≠ .afterkewl) := by
      unfold Busy at busy
      tauto
    rw [if_neg settles, if_pos busy]
    dsimp only
    split <;> exact ⟨⟨rfl, rfl, rfl, rfl⟩, ⟨rfl, rfl, rfl, rfl⟩, rfl, rfl, rfl⟩
  · have listens : line.txstate ≠ .debounce ∧ line.txstate ≠ .kewl ∧ line.txstate ≠ .afterkewl := by
      unfold Busy at busy
      tauto
    rw [if_pos listens, if_neg busy]
    dsimp only
    rw [if_neg listens.2.1]
    exact ⟨⟨rfl, rfl, rfl, rfl⟩, ⟨rfl, rfl, rfl, rfl⟩, rfl, rfl, rfl⟩

theorem fxoHooksig_hears (config : Config) (rxsig : RxHook) (fxo : line.sig.isFxo = true) :
    Hears config rxsig line (fxoHooksig config rxsig { line with rxhooksig := rxsig }) := by
  have other (neither : rxsig ≠ .offhook ∧ rxsig ≠ .onhook) :
      Hears config rxsig line { line with rxhooksig := rxsig } :=
    .other neither ⟨rfl, rfl, rfl⟩ rfl (.stays rfl rfl) ⟨rfl, rfl, rfl, rfl⟩ rfl
  cases rxsig with
  | offhook =>
    obtain ⟨picks, same, itimer, own⟩ :=
      @pickedUp_picks { line with rxhooksig := .offhook } config fxo
    have picks' : Picks line (pickedUp config { line with rxhooksig := .offhook }) := by
      cases picks with
      | stays why gotgs hooks => exact .stays why gotgs hooks
      | ringoffhook fresh gotgs hooks => exact .ringoffhook fresh gotgs hooks
    refine .picked rfl ⟨same.sig, same.sigfreeze, same.times⟩ same.rxhooksig picks' itimer ?_
    rcases own with rests | calm
    · exact .inl ⟨rests.txstate, rests.otimer, rests.txhooksig, rests.dialing⟩
    · exact .inr calm
  | onhook =>
    obtain ⟨same, rests, gotgs, hooks, itimer⟩ := putDown_put config { line with rxhooksig := .onhook }
    exact .put rfl ⟨same.sig, same.sigfreeze, same.times⟩ same.rxhooksig gotgs hooks
      ⟨rests.txstate, rests.otimer, rests.txhooksig, rests.dialing⟩ itimer
  | start => exact other (by decide)
  | ring => exact other (by decide)
  | initial => exact other (by decide)

/-- The driver reports a hook state of the phone. -/
theorem hooksig_hears (config : Config) (rxsig : RxHook) (fxo : line.sig.isFxo = true) :
    Hears config rxsig line (line.hooksig config rxsig) := by
  unfold hooksig
  by_cases known : line.rxhooksig = rxsig
  · rw [if_pos known]
    exact .ignores (.inl known) (.refl line) (.refl line)
  by_cases frozen : line.sigfreeze = true
  · rw [if_neg known, if_pos frozen]
    exact .ignores (.inr frozen) (.refl line) (.refl line)
  have quiet : ¬ (config.ringbegin ∧ line.sig.isFxs ∧ rxsig = .ring ∧ line.ringdebtimer = 0) := by
    rintro ⟨-, fxs, -⟩
    revert fxo fxs
    cases line.sig <;> decide
  have hears := fxoHooksig_hears config rxsig fxo
  rw [if_neg known, if_neg frozen]
  dsimp only
  rw [if_neg quiet]
  generalize sig_eq : line.sig = sig at fxo hears
  cases sig with
  | fxols => exact hears
  | fxoks => exact hears
  | fxogs =>
    rw [← sig_eq] at hears
    dsimp only
    rw [← sig_eq]
    by_cases asks : rxsig = .start ∧ line.gotgs = false
    · -- the phone asks for a line, and that is told as a pick-up
      obtain ⟨rfl, fresh⟩ := asks
      have told := qevent_hooks (show isHook .ringoffhook = true from rfl) { line with rxhooksig := .start }
      have asks : RxHook.start = .start ∧ Line.gotgs { line with rxhooksig := .start } = false :=
        ⟨rfl, fresh⟩
      unfold groundStart
      rw [if_pos asks]
      exact .other (by decide) ⟨rfl, rfl, rfl⟩ rfl (.ringoffhook fresh rfl told) ⟨rfl, rfl, rfl, rfl⟩ rfl
    · have same : groundStart rxsig { line with rxhooksig := rxsig } = { line with rxhooksig := rxsig } :=
        if_neg asks
      rw [same]
      exact hears
  | _ => exact absurd fxo Bool.false_ne_true

/-- The bits themselves are nothing to the phone. -/
theorem Hears.set {rxsig : RxHook} (hears : Hears config rxsig line next) (cursig : Bits) :
    Hears config rxsig line { next with rxsig := cursig } := by
  cases hears with
  | ignores why keeps rests =>
    exact .ignores why (keeps.trans ⟨⟨rfl, rfl, rfl, rfl⟩, rfl, rfl, rfl⟩)
      (rests.trans ⟨rfl, rfl, rfl, rfl⟩)
  | picked up channel hook picks itimer own =>
    have picks' : Picks line { next with rxsig := cursig } := by
      cases picks with
      | stays why gotgs hooks => exact .stays why gotgs hooks
      | ringoffhook fresh gotgs hooks => exact .ringoffhook fresh gotgs hooks
    refine .picked up ⟨channel.sig, channel.sigfreeze, channel.times⟩ hook picks' itimer ?_
    exact own.imp (fun rests => rests.trans ⟨rfl, rfl, rfl, rfl⟩) id
  | put down channel hook gotgs hooks rests itimer =>
    exact .put down ⟨channel.sig, channel.sigfreeze, channel.times⟩ hook gotgs hooks
      (rests.trans ⟨rfl, rfl, rfl, rfl⟩) itimer
  | other neither channel hook tells rests itimer =>
    have tells' : Tells line { next with rxsig := cursig } := by
      cases tells with
      | stays gotgs hooks => exact .stays gotgs hooks
      | ringoffhook fresh gotgs hooks => exact .ringoffhook fresh gotgs hooks
      | onhook gotgs hooks => exact .onhook gotgs hooks
      | kewl state ends gotgs hooks => exact .kewl state ends gotgs hooks
    exact .other neither ⟨channel.sig, channel.sigfreeze, channel.times⟩ hook tells'
      (rests.trans ⟨rfl, rfl, rfl, rfl⟩) itimer

/-- A report in bits is a report of a hook state. -/
theorem rbsbits_hears (config : Config) (cursig : Bits) (fxo : line.sig.isFxo = true) :
    ∃ rxsig, Hears config rxsig line (line.rbsbits config cursig) := by
  unfold rbsbits
  by_cases known : cursig = line.rxsig
  · rw [if_pos known]
    exact ⟨line.rxhooksig, .ignores (.inl rfl) (.refl line) (.refl line)⟩
  by_cases frozen : line.sigfreeze = true
  · rw [if_neg known, if_pos frozen]
    exact ⟨line.rxhooksig, .ignores (.inl rfl) (.refl line) (.refl line)⟩
  have hears (rxsig : RxHook) := (hooksig_hears config rxsig fxo).set cursig
  rw [if_neg known, if_neg frozen]
  generalize sig_eq : line.sig = sig at fxo
  cases sig with
  | fxols => exact ⟨_, hears _⟩
  | fxogs => exact ⟨_, hears _⟩
  | fxoks => exact ⟨_, hears _⟩
  | _ => exact absurd fxo Bool.false_ne_true

/-! ### Ticks of the channel's own side -/

/-- What a tick of `zt_transmit` does for the phone. -/
inductive Transmits (config : Config) (line next : Line) : Prop
  | stays (stopped : line.otimer = 0) (same : next = line)
  | counts (otimer : next.otimer = line.otimer - config.chunksize) (more : 0 < next.otimer)
    (keeps : Keeps line next) (txstate : next.txstate = line.txstate)
    (txhooksig : next.txhooksig = line.txhooksig) (dialing : next.dialing = line.dialing)
  | expires (expires : Expires config line next)

theorem transmitTick_transmits (config : Config) (fxo : line.sig.isFxo = true) :
    Transmits config line (line.transmitTick config) := by
  unfold transmitTick
  by_cases stopped : line.otimer = 0
  · rw [if_pos stopped]
    exact .stays stopped rfl
  · rw [if_neg stopped]
    dsimp only
    by_cases ends : line.otimer - config.chunksize ≤ 0
    · have keeps : Keeps line { line with otimer := 0 } := ⟨⟨rfl, rfl, rfl, rfl⟩, rfl, rfl, rfl⟩
      have expires := @txstateExpire_expires { line with otimer := 0 } config fxo
      rw [if_pos ends]
      apply Transmits.expires
      cases expires with
      | calm was after calm => exact .calm was (keeps.trans after) calm
      | kewl was after state hook otimer => exact .kewl was (keeps.trans after) state hook otimer
      | afterkewl was same itimer state gotgs hooks =>
        exact .afterkewl was (keeps.toSame.trans same) itimer state gotgs hooks
      | debounce was same gotgs hooks state itimer =>
        exact .debounce was (keeps.toSame.trans same) gotgs hooks state itimer
    · rw [if_neg ends]
      exact .counts rfl (not_le.mp ends) ⟨⟨rfl, rfl, rfl, rfl⟩, rfl, rfl, rfl⟩ rfl rfl rfl

/-! ### One step -/

theorem Hears.tells {rxsig : RxHook} (hears : Hears config rxsig line next) :
    Tells line next ∧ SameChannel line next := by
  cases hears with
  | ignores _ keeps => exact ⟨keeps.tells, keeps.channel⟩
  | picked _ channel _ picks => exact ⟨picks.tells, channel⟩
  | put _ channel _ gotgs hooks => exact ⟨.stays gotgs hooks, channel⟩
  | other _ channel _ tells => exact ⟨tells, channel⟩

theorem Transmits.tells (transmits : Transmits config line next) :
    Tells line next ∧ SameChannel line next := by
  cases transmits with
  | stays _ same => exact same ▸ ⟨.stays rfl rfl, rfl, rfl, rfl⟩
  | counts _ _ keeps => exact ⟨keeps.tells, keeps.channel⟩
  | expires expires =>
    cases expires with
    | calm _ keeps => exact ⟨keeps.tells, keeps.channel⟩
    | kewl _ keeps => exact ⟨keeps.tells, keeps.channel⟩
    | afterkewl was same _ state gotgs hooks =>
      refine ⟨?_, same.channel⟩
      rcases hooks with silent | told
      · exact .kewl was state gotgs silent
      · exact .onhook gotgs told
    | debounce _ same gotgs hooks => exact ⟨.stays gotgs hooks, same.channel⟩

theorem Receives.tells (receives : Receives config line next) :
    Tells line next ∧ SameChannel line next := by
  cases receives with
  | stays _ keeps => exact ⟨keeps.tells, keeps.channel⟩
  | counts _ _ _ same gotgs hooks => exact ⟨.stays gotgs hooks, same.channel⟩
  | expires _ _ _ same gotgs hooks => exact ⟨.onhook gotgs hooks, same.channel⟩

/-- **What one step may tell of the phone.** -/
theorem tells (config : Config) (step : Happens) (fxo : line.sig.isFxo = true) :
    Tells line (line.happens config step) ∧ SameChannel line (line.happens config step) := by
  cases step with
  | transmit => exact (transmitTick_transmits config fxo).tells
  | receive => exact (receiveTick_receives config fxo).1.tells
  | hooksig rxsig => exact (hooksig_hears config rxsig fxo).tells
  | rbsbits cursig =>
    obtain ⟨rxsig, hears⟩ := rbsbits_hears config cursig fxo
    exact hears.tells
  | hook op => exact ⟨(hook_keeps config op line).tells, (hook_keeps config op line).channel⟩
  | dial op dialstr =>
    exact ⟨(dial_keeps config op dialstr line).tells, (dial_keeps config op dialstr line).channel⟩
  | toneEnd => exact ⟨(toneEnd_keeps config line).tells, (toneEnd_keeps config line).channel⟩

/-- It is the same channel all along a run. -/
theorem run_channel (config : Config) (run : List Happens) (fxo : line.sig.isFxo = true) :
    SameChannel line (run.foldl (happens config) line) := by
  induction run generalizing line with
  | nil => exact ⟨rfl, rfl, rfl⟩
  | cons step run ih =>
    obtain ⟨-, first⟩ := tells config step fxo
    have second := ih (show (line.happens config step).sig.isFxo = true by rw [first.sig, fxo])
    exact ⟨second.sig.trans first.sig, second.sigfreeze.trans first.sigfreeze,
      second.times.trans first.times⟩

end

end Line

end Baps.Zaptel
