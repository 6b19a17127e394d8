/-
**The driver's world: its data types, its requests and what answers them.**

A function of the `wcfxs` driver is a `Prog`: an interaction program whose requests are the register
accesses, modem exchanges, clock readings, loads and stores it makes, in order. Two things answer
them: the driver's own memory (`World.mod`, the bytes of `union mod`, and `World.cell`, the other
variables), and the hardware and kernel around it (`Env`), which may answer anything.

Every exchange with the outside is written to `World.log`, in order.
-/

import Baps.Interaction.Program
import Baps.Memory.Flat

namespace Baps.Wcfxs

open Interaction Memory

/-! ### Data types -/

/-- A slot of the card cage: `0 .. NUM_CARDS - 1`. -/
abbrev Card := Fin 8

/-- `wc->modtype[card]`: `MOD_TYPE_FXS` or `MOD_TYPE_FXO`. -/
inductive ModType
  | fxs
  | fxo
  deriving DecidableEq, Repr

/-- `zt_txsig_t`: what zaptel asks the driver to signal. -/
inductive TxSig
  | onhook
  | offhook
  | start
  | kewl
  deriving DecidableEq, Repr

/-- The `zt_rxsig_t` values the driver reports to zaptel. -/
inductive RxSig
  | onhook
  | offhook
  | ring
  deriving DecidableEq, Repr

/-- `chan->sig`, as far as the driver tells signallings apart. -/
inductive Signalling
  | em
  | fxoks
  | fxols
  | fxogs
  | other
  deriving DecidableEq, Repr

/-- `FX_LED_OFF`, `FX_LED_RED` and `FX_LED_GREEN`. -/
inductive FxLed
  | off
  | red
  | green
  deriving DecidableEq, Repr

/-- The two bits of a colour in the LED latch. -/
def FxLed.value : FxLed → Nat
  | .off => 0
  | .red => 1
  | .green => 2

/-- The driver's variables outside `union mod`. `cardflag card` is the card's bit of
`wc->cardflag`, `slot card` is `card2TDMslot_mapping[card]`, `initOk` is `wcfxs_init_ok`. -/
inductive Cell
  | flags (card : Card)
  | cardflag (card : Card)
  | slot (card : Card)
  | intcount
  | initOk
  | usecount
  | outgoingCallState
  | incommingCallState
  | interruptCount
  deriving DecidableEq, Repr

/-- A 16-bit word for the GSM module: `fx_write_SPI2UART`, `fx_read_SPI2UART`,
`fx_program_register_SPI2UART`, and `fx_write_SPI2UART_wo_CS` for its codec. -/
inductive UartAccess
  | write (value : UInt16)
  | read (value : UInt16)
  | program (value : UInt16)
  | codec (value : UInt16)
  deriving DecidableEq, Repr

/-! ### Requests -/

/-- What driver code can ask for. `hang` is a loop that never ends. `returned` asks nothing: it notes
what an initialiser returned, for statements about it. -/
inductive Op
  | setreg (card : Card) (reg value : UInt8)
  | getreg (card : Card) (reg : UInt8)
  | setLed (port : Nat) (colour : FxLed)
  | forgetCard
  | gsmSend (card : Card) (info : List UInt8)
  | gsmReceive (card : Card)
  | uart (card : Card) (access : UartAccess)
  | jiffies
  | waitJustABit (ticks : Nat)
  | copyToUser (data : List Int)
  | ztHooksig (card : Card) (sig : RxSig)
  | ztQeventPolarity (card : Card)
  | setTxstate (card : Card) (state : Int)
  | setRxhooksig (card : Card) (sig : RxSig)
  | loadInt (offset : Nat)
  | storeInt (offset : Nat) (value : Int)
  | loadByte (offset : Nat)
  | storeByte (offset : Nat) (value : UInt8)
  | get (cell : Cell)
  | set (cell : Cell) (value : Int)
  | returned (card : Card) (result : Int)
  | hang

/-- What a request is answered with. -/
abbrev Op.Ans : Op → Type
  | .getreg _ _ => UInt8
  | .gsmReceive _ => List UInt8
  | .uart _ _ => UInt16
  | .jiffies => UInt32
  | .copyToUser _ => Bool
  | .loadInt _ => Int
  | .loadByte _ => UInt8
  | .get _ => Int
  | .hang => Empty
  | _ => Unit

/-- Driver code returning an `α`. -/
abbrev Prog (α : Type) := Program Op Op.Ans α

/-! ### The requests under the names the source calls them by -/

/-- `wcfxs_setreg`. -/
abbrev wcfxsSetreg (card : Card) (reg value : UInt8) : Prog Unit := Program.call (Op.setreg card reg value)

/-- `wcfxs_getreg`. -/
abbrev wcfxsGetreg (card : Card) (reg : UInt8) : Prog UInt8 := Program.call (Op.getreg card reg)

/-- `wcfxs_set_led`. -/
abbrev wcfxsSetLed (port : Nat) (colour : FxLed) : Prog Unit := Program.call (Op.setLed port colour)

/-- `zt_hooksig(&wc->chans[card], sig)`. -/
abbrev ztHooksig (card : Card) (sig : RxSig) : Prog Unit := Program.call (Op.ztHooksig card sig)

/-- `jiffies`. -/
abbrev jiffies : Prog UInt32 := Program.call Op.jiffies

/-- `wait_just_a_bit`. -/
abbrev waitJustABit (ticks : Nat) : Prog Unit := Program.call (Op.waitJustABit ticks)

/-- A variable outside `union mod`. -/
abbrev getCell (cell : Cell) : Prog Int := Program.call (Op.get cell)

/-- Assign a variable outside `union mod`. -/
abbrev setCell (cell : Cell) (value : Int) : Prog Unit := Program.call (Op.set cell value)

/-- `GSM_receive`. -/
abbrev gsmReceiveLine (card : Card) : Prog (List UInt8) := Program.call (Op.gsmReceive card)

/-- `GSM_send`. -/
abbrev gsmSendLine (card : Card) (info : List UInt8) : Prog Unit := Program.call (Op.gsmSend card info)

/-- `wc->chans[card].txstate = state`. -/
abbrev setTxstate (card : Card) (state : Int) : Prog Unit := Program.call (Op.setTxstate card state)

/-- `chan->rxhooksig = sig`. -/
abbrev setRxhooksig (card : Card) (sig : RxSig) : Prog Unit := Program.call (Op.setRxhooksig card sig)

/-- An `int` of `union mod`. -/
abbrev loadInt (offset : Nat) : Prog Int := Program.call (Op.loadInt offset)

/-- Store an `int` into `union mod`. -/
abbrev storeInt (offset : Nat) (value : Int) : Prog Unit := Program.call (Op.storeInt offset value)

/-- A word for the GSM module. -/
abbrev uartAccess (card : Card) (access : UartAccess) : Prog UInt16 := Program.call (Op.uart card access)

/-- A loop that never ends, in place of a result. -/
def hang {α : Type} : Prog α := .ask .hang fun answer => nomatch answer

/-! ### The world -/

/-- One exchange with the outside. -/
inductive Event
  | wrote (card : Card) (reg value : UInt8)
  | read (card : Card) (reg value : UInt8)
  | led (port : Nat) (colour : FxLed)
  | sent (card : Card) (info : List UInt8)
  | received (card : Card) (line : List UInt8)
  | uart (card : Card) (access : UartAccess) (answer : UInt16)
  | signalled (card : Card) (sig : RxSig)
  | polarity (card : Card)
  | txstate (card : Card) (state : Int)
  | rxhooksig (card : Card) (sig : RxSig)
  | copied (data : List Int)
  | returned (card : Card) (result : Int)
  deriving DecidableEq, Repr

/-- The hardware and the kernel: a state, and an answer to every request made of them. -/
structure Env (σ : Type) where
  setreg : Card → UInt8 → UInt8 → σ → σ
  getreg : Card → UInt8 → σ → UInt8 × σ
  setLed : Nat → FxLed → σ → σ
  forgetCard : σ → σ
  gsmSend : Card → List UInt8 → σ → σ
  gsmReceive : Card → σ → List UInt8 × σ
  uart : Card → UartAccess → σ → UInt16 × σ
  jiffies : σ → UInt32 × σ
  waitJustABit : Nat → σ → σ
  copyToUser : List Int → σ → Bool × σ

/-- The driver's memory, the state of the outside, and the exchanges so far. -/
structure World (σ : Type) where
  mod : Bytes
  cell : Cell → Int
  hw : σ
  log : List Event

/-- The exchanges between two worlds of a run. -/
def since {σ : Type} (before after : World σ) : List Event := after.log.drop before.log.length

theorem since_eq {σ : Type} {before after : World σ} {log : List Event}
    (logEq : after.log = before.log ++ log) : since before after = log := by
  rw [since, logEq, List.drop_left]

theorem since_trans {σ : Type} {first middle last : World σ}
    (start : ∃ log, middle.log = first.log ++ log) (finish : ∃ log, last.log = middle.log ++ log) :
    since first last = since first middle ++ since middle last := by
  obtain ⟨log, logEq⟩ := start
  obtain ⟨more, moreEq⟩ := finish
  rw [since_eq logEq, since_eq moreEq]
  exact since_eq (by rw [moreEq, logEq, List.append_assoc])

/-- What answers a request. -/
def handler {σ : Type} (env : Env σ) : Handler Op Op.Ans (World σ)
  | .setreg card reg value, w =>
      some ((), { w with hw := env.setreg card reg value w.hw, log := w.log ++ [.wrote card reg value] })
  | .getreg card reg, w =>
      some ((env.getreg card reg w.hw).1, { w with
        hw := (env.getreg card reg w.hw).2
        log := w.log ++ [.read card reg (env.getreg card reg w.hw).1] })
  | .setLed port colour, w =>
      some ((), { w with hw := env.setLed port colour w.hw, log := w.log ++ [.led port colour] })
  | .forgetCard, w => some ((), { w with hw := env.forgetCard w.hw })
  | .gsmSend card info, w =>
      some ((), { w with hw := env.gsmSend card info w.hw, log := w.log ++ [.sent card info] })
  | .gsmReceive card, w =>
      some ((env.gsmReceive card w.hw).1, { w with
        hw := (env.gsmReceive card w.hw).2
        log := w.log ++ [.received card (env.gsmReceive card w.hw).1] })
  | .uart card access, w =>
      some ((env.uart card access w.hw).1, { w with
        hw := (env.uart card access w.hw).2
        log := w.log ++ [.uart card access (env.uart card access w.hw).1] })
  | .jiffies, w => some ((env.jiffies w.hw).1, { w with hw := (env.jiffies w.hw).2 })
  | .waitJustABit ticks, w => some ((), { w with hw := env.waitJustABit ticks w.hw })
  | .copyToUser data, w =>
      some ((env.copyToUser data w.hw).1, { w with
        hw := (env.copyToUser data w.hw).2, log := w.log ++ [.copied data] })
  | .ztHooksig card sig, w => some ((), { w with log := w.log ++ [.signalled card sig] })
  | .ztQeventPolarity card, w => some ((), { w with log := w.log ++ [.polarity card] })
  | .setTxstate card state, w => some ((), { w with log := w.log ++ [.txstate card state] })
  | .setRxhooksig card sig, w => some ((), { w with log := w.log ++ [.rxhooksig card sig] })
  | .loadInt offset, w => some (readInt w.mod offset, w)
  | .storeInt offset value, w => some ((), { w with mod := writeInt w.mod offset value })
  | .loadByte offset, w => some (w.mod offset, w)
  | .storeByte offset value, w => some ((), { w with mod := write w.mod offset value })
  | .get cell, w => some (w.cell cell, w)
  | .set cell value, w => some ((), { w with cell := Function.update w.cell cell value })
  | .returned card result, w => some ((), { w with log := w.log ++ [.returned card result] })
  | .hang, _ => none

/-! ### What a request changes -/

/-- What a request leaves in `union mod`. -/
def Op.stored : Op → Bytes → Bytes
  | .storeInt offset value, mod => writeInt mod offset value
  | .storeByte offset value, mod => write mod offset value
  | _, mod => mod

/-- What a request leaves in the other variables. -/
def Op.assigned : Op → (Cell → Int) → Cell → Int
  | .set cell value, old => Function.update old cell value
  | _, old => old

/-- The exchange a request is, with its answer. -/
def Op.events : (op : Op) → op.Ans → List Event
  | .setreg card reg value, _ => [.wrote card reg value]
  | .getreg card reg, value => [.read card reg value]
  | .setLed port colour, _ => [.led port colour]
  | .gsmSend card info, _ => [.sent card info]
  | .gsmReceive card, line => [.received card line]
  | .uart card access, answer => [.uart card access answer]
  | .copyToUser data, _ => [.copied data]
  | .ztHooksig card sig, _ => [.signalled card sig]
  | .ztQeventPolarity card, _ => [.polarity card]
  | .setTxstate card state, _ => [.txstate card state]
  | .setRxhooksig card sig, _ => [.rxhooksig card sig]
  | .returned card result, _ => [.returned card result]
  | _, _ => []

/-- **What an answered request changes**, whatever the hardware does. -/
theorem handler_some {σ : Type} {env : Env σ} {op : Op} {world after : World σ} {answer : op.Ans}
    (answered : handler env op world = some (answer, after)) :
    after.mod = op.stored world.mod ∧ after.cell = op.assigned world.cell ∧
      after.log = world.log ++ op.events answer := by
  cases op with
  | hang => exact answer.elim
  | _ =>
    cases Option.some.inj answered
    exact ⟨rfl, rfl, by simp [Op.events]⟩

/-- The exchanges between two worlds satisfy `E`. -/
def Says {σ : Type} (E : Event → Prop) (world after : World σ) : Prop :=
  ∃ log, after.log = world.log ++ log ∧ ∀ event ∈ log, E event

section Says

variable {σ α : Type} {env : Env σ} {E : Event → Prop} {first world after : World σ}

theorem Says.refl (E : Event → Prop) (world : World σ) : Says E world world := ⟨[], by simp, by simp⟩

theorem Says.trans (start : Says E first world) (finish : Says E world after) : Says E first after := by
  obtain ⟨log, logEq, each⟩ := start
  obtain ⟨more, moreEq, eachMore⟩ := finish
  refine ⟨log ++ more, by rw [moreEq, logEq, List.append_assoc], fun event member => ?_⟩
  rcases List.mem_append.mp member with inFirst | inRest
  · exact each event inFirst
  · exact eachMore event inRest

theorem Says.mono {E' : Event → Prop} (spoken : Says E world after)
    (weaker : ∀ event, E event → E' event) : Says E' world after := by
  obtain ⟨log, logEq, each⟩ := spoken
  exact ⟨log, logEq, fun event member => weaker event (each event member)⟩

theorem Says.since (spoken : Says E world after) : ∀ event ∈ since world after, E event := by
  obtain ⟨log, logEq, each⟩ := spoken
  rw [since_eq logEq]
  exact each

theorem Says.grows (spoken : Says E world after) : ∃ log, after.log = world.log ++ log := by
  obtain ⟨log, logEq, -⟩ := spoken
  exact ⟨log, logEq⟩

theorem Says.step {op : Op} {answer : op.Ans} (each : ∀ event ∈ op.events answer, E event)
    (answered : handler env op world = some (answer, after)) : Says E world after :=
  ⟨_, (handler_some answered).2.2, each⟩

/-- A program says what its requests say. -/
theorem Says.of_every {P : Op → Prop} {program : Prog α}
    (each : ∀ op, P op → ∀ (answer : op.Ans), ∀ event ∈ op.events answer, E event)
    (every : program.Every P) : Program.Respects (handler env) (Says E) program := fun _ _ _ ran =>
  every.run_rel (Says.refl E) Says.trans
    (fun op holds _ answer _ answered => Says.step (each op holds answer) answered) ran

/-- A run only adds to the log. -/
theorem run_log {program : Prog α} {value : α}
    (ran : program.run (handler env) world = some (value, after)) :
    ∃ log, after.log = world.log ++ log := by
  have spoken : Says (fun _ => True) world after :=
    Says.of_every (fun _ _ _ _ _ => trivial) (Program.Every.trivially program) _ _ _ ran
  exact spoken.grows

end Says

/-- Every request but `hang` is answered. -/
theorem handler_answers {σ : Type} {env : Env σ} (op : Op) (ends : op ≠ .hang) (world : World σ) :
    ∃ result, handler env op world = some result := by
  cases op with
  | hang => exact absurd rfl ends
  | _ => exact ⟨_, rfl⟩

/-! ### Requests that always end -/

section Ends

variable {σ : Type} {env : Env σ} {world : World σ}

@[simp] theorem ends_get {cell : Cell} {Q : Int → World σ → Prop} :
    Program.Ends (handler env) (getCell cell) world Q ↔ Q (world.cell cell) world :=
  Program.ends_call rfl

@[simp] theorem ends_set {cell : Cell} {value : Int} {Q : Unit → World σ → Prop} :
    Program.Ends (handler env) (setCell cell value) world Q ↔
      Q () { world with cell := Function.update world.cell cell value } :=
  Program.ends_call rfl

@[simp] theorem ends_setreg {card : Card} {reg value : UInt8} {Q : Unit → World σ → Prop} :
    Program.Ends (handler env) (wcfxsSetreg card reg value) world Q ↔
      Q () { world with
        hw := env.setreg card reg value world.hw, log := world.log ++ [.wrote card reg value] } :=
  Program.ends_call rfl

@[simp] theorem ends_getreg {card : Card} {reg : UInt8} {Q : UInt8 → World σ → Prop} :
    Program.Ends (handler env) (wcfxsGetreg card reg) world Q ↔
      Q (env.getreg card reg world.hw).1 { world with
        hw := (env.getreg card reg world.hw).2
        log := world.log ++ [.read card reg (env.getreg card reg world.hw).1] } :=
  Program.ends_call rfl

@[simp] theorem ends_setLed {port : Nat} {colour : FxLed} {Q : Unit → World σ → Prop} :
    Program.Ends (handler env) (wcfxsSetLed port colour) world Q ↔
      Q () { world with hw := env.setLed port colour world.hw, log := world.log ++ [.led port colour] } :=
  Program.ends_call rfl

@[simp] theorem ends_gsmSend {card : Card} {info : List UInt8} {Q : Unit → World σ → Prop} :
    Program.Ends (handler env) (gsmSendLine card info) world Q ↔
      Q () { world with hw := env.gsmSend card info world.hw, log := world.log ++ [.sent card info] } :=
  Program.ends_call rfl

@[simp] theorem ends_gsmReceive {card : Card} {Q : List UInt8 → World σ → Prop} :
    Program.Ends (handler env) (gsmReceiveLine card) world Q ↔
      Q (env.gsmReceive card world.hw).1 { world with
        hw := (env.gsmReceive card world.hw).2
        log := world.log ++ [.received card (env.gsmReceive card world.hw).1] } :=
  Program.ends_call rfl

@[simp] theorem ends_ztHooksig {card : Card} {sig : RxSig} {Q : Unit → World σ → Prop} :
    Program.Ends (handler env) (ztHooksig card sig) world Q ↔
      Q () { world with log := world.log ++ [.signalled card sig] } :=
  Program.ends_call rfl

@[simp] theorem ends_setTxstate {card : Card} {state : Int} {Q : Unit → World σ → Prop} :
    Program.Ends (handler env) (setTxstate card state) world Q ↔
      Q () { world with log := world.log ++ [.txstate card state] } :=
  Program.ends_call rfl

@[simp] theorem ends_setRxhooksig {card : Card} {sig : RxSig} {Q : Unit → World σ → Prop} :
    Program.Ends (handler env) (setRxhooksig card sig) world Q ↔
      Q () { world with log := world.log ++ [.rxhooksig card sig] } :=
  Program.ends_call rfl

@[simp] theorem ends_loadInt {offset : Nat} {Q : Int → World σ → Prop} :
    Program.Ends (handler env) (loadInt offset) world Q ↔
      Q (readInt world.mod offset) world :=
  Program.ends_call rfl

@[simp] theorem ends_storeInt {offset : Nat} {value : Int} {Q : Unit → World σ → Prop} :
    Program.Ends (handler env) (storeInt offset value) world Q ↔
      Q () { world with mod := writeInt world.mod offset value } :=
  Program.ends_call rfl

end Ends

end Baps.Wcfxs
