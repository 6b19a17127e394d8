/-
**Hook switch polling, hook signalling, ioctls and close.**

The entry points of the driver after initialisation: the interrupt (`pollNext`, the polling half of
`regular_interrupt_processing`; the other half moves speech samples), and what zaptel calls through
the span (`wcfxsHooksig`, `wcfxsIoctl`, `wcfxsClose`).

`Local modtype card` is what all of them have in common: they talk to the registers, the LED and the
channel of the one card they are called for, and store only into the bytes that card owns in
`union mod` under its module type.
-/

import Baps.Wcfxs.Voicedaa

namespace Baps.Wcfxs

open Interaction Memory

/-! ### Polling -/

/-- `wcfxs_proslic_check_hook`; `reinit` is the fast re-initialisation of the card. -/
def wcfxsProslicCheckHook (params : Params) (reinit : Prog Int) (card : Card) : Prog Unit := do
  let res ← wcfxsGetreg card 68
  let hook : Int := (res &&& 1).toNat
  let lastrxhook ← fxsLoad .lastrxhook card
  (if hook ≠ lastrxhook then fxsStore .debounce card (8 * (4 * 8))
  else do
    let debounce ← fxsLoad .debounce card
    Program.when (debounce > 0) do
      fxsStore .debounce card (debounce - 4 * 8)
      let debounce ← fxsLoad .debounce card
      Program.when (debounce = 0) (fxsStore .debouncehook card hook)
      let oldrxhook ← fxsLoad .oldrxhook card
      let debouncehook ← fxsLoad .debouncehook card
      if oldrxhook = 0 ∧ debouncehook ≠ 0 then do
        ztHooksig card .offhook
        Program.when params.robust do
          let _ ← reinit
          pure ()
        fxsStore .oldrxhook card 1
      else Program.when (oldrxhook ≠ 0 ∧ debouncehook = 0) do
        ztHooksig card .onhook
        fxsStore .oldrxhook card 0)
  fxsStore .lastrxhook card hook

/-- The time slot count `card * 8` that the base driver programs. -/
def cardTimeslot (card : Card) : UInt8 := UInt8.ofNat (card.val * 8)

/-- What the interrupt does for an installed card. -/
def checkCard (params : Params) (modtype : Card → ModType) (card : Card) : Prog Unit :=
  match modtype card with
  | .fxs => wcfxsProslicCheckHook params
      (wcfxsInitProslic params card (cardTimeslot card) true true) card
  | .fxo => wcfxsVoicedaaCheckHook card

/-- The card whose turn it is: `x = wc->intcount % NUM_CARDS`. -/
def turn (intcount : Int) : Card := ⟨intcount.toNat % 8, Nat.mod_lt _ (by decide)⟩

/-- The polling half of `regular_interrupt_processing`: count the interrupt, and check the card
whose turn it is, once the chips are initialised and if it is installed. -/
def pollNext (check : Card → Prog Unit) : Prog Unit := do
  let intcount ← getCell .intcount
  let intcount := (intcount + 1) % 4294967296
  setCell .intcount intcount
  let initOk ← getCell .initOk
  let card := turn intcount
  let present ← getCell (.cardflag card)
  Program.when (initOk ≠ 0 ∧ present ≠ 0) (check card)

/-- A world with one more interrupt counted. -/
def counted {σ : Type} (world : World σ) : World σ :=
  { world with
    cell := Function.update world.cell .intcount ((world.cell .intcount + 1) % 4294967296) }

/-- The card whose turn the next interrupt is. -/
def nextTurn {σ : Type} (world : World σ) : Card :=
  turn ((world.cell .intcount + 1) % 4294967296)

/-- The card an interrupt polls, if it polls one. -/
def Polls {σ : Type} (world : World σ) (card : Card) : Prop :=
  nextTurn world = card ∧ world.cell .initOk ≠ 0 ∧ world.cell (.cardflag card) ≠ 0

theorem ends_pollNext {σ : Type} {env : Env σ} {check : Card → Prog Unit} {world : World σ}
    {Q : Unit → World σ → Prop} : Program.Ends (handler env) (pollNext check) world Q ↔
      if world.cell .initOk ≠ 0 ∧ world.cell (.cardflag (nextTurn world)) ≠ 0 then
        Program.Ends (handler env) (check (nextTurn world)) (counted world) Q
      else Q () (counted world) := by
  simp only [pollNext, Program.ends_bind, ends_get, ends_set, Program.ends_when, ne_eq, reduceCtorEq,
    not_false_eq_true, Function.update_of_ne, counted, nextTurn]
  rfl

/-! ### Hook signalling -/

/-- `wcfxs_hooksig` on an FXO channel. -/
def fxoHooksig (card : Card) : TxSig → Prog Unit
  | .start | .offhook => do
      fxoStore .offhook card 1
      wcfxsSetreg card 5 0x9
  | .onhook => do
      fxoStore .offhook card 0
      wcfxsSetreg card 5 0x8
  | .kewl => pure ()

/-- `lasttxhook = idletxhookstate`. -/
def idleLinefeed (card : Card) : Prog Unit := do
  let idle ← fxsLoad .idletxhookstate card
  fxsStore .lasttxhook card idle

/-- The `switch (txsig)` of `wcfxs_hooksig` on an FXS channel: the LED, and the line feed to set. -/
def fxsLinefeed (card : Card) (sig : Signalling) : TxSig → Prog Unit
  | .onhook => do
      wcfxsSetLed (card.val + 1) .green
      match sig with
      | .em | .fxoks | .fxols => idleLinefeed card
      | .fxogs => fxsStore .lasttxhook card 3
      | .other => pure ()
  | .offhook => do
      wcfxsSetLed (card.val + 1) .green
      match sig with
      | .em => fxsStore .lasttxhook card 5
      | _ => idleLinefeed card
  | .start => do
      wcfxsSetLed (card.val + 1) .red
      fxsStore .lasttxhook card 4
  | .kewl => fxsStore .lasttxhook card 0

/-- Write `lasttxhook` to the line feed register, after a debugging read. -/
def applyLinefeed (debugRead : Bool) (card : Card) : Prog Unit := do
  Program.when debugRead (getregs card [64])
  let lasttxhook ← fxsLoad .lasttxhook card
  wcfxsSetreg card 64 (UInt8.ofInt lasttxhook)

/-- `wcfxs_hooksig` of the base driver. -/
def wcfxsHooksig (params : Params) (modtype : Card → ModType) (card : Card) (txsig : TxSig)
    (sig : Signalling) : Prog Unit :=
  match modtype card with
  | .fxo => fxoHooksig card txsig
  | .fxs => do
      fxsLinefeed card sig txsig
      applyLinefeed (params.debug ≠ 0) card

/-! ### Ioctls and close -/

/-- The ioctls of `wcfxs_ioctl`. A user pointer is what reading through it gives, `none` a fault. -/
inductive Ioctl
  | onhookTransfer (data : Option Int)
  | getStats
  | getRegs
  | setReg (data : Option (Bool × UInt8 × UInt16))
  | unknown

/-- `-EINVAL`, `-EFAULT` and `-ENOTTY`. -/
def einval : Int := -22
def efault : Int := -14
def enotty : Int := -25

/-- Read a row of registers, keeping the values. -/
def readRow (card : Card) : List UInt8 → Prog (List Int)
  | [] => pure []
  | reg :: rest => do
      let value ← wcfxsGetreg card reg
      let values ← readRow card rest
      pure ((value.toNat : Int) :: values)

/-- Read a row of indirect registers, keeping the values. -/
def readIndirectRow (params : Params) (card : Card) : List UInt8 → Prog (List Int)
  | [] => pure []
  | address :: rest => do
      let value ← wcfxsProslicGetregIndirect params card address
      let values ← readIndirectRow params card rest
      pure (((UInt16.ofInt value).toNat : Int) :: values)

/-- Hand a result to user space. -/
def copyOut (data : List Int) : Prog Int := do
  let fault ← Program.call (Op.copyToUser data)
  pure (if fault then efault else 0)

/-- `wcfxs_ioctl`. -/
def wcfxsIoctl (params : Params) (modtype : Card → ModType) (card : Card) : Ioctl → Prog Int
  | .onhookTransfer data =>
      if modtype card ≠ .fxs then pure einval
      else match data with
        | none => pure efault
        | some x => do
            fxsStore .ohttimer card (x * 8)
            Program.when (params.lowpower < 2) do
              fxsStore .idletxhookstate card 0x2
              let lasttxhook ← fxsLoad .lasttxhook card
              Program.when (lasttxhook = 0x1) do
                fxsStore .lasttxhook card 0x2
                let lasttxhook ← fxsLoad .lasttxhook card
                wcfxsSetreg card 64 (UInt8.ofInt lasttxhook)
            pure 0
  | .getStats => do
      let values ← (match modtype card with
        | .fxs => do
            let volts ← readRow card [80, 81, 82]
            pure (volts.map (· * -376))
        | .fxo => do
            let volts ← readRow card [29, 29, 29]
            pure (volts.map fun volt => (UInt8.ofInt volt).toInt8.toInt * 1000))
      copyOut values
  | .getRegs => do
      let indirect ← (match modtype card with
        | .fxs => readIndirectRow params card ((List.range 105).map UInt8.ofNat)
        | .fxo => pure (List.replicate 105 0))
      let direct ← (match modtype card with
        | .fxs => readRow card ((List.range 109).map UInt8.ofNat)
        | .fxo => do
            let values ← readRow card ((List.range 60).map UInt8.ofNat)
            pure (values ++ List.replicate 49 0))
      copyOut (direct ++ indirect)
  | .setReg none => pure efault
  | .setReg (some (indirect, reg, val)) =>
      if indirect then
        if modtype card ≠ .fxs then pure einval
        else do
          let _ ← wcfxsProslicSetregIndirect params card reg val
          pure 0
      else do
        wcfxsSetreg card reg val.toUInt8
        pure 0
  | .unknown => pure enotty

/-- `wcfxs_close`. The release of a dead card is left out: nothing in the source sets `wc->dead`. -/
def wcfxsClose (modtype : Card → ModType) (card : Card) : Prog Int := do
  let usecount ← getCell .usecount
  setCell .usecount (usecount - 1)
  Program.when (modtype card = .fxs) (fxsStore .idletxhookstate card 1)
  pure 0

/-! ### Locality -/

/-- A request that stays on one card. -/
def Local (modtype : ModType) (card : Card) : Op → Prop
  | .setreg c _ _ => c = card
  | .getreg c _ => c = card
  | .setLed port _ => port = card.val + 1
  | .ztHooksig c _ => c = card
  | .ztQeventPolarity c => c = card
  | .storeInt offset _ => intCells offset ⊆ cells modtype card
  | .storeByte offset _ => offset ∈ cells modtype card
  | .set cell _ => cell = .flags card ∨ cell = .usecount
  | .gsmSend _ _ => False
  | .gsmReceive _ => False
  | .uart _ _ => False
  | .returned _ _ => False
  | .setTxstate _ _ => False
  | .setRxhooksig _ _ => False
  | _ => True

namespace Local

variable {modtype : ModType} {card : Card}

theorem of_uses {reads writes : List UInt8} (op : Op) (uses : Uses card reads writes op) :
    Local modtype card op := by
  cases op with
  | getreg c reg => exact uses.1
  | setreg c reg value => exact uses.1
  | set cell value => exact .inl uses
  | get _ => trivial
  | jiffies => trivial
  | waitJustABit _ => trivial
  | hang => trivial
  | _ => exact uses.elim

theorem fxo (var : FxoVar) (value : Int) : Local .fxo card (.storeInt (var.offset card) value) :=
  fun _ member => ⟨var, member⟩

theorem fxs (var : FxsVar) (value : Int) : Local .fxs card (.storeInt (var.offset card) value) :=
  fun _ member => .inl ⟨var, member⟩

theorem calregs {x : Nat} (inside : x < 12) (value : UInt8) :
    Local .fxs card (.storeByte (calregsOffset card x) value) :=
  .inr ⟨by simp [calregsOffset], by simp only [calregsOffset]; omega⟩

end Local

end Baps.Wcfxs
