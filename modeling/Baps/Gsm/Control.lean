/-
**The GSM driver: call control in the interrupt, and hook signalling.**

`wcfxsGsmControl` is the state machine the interrupt runs for the GSM card, over three variables:
`outgoing_call_state`, `incomming_call_state` and the static `interrupt_count`, which stretches a RING
over two ticks. `hooksig` is `wcfxs_hooksig` of this driver, with its branches for FXO, FXS and GSM
channels. A `Stimulus` is what reaches the driver once it is up: an interrupt, or a hook signal from
zaptel; both run to their end before the next.
-/

import Baps.Wcfxs.Isolation

namespace Baps.Gsm

open Interaction Wcfxs

/-! ### The card cage -/

/-- `port_type[x]`: `'O'`, `'S'`, `'G'` or `'-'`. -/
inductive PortType
  | fxo
  | fxs
  | gsm
  | none
  deriving DecidableEq, Repr

/-- Where the modules are. There is one GSM module, and its `modtype` is that of an FXO card. -/
structure Cage where
  port : Card → PortType
  modtype : Card → ModType
  gsm : Card
  port_gsm : ∀ card, port card = .gsm ↔ card = gsm
  modtype_gsm : modtype gsm = .fxo

/-- The first slot. -/
def firstSlot : Card := ⟨0, by decide⟩

/-! ### Result codes and commands -/

/-- The modem's numeric result codes, and `GSM_receive`'s "nothing". -/
def codeNothing : List UInt8 := [0x78]
def codeOk : List UInt8 := [0x30]
def codeRing : List UInt8 := [0x32]
def codeNoCarrier : List UInt8 := [0x33]
def codeBusy : List UInt8 := [0x37]
def codeNoAnswer : List UInt8 := [0x38]

/-- `"ata"`, `"ath"` and `"atd"`. -/
def commandAnswer : List UInt8 := [0x61, 0x74, 0x61]
def commandHangup : List UInt8 := [0x61, 0x74, 0x68]
def commandDial : List UInt8 := [0x61, 0x74, 0x64]

/-- `GSM_Call_string`: the dial string less its last character, between `"atd"` and `";"`. -/
def gsmCallString (txdialbuf : List UInt8) : List UInt8 :=
  commandDial ++ txdialbuf.dropLast ++ [0x3b]

/-! ### The interrupt -/

section Control

variable (card : Card)

/-- `outgoing_call_state = 0`, and tell zaptel. -/
def endOutgoing : Prog Unit := do
  setCell .outgoingCallState 0
  ztHooksig card .onhook

/-- A number has been dialled: expect an OK. -/
def gsmDialling : Prog Unit := do
  let line ← gsmReceiveLine card
  if line = codeNothing then pure ()
  else if line = codeOk then setCell .outgoingCallState 2
  else endOutgoing card

/-- Outgoing conversation: look for NO CARRIER, BUSY and NO ANSWER. -/
def gsmTalking : Prog Unit := do
  let line ← gsmReceiveLine card
  if line = codeNothing then pure ()
  else if line = codeNoCarrier then endOutgoing card
  else if line = codeBusy then endOutgoing card
  else if line = codeNoAnswer then endOutgoing card
  else pure ()

/-- A RING is signalled at once, and an OFFHOOK on the next tick; `then_` is what else happens with
the OFFHOOK. -/
def ringStretch (line : List UInt8) (then_ : Prog Unit) : Prog Unit := do
  Program.when (line = codeRing) (setCell .interruptCount 2)
  let count ← getCell .interruptCount
  if count = 2 then do
    ztHooksig card .ring
    setCell .interruptCount 1
  else Program.when (count = 1) do
    ztHooksig card .offhook
    setCell .interruptCount 0
    then_

/-- No call: wait for a RING. -/
def gsmWaiting : Prog Unit := do
  let line ← gsmReceiveLine card
  ringStretch card line (setCell .incommingCallState 1)

/-- Ringing, not answered yet. -/
def gsmRinging : Prog Unit := do
  let line ← gsmReceiveLine card
  setTxstate card 1
  if line = codeNoCarrier then do
    setCell .incommingCallState 0
    setCell .interruptCount 0
    ztHooksig card .onhook
  else ringStretch card line (pure ())

/-- Incoming conversation: look for NO CARRIER. -/
def gsmAnswered : Prog Unit := do
  let line ← gsmReceiveLine card
  if line = codeNothing then pure ()
  else Program.when (line = codeNoCarrier) do
    setCell .incommingCallState 0
    ztHooksig card .onhook

/-- `wcfxs_gsm_control`. -/
def wcfxsGsmControl : Prog Unit := do
  let outgoing ← getCell .outgoingCallState
  if outgoing = 1 then gsmDialling card
  else if outgoing = 2 then gsmTalking card
  else do
    let incomming ← getCell .incommingCallState
    if incomming = 0 then gsmWaiting card
    else if incomming = 1 then gsmRinging card
    else Program.when (incomming = 2) (gsmAnswered card)

end Control

/-- The byte `TDM_channel_offset * 8 + 1` of the time slot registers. -/
def slotCount (slot : Int) : UInt8 := UInt8.ofInt (slot * 8 + 1)

/-- The fast re-initialisation of an FXS card, in the slot it was given. -/
def reinitProslic (params : Params) (card : Card) : Prog Int := do
  let slot ← getCell (.slot card)
  wcfxsInitProslic params card (slotCount slot) true true

/-- What the interrupt of this driver does for an installed card. -/
def checkGsmCard (params : Params) (cage : Cage) (card : Card) : Prog Unit :=
  match cage.modtype card with
  | .fxs => wcfxsProslicCheckHook params (reinitProslic params card) card
  | .fxo => if cage.port card ≠ .gsm then wcfxsVoicedaaCheckHook card else wcfxsGsmControl card

/-! ### Hook signalling -/

/-- An OFFHOOK on the GSM channel: answer a ringing call. -/
def gsmOffhook (card : Card) : Prog Unit := do
  let incomming ← getCell .incommingCallState
  Program.when (incomming = 1) do
    setCell .incommingCallState 2
    gsmSendLine card commandAnswer
  fxoStore .offhook card 1

/-- The `switch (txsig)` of `wcfxs_hooksig` on the GSM channel. A START with a dial string places a
call; without one it falls through to OFFHOOK. -/
def gsmSwitch (card : Card) (txdialbuf : List UInt8) : TxSig → Prog Unit
  | .start =>
      if txdialbuf ≠ [] then do
        setRxhooksig card .offhook
        let outgoing ← getCell .outgoingCallState
        let incomming ← getCell .incommingCallState
        Program.when (outgoing = 0 ∧ incomming = 0) do
          gsmSendLine card (gsmCallString txdialbuf)
          setCell .outgoingCallState 1
      else gsmOffhook card
  | .offhook => gsmOffhook card
  | .onhook => do
      let outgoing ← getCell .outgoingCallState
      Program.when (outgoing = 2) do
        gsmSendLine card commandHangup
        setCell .outgoingCallState 0
      fxoStore .offhook card 0
  | .kewl => pure ()

/-- An ONHOOK on an FXS channel ends an answered GSM call. -/
def fxsHangup (card : Card) : Prog Unit := do
  let incomming ← getCell .incommingCallState
  Program.when (incomming = 2) do
    gsmSendLine card commandHangup
    setCell .incommingCallState 0

/-- `wcfxs_hooksig` of this driver. -/
def hooksig (params : Params) (cage : Cage) (card : Card) (txsig : TxSig) (sig : Signalling)
    (txdialbuf : List UInt8) : Prog Unit :=
  match cage.modtype card with
  | .fxs => do
      Program.when (txsig = .onhook) (fxsHangup card)
      fxsLinefeed card sig txsig
      applyLinefeed false card
  | .fxo =>
      if cage.port card ≠ .gsm then fxoHooksig card txsig
      else do
        gsmSwitch card txdialbuf txsig
        applyLinefeed (params.debug ≠ 0) card

/-! ### Runs -/

/-- What reaches the driver: an interrupt, or a hook signal on a channel with the dial string zaptel
keeps for it. -/
inductive Stimulus
  | interrupt
  | hooksig (card : Card) (txsig : TxSig) (sig : Signalling) (txdialbuf : List UInt8)
  deriving DecidableEq, Repr

section Runs

variable (params : Params) (cage : Cage) {σ : Type} (env : Env σ)

/-- The program a stimulus runs. -/
def Stimulus.prog : Stimulus → Prog Unit
  | .interrupt => pollNext (checkGsmCard params cage)
  | .hooksig card txsig sig txdialbuf => Gsm.hooksig params cage card txsig sig txdialbuf

/-- One stimulus. -/
def Stimulus.run (stimulus : Stimulus) (world : World σ) : Option (World σ) :=
  ((stimulus.prog params cage).run (handler env) world).map Prod.snd

/-- Stimuli in order. -/
def runStimuli : List Stimulus → World σ → Option (World σ)
  | [], world => some world
  | stimulus :: rest, world => (stimulus.run params cage env world).bind (runStimuli rest)

/-- No call, and no ring under way. -/
structure Fresh (world : World σ) : Prop where
  outgoing : world.cell .outgoingCallState = 0
  incomming : world.cell .incommingCallState = 0
  count : world.cell .interruptCount = 0

/-- What stimuli can reach from a fresh driver. -/
def Reached (world : World σ) : Prop :=
  ∃ start stimuli, Fresh start ∧ runStimuli params cage env stimuli start = some world

end Runs

end Baps.Gsm
