/-
**Starting the GSM module, and giving every card its time slot.**

`initializeGsmModule` starts the UART bridge, the codec and the modem. `wcfxsHardwareInit` is the part
of `wcfxs_hardware_init` after detection: it initialises every module found, hands out the time slots
of the TDM frame from a running counter, and publishes each card in `wc->cardflag` and
`card2TDMslot_mapping`. The interrupt that copies the samples runs all the while.

The loops of `init_GSM` that wait for an answer of the modem have no bound in the source; here they
are given `Params.fuel` rounds and hang when they need more.
-/

import Baps.Gsm.Control

namespace Baps.Gsm

open Interaction Wcfxs

/-! ### The bridge and the codec -/

section Bridge

variable (card : Card)

/-- A row of accesses to the bridge. The row ends at the first register that does not hold. -/
def uartRow : List UartAccess → Prog Int
  | [] => pure 0
  | .program value :: rest => do
      let ret ← uartAccess card (.program value)
      if ret ≠ 0 then pure 1 else uartRow rest
  | access :: rest => do
      let _ ← uartAccess card access
      uartRow rest

/-- `init_SC16IS750`: LCR, DLL, DLM, LCR, EFR, LCR, MCR, TCR, FCR, IER, FCR, IOState and IODir. -/
def initSC16IS750 : Prog Int := uartRow card
  [.program 0x1880, .program 0x0006, .program 0x0800, .program 0x18BF, .program 0x10D0,
   .program 0x1803, .program 0x2004, .program 0x301E, .write 0x10c6, .program 0x0801, .write 0x1007,
   .write 0x5825, .program 0x5025]

/-- A codec word, and `Codec_reg_data_latch`: lower and raise the codec's select. -/
def codecRegister (value : UInt16) : Prog Unit := do
  let _ ← uartAccess card (.codec value)
  let _ ← uartAccess card (.write 0x5821)
  let _ ← uartAccess card (.write 0x5825)
  pure ()

/-- `init_WM8510`. -/
def initWM8510 : Prog Unit :=
  ([0x000F, 0x020F, 0x4138, 0x16D0, 0x1D08, 0x420B, 0x4532, 0x4608, 0x3032, 0x3270, 0x0818, 0x0C00,
    0x0A14, 0x0E0A, 0x1408, 0x0415, 0x5F00, 0x6401, 0x7040, 0x0665] : List UInt16).forM
    (codecRegister card)

end Bridge

/-! ### The modem -/

/-- The bytes of a string. -/
def text (string : String) : List UInt8 := string.toList.map fun char => UInt8.ofNat char.toNat

section Modem

variable (params : Params) (card : Card)

/-- Send a command, wait, and read the answer. -/
def askModem (command : List UInt8) (ticks : Nat) : Prog (List UInt8) := do
  gsmSendLine card command
  waitJustABit ticks
  gsmReceiveLine card

/-- `do ... while (strcmp(p2char, expected) != 0 && (--cntr > 0))`, with the rounds left after this
one. -/
def askUpTo (command expected : List UInt8) (ticks : Nat) : Nat → Prog Unit
  | 0 => do
      let _ ← askModem card command ticks
      pure ()
  | left + 1 => do
      let line ← askModem card command ticks
      if line ≠ expected then askUpTo command expected ticks left else pure ()

/-- `do ... while (strcmp(p2char, "0") != 0)`. -/
def askUntilOk (command : List UInt8) (ticks : Nat) : Nat → Prog Unit
  | 0 => hang
  | fuel + 1 => do
      let line ← askModem card command ticks
      if line ≠ codeOk then askUntilOk command ticks fuel else pure ()

/-- Is `VDD_EXT` high? -/
def modemOn : Prog Bool := do
  let reg ← uartAccess card (.read 0xd800)
  pure (reg &&& 0x0002 ≠ 0)

/-- Power a modem down that is on: `1` if it stays on. -/
def modemOff : Prog Int := do
  let on ← modemOn card
  if on then do
    askUpTo card (text "at+cpowd=1") (text "NORMAL POWER DOWN") (7 * params.hz.toNat) 2
    let on ← modemOn card
    if on then pure 1
    else do
      waitJustABit params.hz.toNat
      pure 0
  else pure 0

/-- Press the power key: `1` if the modem stays off. -/
def modemStart : Prog Int := do
  let _ ← uartAccess card (.write 0x5824)
  waitJustABit (3 * params.hz.toNat)
  let _ ← uartAccess card (.write 0x5825)
  waitJustABit params.hz.toNat
  let on ← modemOn card
  pure (if on then 0 else 1)

/-- Autobauding, no echo, numeric result codes, verbose errors. -/
def modemGreet : Prog Unit := do
  let _ ← askModem card (text "at") params.hz.toNat
  askUpTo card (text "ate0") (text "OK") (params.hz.toNat / 10) 2
  askUpTo card (text "atv0") codeOk (params.hz.toNat / 10) 2
  askUpTo card (text "at+cmee=2") codeOk (params.hz.toNat / 10) 2

/-- Enter the PIN until it is taken, or refused. -/
def enterPin (simEnterString : List UInt8) : Nat → Prog Int
  | 0 => hang
  | fuel + 1 => do
      let line ← askModem card simEnterString (3 * params.hz.toNat)
      if line = text "+CME ERROR: incorrect password" then pure 1
      else if line ≠ codeOk then enterPin simEnterString fuel
      else pure 0

/-- The SIM card: enter its PIN if it asks for one. -/
def checkSim (simEnterString : List UInt8) : Prog Int := do
  let line ← askModem card (text "at+cpin?") (params.hz.toNat / 2)
  if line = text "+CPIN: SIM PIN" then enterPin params card simEnterString params.fuel
  else if line = text "+CME ERROR: SIM not inserted" then pure 1
  else if line = text "+CPIN: READY" then pure 0
  else pure 1

/-- Result codes and audio levels. -/
def modemSettle : Prog Unit :=
  (["atx4", "at+cmic=0,0", "at+sidet=0", "at+echo=5000,5,4,0", "at+clvl=90"] : List String).forM
    fun command => askUntilOk card (text command) (params.hz.toNat / 10) params.fuel

/-- `init_GSM`. -/
def initGSM (simEnterString : List UInt8) : Prog Int := do
  let stuck ← modemOff params card
  if stuck ≠ 0 then pure 1
  else do
    let dead ← modemStart params card
    if dead ≠ 0 then pure 1
    else do
      modemGreet params card
      let locked ← checkSim params card simEnterString
      if locked ≠ 0 then pure 1
      else do
        waitJustABit (10 * params.hz.toNat)
        modemSettle params card
        pure 0

/-- `Initialize_GSM_module`. -/
def initializeGsmModule (simEnterString : List UInt8) : Prog Int := do
  let ret ← initSC16IS750 card
  if ret ≠ 0 then pure 1
  else do
    initWM8510 card
    let ret ← initGSM params card simEnterString
    if ret ≠ 0 then pure 1 else pure 0

end Modem

/-! ### Time slots -/

section Slots

variable (params : Params) (simEnterString : List UInt8) (port : Card → PortType)

/-- Run an initialiser, and note what it returns. -/
def noted (card : Card) (initialise : Prog Int) : Prog Int := do
  let ret ← initialise
  Program.call (Op.returned card ret)
  pure ret

/-- The GSM module takes the first two time slots, if there is one and it starts: the loop over the
ports, up to the first module that does. Returns `TDM_channel_offset`. -/
def placeGsm : List Card → Prog Int
  | [] => pure 0
  | x :: rest =>
      if port x = .gsm then do
        let ret ← noted x (initializeGsmModule params x simEnterString)
        if ret = 0 then do
          setCell (.slot x) 0
          setCell (.cardflag x) 1
          pure 2
        else placeGsm rest
      else placeGsm rest

/-- An FXO port: it takes a time slot whether it is installed or not. -/
def placeFxo (x : Card) (offset : Int) : Prog Int := do
  let ret ← noted x (wcfxsInitVoicedaa params x (slotCount offset) false)
  Program.when (ret = 0) do
    setCell (.cardflag x) 1
    setCell (.slot x) offset
  pure (offset + 1)

/-- Publish an FXS card that has been initialised; the debugging read is of `LOOP_I_LIMIT`. -/
def publishFxs (x : Card) (offset : Int) : Prog Int := do
  setCell (.cardflag x) 1
  setCell (.slot x) offset
  Program.when (params.debug ≠ 0) (getregs x [params.regs.loopILimit])
  pure (offset + 1)

/-- An FXS port: a second attempt if the first fails on a sane chip, and a time slot only if one of
them succeeds. -/
def placeFxs (x : Card) (offset : Int) : Prog Int := do
  let ret ← noted x (wcfxsInitProslic params x (slotCount offset) false false)
  if ret = 0 then publishFxs params x offset
  else if ret ≠ -2 then do
    let ret ← noted x (wcfxsInitProslic params x (slotCount offset) false true)
    if ret = 0 then publishFxs params x offset else pure offset
  else pure offset

/-- One port: `TDM_channel_offset` after it. -/
def placeCard (x : Card) (offset : Int) : Prog Int :=
  match port x with
  | .fxo => placeFxo params x offset
  | .fxs => placeFxs params x offset
  | _ => pure offset

/-- The loop over the ports. -/
def placeCards : List Card → Int → Prog Int
  | [], offset => pure offset
  | x :: rest, offset => do
      let offset ← placeCard params port x offset
      placeCards rest offset

/-- `memset(card2TDMslot_mapping, -1, sizeof(card2TDMslot_mapping))`. -/
def clearSlots : Prog Unit := (List.finRange 8).forM fun x => setCell (.slot x) (-1)

/-- `wcfxs_hardware_init` from the mapping on, with the port types that detection found. It fails if
no card is installed, unless only the timing is wanted. -/
def wcfxsHardwareInit (timingonly : Bool) : Prog Int := do
  clearSlots
  let offset ← placeGsm params simEnterString port (List.finRange 8)
  let _ ← placeCards params port (List.finRange 8) offset
  let flags ← (List.finRange 8).mapM fun x => getCell (.cardflag x)
  pure (if (∀ flag ∈ flags, flag = 0) ∧ ¬ timingonly then -1 else 0)

end Slots

end Baps.Gsm
