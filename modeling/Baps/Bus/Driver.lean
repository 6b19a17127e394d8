/-
**The SPI bus: card selection, register access and LEDs, down to the bytes.**

All cards and LED latches share one serial bus. A byte sent with the select line `SPI_NCSB` goes to
the CPLD and chooses what the bytes sent with `SPI_NCSA` go to. The driver remembers its last choice
in `wc->curcard` and chooses again only when the card changes; an LED update makes the choice behind
the driver's back and resets `curcard`.

The functions here are those of `wcfxs.c` and `fx.c`, over any `Wire`.
-/

import Baps.Wcfxs.World

namespace Baps.Bus

open Wcfxs

/-- The two select lines. -/
inductive Select
  | ncsa
  | ncsb
  deriving DecidableEq, Repr

/-- What is at the other end of the bus: `sport_tx_byte`, `sport_rx_byte` and `bfsi_reset`. -/
structure Wire (β : Type) where
  tx : Select → UInt8 → β → β
  rx : Select → β → UInt8 × β
  reset : β → β

/-- The two boards of four ports. -/
inductive Board
  | first
  | second
  deriving DecidableEq, Repr

/-- The driver's bus variables (`wc->curcard`, and the two entries of `led[]` of `fx.c`
that are used) and the bus. -/
structure Spi (β : Type) where
  curcard : Int
  led : Board → BitVec 32
  wire : β

section Driver

variable {β : Type} (wire : Wire β) (modtype : Card → ModType)

/-- `sport_tx_byte`. -/
def sportTxByte (select : Select) (bits : UInt8) (spi : Spi β) : Spi β :=
  { spi with wire := wire.tx select bits spi.wire }

/-- `sport_rx_byte`. -/
def sportRxByte (select : Select) (spi : Spi β) : UInt8 × Spi β :=
  ((wire.rx select spi.wire).1, { spi with wire := (wire.rx select spi.wire).2 })

/-- The select code `__wcfxs_setcard` sends for a card. -/
def selectCode (card : Int) : UInt8 :=
  if card < 4 then UInt8.ofInt (card + 1) else UInt8.ofInt (0x40 + (card - 4) + 1)

/-- `__wcfxs_setcard`. -/
def wcfxsSetcard (card : Int) (spi : Spi β) : Spi β :=
  if spi.curcard ≠ card then
    { sportTxByte wire .ncsb (selectCode card) spi with curcard := card }
  else spi

/-- `wcfxs_setreg`. -/
def setreg (card : Card) (reg value : UInt8) (spi : Spi β) : Spi β :=
  let spi := wcfxsSetcard wire card.val spi
  let spi := match modtype card with
    | .fxo => sportTxByte wire .ncsa (reg &&& 0x7f) (sportTxByte wire .ncsa 0x20 spi)
    | .fxs => sportTxByte wire .ncsa (reg &&& 0x7f) spi
  sportTxByte wire .ncsa value spi

/-- `wcfxs_getreg`. -/
def getreg (card : Card) (reg : UInt8) (spi : Spi β) : UInt8 × Spi β :=
  let spi := wcfxsSetcard wire card.val spi
  let spi := match modtype card with
    | .fxo => sportTxByte wire .ncsa (reg &&& 0x7f) (sportTxByte wire .ncsa 0x60 spi)
    | .fxs => sportTxByte wire .ncsa (reg ||| 0x80) spi
  sportRxByte wire .ncsa spi

/-- The board of a port, and its position on the board. -/
def ledBoard (port : Nat) : Board := if port > 4 then .second else .first
def ledPosition (port : Nat) : Nat := (if port > 4 then port - 4 else port) - 1

/-- `led[card] &= ~(0x3 << ((port-1)*2)); led[card] |= state << ((port-1)*2);` -/
def ledUpdate (position : Nat) (state : FxLed) (led : BitVec 32) : BitVec 32 :=
  led &&& ~~~(0x3#32 <<< (position * 2)) ||| BitVec.ofNat 32 state.value <<< (position * 2)

/-- `fx_set_led`, for ports from 1 on. -/
def fxSetLed (port : Nat) (state : FxLed) (spi : Spi β) : Spi β :=
  let spi := sportTxByte wire .ncsb (if port > 4 then 0x45 else 0x05) spi
  let led := ledUpdate (ledPosition port) state (spi.led (ledBoard port))
  sportTxByte wire .ncsa ⟨led.setWidth 8⟩ { spi with led := Function.update spi.led (ledBoard port) led }

/-- `wcfxs_set_led`. -/
def setLed (port : Nat) (colour : FxLed) (spi : Spi β) : Spi β :=
  { fxSetLed wire port colour spi with curcard := -1 }

/-! ### Detection -/

/-- The select code of a port: `if (port > 4) port += 0x40 - 4;`, sent as a byte. -/
def portCode (port : Nat) : UInt8 := UInt8.ofNat (if port > 4 then port + (0x40 - 4) else port)

/-- `fx_read_fxo`: register 2 of a Si3050, at a port from 1 on. -/
def fxReadFxo (port : Nat) (spi : Spi β) : UInt8 × Spi β :=
  let spi := sportTxByte wire .ncsb (portCode port) spi
  let spi := sportTxByte wire .ncsa 0x02 (sportTxByte wire .ncsa 0x60 spi)
  sportRxByte wire .ncsa spi

/-- `fx_read_fxs`: a register of a ProSLIC, at a port from 1 on. -/
def fxReadFxs (port : Nat) (bits : UInt8) (spi : Spi β) : UInt8 × Spi β :=
  let spi := sportTxByte wire .ncsb (portCode port) spi
  let spi := sportTxByte wire .ncsa (bits ||| 0x80) spi
  sportRxByte wire .ncsa spi

/-- `bfsi_reset`. -/
def bfsiReset (spi : Spi β) : Spi β := { spi with wire := wire.reset spi.wire }

/-- What `fx_auto_detect` finds at a port. -/
def fxDetect (port : Nat) (spi : Spi β) : Option ModType × Spi β :=
  let (reg, spi) := fxReadFxo wire port (bfsiReset wire spi)
  if reg = 0x3 then (some .fxo, fxSetLed wire port .red spi)
  else
    let (reg, spi) := fxReadFxs wire port 0 (bfsiReset wire spi)
    if reg = 0x5 then (some .fxs, fxSetLed wire port .green spi)
    else
      let (reg, spi) := fxReadFxs wire port 0x1 (bfsiReset wire spi)
      if reg &&& 0xC0 = 0x80 then (some .fxs, fxSetLed wire port .green spi)
      else (none, spi)

/-- `fx_auto_detect`, over the ports of the given cards: the cards found, and the bus. -/
def fxAutoDetect : List Card → Spi β → List (Card × Option ModType) × Spi β
  | [], spi => ([], spi)
  | card :: rest, spi =>
      let (found, spi) := fxDetect wire (card.val + 1) spi
      let (others, spi) := fxAutoDetect rest spi
      ((card, found) :: others, spi)

/-- The bus part of `wcfxs_hardware_init` before the cards are configured. -/
def detectCards (spi : Spi β) : List (Card × Option ModType) × Spi β :=
  let (found, spi) := fxAutoDetect wire (List.finRange 8) (bfsiReset wire spi)
  (found, bfsiReset wire spi)

end Driver

end Baps.Bus
