/-
**The CPLD and the chips, and why the cached card selection is safe.**

`cpld` is the hardware the driver is written for: a multiplexer latch behind `SPI_NCSB`, and behind
`SPI_NCSA` whatever the latch selects, a chip or an LED latch. A Si3050 takes three bytes a register
access and a ProSLIC two, so each chip remembers how far it is.

* `Ready` — between operations every chip is idle, and `curcard` names a card only if the latch
  selects it. Detection establishes it (`detectCards_ready`), every operation keeps it.
* `Files` — what the bus stands for: a register file for each card. Each operation has one lemma that
  says what it does to the files and to the LED latches.
* `bus_operations` — **the bus is an array of register files and a panel of LEDs**, along every
  sequence of operations.
-/

import Baps.Bus.Driver
import Mathlib.Data.List.Induction
import Mathlib.Tactic.IntervalCases

namespace Baps.Bus

open Wcfxs Interaction

/-! ### The chips -/

/-- How far a chip is in a register access. -/
inductive Phase
  | idle
  | command (read : Bool)
  | data (read : Bool) (reg : UInt8)
  deriving DecidableEq, Repr

/-- A Si3050 (`fxo`) or a ProSLIC (`fxs`), with what its registers hold after a reset. -/
structure Chip where
  kind : ModType
  regs : UInt8 → UInt8
  phase : Phase
  powerOn : UInt8 → UInt8

/-- A byte sent to a chip. -/
def Chip.tx (bits : UInt8) (chip : Chip) : Chip :=
  match chip.phase, chip.kind with
  | .idle, .fxo =>
      if bits = 0x20 then { chip with phase := .command false }
      else if bits = 0x60 then { chip with phase := .command true }
      else chip
  | .idle, .fxs => { chip with phase := .data (bits &&& 0x80 ≠ 0) (bits &&& 0x7f) }
  | .command read, _ => { chip with phase := .data read (bits &&& 0x7f) }
  | .data false reg, _ => { chip with regs := Function.update chip.regs reg bits, phase := .idle }
  | .data true _, _ => { chip with phase := .idle }

/-- A byte read from a chip. -/
def Chip.rx (chip : Chip) : UInt8 × Chip :=
  match chip.phase with
  | .data true reg => (chip.regs reg, { chip with phase := .idle })
  | _ => (0xff, chip)

/-- A reset. -/
def Chip.reset (chip : Chip) : Chip := { chip with regs := chip.powerOn, phase := .idle }

/-! ### The CPLD -/

/-- What the multiplexer selects. -/
inductive Target
  | card (card : Card)
  | led (board : Board)
  | nothing
  deriving DecidableEq, Repr

/-- The multiplexer codes. -/
def decode : UInt8 → Target
  | 0x01 => .card 0
  | 0x02 => .card 1
  | 0x03 => .card 2
  | 0x04 => .card 3
  | 0x41 => .card 4
  | 0x42 => .card 5
  | 0x43 => .card 6
  | 0x44 => .card 7
  | 0x05 => .led .first
  | 0x45 => .led .second
  | _ => .nothing

/-- The multiplexer latch, the chips and the LED latches. -/
structure Cpld where
  mux : UInt8
  chips : Card → Chip
  latch : Board → UInt8

/-- A byte sent. -/
def Cpld.tx (cpld : Cpld) (bits : UInt8) : Select → Cpld
  | .ncsb => { cpld with mux := bits }
  | .ncsa => match decode cpld.mux with
      | .card card => { cpld with
          chips := Function.update cpld.chips card ((cpld.chips card).tx bits) }
      | .led board => { cpld with latch := Function.update cpld.latch board bits }
      | .nothing => cpld

/-- A byte read. -/
def Cpld.rx (cpld : Cpld) : Select → UInt8 × Cpld
  | .ncsb => (0xff, cpld)
  | .ncsa => match decode cpld.mux with
      | .card card => ((cpld.chips card).rx.1, { cpld with
          chips := Function.update cpld.chips card (cpld.chips card).rx.2 })
      | _ => (0xff, cpld)

/-- The hardware as a wire. -/
def cpld : Wire Cpld where
  tx := fun select bits device => device.tx bits select
  rx := fun select device => device.rx select
  reset := fun device => { device with chips := fun card => (device.chips card).reset }

/-! ### What the bus stands for -/

/-- A register file for each card. -/
abbrev Files := Card → UInt8 → UInt8

/-- The register files of a bus. -/
def files (spi : Spi Cpld) : Files := fun card => (spi.wire.chips card).regs

/-- The colour bits a port shows on the LED latch of its board. -/
def ledField (word : BitVec 8) (position : Nat) : BitVec 2 := word.extractLsb' (position * 2) 2

/-- The colour bits a card's port shows. -/
def shownOn (spi : Spi Cpld) (card : Card) : BitVec 2 :=
  ledField (spi.wire.latch (ledBoard (card.val + 1))).toBitVec (ledPosition (card.val + 1))

/-- The colour bits the driver keeps for a card's port. -/
def keptFor (spi : Spi Cpld) (card : Card) : BitVec 2 :=
  ledField ((spi.led (ledBoard (card.val + 1))).setWidth 8) (ledPosition (card.val + 1))

/-- The bits of a colour. -/
def colourBits (colour : FxLed) : BitVec 2 := BitVec.ofNat 2 colour.value

/-- **The invariant of the bus**: no register access is under way, and the cached selection is that
of the multiplexer. -/
structure Ready (modtype : Card → ModType) (spi : Spi Cpld) : Prop where
  kind : ∀ card, (spi.wire.chips card).kind = modtype card
  idle : ∀ card, (spi.wire.chips card).phase = .idle
  cached : spi.curcard = -1 ∨ ∃ card : Card, spi.curcard = card.val ∧ decode spi.wire.mux = .card card

/-- Each port for which a colour is given shows it, and the driver knows. -/
def Shows (shown : Card → Option FxLed) (spi : Spi Cpld) : Prop :=
  ∀ card colour, shown card = some colour →
    shownOn spi card = colourBits colour ∧ keptFor spi card = colourBits colour

theorem decode_selectCode (card : Card) : decode (selectCode card.val) = .card card := by
  revert card
  decide

/-! ### Register access at a chip -/

section Protocol

variable {chip : Chip} (idle : chip.phase = .idle)
include idle

/-- A register write on an idle Si3050. -/
theorem Chip.fxo_write (fxo : chip.kind = .fxo) (reg value : UInt8) :
    ((chip.tx 0x20).tx (reg &&& 0x7f)).tx value =
      { chip with regs := Function.update chip.regs (reg &&& 0x7f) value } := by
  have once : reg &&& 0x7f &&& 0x7f = reg &&& 0x7f := by rw [UInt8.and_assoc]; rfl
  simp [Chip.tx, idle, fxo, once]

/-- A register write on an idle ProSLIC. -/
theorem Chip.fxs_write (fxs : chip.kind = .fxs) (reg value : UInt8) :
    (chip.tx (reg &&& 0x7f)).tx value =
      { chip with regs := Function.update chip.regs (reg &&& 0x7f) value } := by
  have once : reg &&& 0x7f &&& 0x7f = reg &&& 0x7f := by rw [UInt8.and_assoc]; rfl
  have write : reg &&& 0x7f &&& 0x80 = 0 := by rw [UInt8.and_assoc]; exact UInt8.and_zero
  simp [Chip.tx, idle, fxs, once, write]

/-- A register read on an idle Si3050. -/
theorem Chip.fxo_read (fxo : chip.kind = .fxo) (reg : UInt8) :
    ((chip.tx 0x60).tx (reg &&& 0x7f)).rx = (chip.regs (reg &&& 0x7f), chip) := by
  have once : reg &&& 0x7f &&& 0x7f = reg &&& 0x7f := by rw [UInt8.and_assoc]; rfl
  obtain ⟨kind, regs, phase, powerOn⟩ := chip
  obtain rfl : phase = .idle := idle
  obtain rfl : kind = .fxo := fxo
  simp [Chip.tx, Chip.rx, once]

/-- A register read on an idle ProSLIC. -/
theorem Chip.fxs_read (fxs : chip.kind = .fxs) (reg : UInt8) :
    (chip.tx (reg ||| 0x80)).rx = (chip.regs (reg &&& 0x7f), chip) := by
  have bits : ∀ x : BitVec 8, (x ||| 0x80) &&& 0x7f = x &&& 0x7f ∧ (x ||| 0x80) &&& 0x80 = 0x80 := by
    decide
  have number : (reg ||| 0x80) &&& 0x7f = reg &&& 0x7f := UInt8.toBitVec_inj.mp (bits _).1
  have read : (reg ||| 0x80) &&& 0x80 = 0x80 := UInt8.toBitVec_inj.mp (bits _).2
  obtain ⟨kind, regs, phase, powerOn⟩ := chip
  obtain rfl : phase = .idle := idle
  obtain rfl : kind = .fxs := fxs
  simp [Chip.tx, Chip.rx, number, read]

end Protocol

/-! ### Register access -/

section Access

variable {modtype : Card → ModType} {spi : Spi Cpld} (ready : Ready modtype spi) (card : Card)
include ready

/-- After `__wcfxs_setcard` the multiplexer selects the card. -/
theorem setcard_ready :
    decode (wcfxsSetcard cpld card.val spi).wire.mux = .card card ∧
    (wcfxsSetcard cpld card.val spi).curcard = card.val ∧
    (wcfxsSetcard cpld card.val spi).wire.chips = spi.wire.chips ∧
    (wcfxsSetcard cpld card.val spi).wire.latch = spi.wire.latch ∧
    (wcfxsSetcard cpld card.val spi).led = spi.led := by
  by_cases same : spi.curcard = card.val
  · rw [wcfxsSetcard, if_neg (by simpa using same)]
    refine ⟨?_, same, rfl, rfl, rfl⟩
    rcases ready.cached with none | ⟨other, cached, selected⟩
    · omega
    · obtain rfl : other = card := Fin.ext (by omega)
      exact selected
  · rw [wcfxsSetcard, if_pos same]
    exact ⟨decode_selectCode card, rfl, rfl, rfl, rfl⟩

end Access

/-- A bus with one chip replaced. -/
def withChip (card : Card) (chip : Chip) (spi : Spi Cpld) : Spi Cpld :=
  { spi with wire := { spi.wire with chips := Function.update spi.wire.chips card chip } }

theorem tx_selected {spi : Spi Cpld} {card : Card} (selected : decode spi.wire.mux = .card card)
    (bits : UInt8) :
    sportTxByte cpld .ncsa bits spi = withChip card ((spi.wire.chips card).tx bits) spi := by
  simp [sportTxByte, cpld, Cpld.tx, selected, withChip]

theorem rx_selected {spi : Spi Cpld} {card : Card} (selected : decode spi.wire.mux = .card card) :
    sportRxByte cpld .ncsa spi =
      ((spi.wire.chips card).rx.1, withChip card (spi.wire.chips card).rx.2 spi) := by
  simp [sportRxByte, cpld, Cpld.rx, selected, withChip]

theorem tx_withChip {spi : Spi Cpld} {card : Card} (selected : decode spi.wire.mux = .card card)
    (chip : Chip) (bits : UInt8) :
    sportTxByte cpld .ncsa bits (withChip card chip spi) = withChip card (chip.tx bits) spi := by
  rw [tx_selected (show decode (withChip card chip spi).wire.mux = .card card from selected)]
  simp [withChip]

theorem rx_withChip {spi : Spi Cpld} {card : Card} (selected : decode spi.wire.mux = .card card)
    (chip : Chip) :
    sportRxByte cpld .ncsa (withChip card chip spi) = (chip.rx.1, withChip card chip.rx.2 spi) := by
  rw [rx_selected (show decode (withChip card chip spi).wire.mux = .card card from selected)]
  simp [withChip]

section Access

variable {modtype : Card → ModType} {spi : Spi Cpld} (ready : Ready modtype spi) (card : Card)
include ready

/-- **`wcfxs_setreg` writes one register of one chip.** -/
theorem setreg_eq (reg value : UInt8) :
    setreg cpld modtype card reg value spi =
      withChip card { spi.wire.chips card with
        regs := Function.update (spi.wire.chips card).regs (reg &&& 0x7f) value }
        (wcfxsSetcard cpld card.val spi) := by
  obtain ⟨selected, -, chips, -⟩ := setcard_ready ready card
  have idle := ready.idle card
  have kind := ready.kind card
  rw [setreg]
  cases type : modtype card with
  | fxo =>
    simp only [tx_selected selected, tx_withChip selected, chips]
    rw [Chip.fxo_write idle (kind.trans type)]
  | fxs =>
    simp only [tx_selected selected, tx_withChip selected, chips]
    rw [Chip.fxs_write idle (kind.trans type)]

/-- **`wcfxs_getreg` reads one register of one chip.** -/
theorem getreg_eq (reg : UInt8) :
    getreg cpld modtype card reg spi =
      (files spi card (reg &&& 0x7f),
        withChip card (spi.wire.chips card) (wcfxsSetcard cpld card.val spi)) := by
  obtain ⟨selected, -, chips, -⟩ := setcard_ready ready card
  have idle := ready.idle card
  have kind := ready.kind card
  rw [getreg]
  cases type : modtype card with
  | fxo =>
    simp only [tx_selected selected, tx_withChip selected, rx_withChip selected, chips,
      Chip.fxo_read idle (kind.trans type)]
    rfl
  | fxs =>
    simp only [tx_selected selected, rx_withChip selected, chips,
      Chip.fxs_read idle (kind.trans type)]
    rfl

/-- **A register write**: the files, and nothing on the LED panel. -/
theorem setreg_spec (reg value : UInt8) :
    Ready modtype (setreg cpld modtype card reg value spi) ∧
    files (setreg cpld modtype card reg value spi) = Function.update (files spi) card
      (Function.update (files spi card) (reg &&& 0x7f) value) ∧
    (setreg cpld modtype card reg value spi).wire.latch = spi.wire.latch ∧
    (setreg cpld modtype card reg value spi).led = spi.led := by
  obtain ⟨selected, current, chips, latch, led⟩ := setcard_ready ready card
  rw [setreg_eq ready]
  refine ⟨⟨fun other => ?_, fun other => ?_, .inr ⟨card, current, selected⟩⟩, ?_, latch, led⟩
  · by_cases own : other = card
    · subst own
      simp [withChip, ready.kind]
    · simp [withChip, own, chips, ready.kind]
  · by_cases own : other = card
    · subst own
      simp [withChip, ready.idle]
    · simp [withChip, own, chips, ready.idle]
  · funext other
    by_cases own : other = card
    · subst own
      simp [files, withChip]
    · simp [files, withChip, own, chips]

/-- **A register read**: the value in the file, and no change at all. -/
theorem getreg_spec (reg : UInt8) :
    (getreg cpld modtype card reg spi).1 = files spi card (reg &&& 0x7f) ∧
    Ready modtype (getreg cpld modtype card reg spi).2 ∧
    files (getreg cpld modtype card reg spi).2 = files spi ∧
    (getreg cpld modtype card reg spi).2.wire.latch = spi.wire.latch ∧
    (getreg cpld modtype card reg spi).2.led = spi.led := by
  obtain ⟨selected, current, chips, latch, led⟩ := setcard_ready ready card
  have same : (getreg cpld modtype card reg spi).2.wire.chips = spi.wire.chips := by
    rw [getreg_eq ready, withChip, chips, Function.update_eq_self]
  refine ⟨by rw [getreg_eq ready], ⟨fun other => ?_, fun other => ?_, ?_⟩, ?_, ?_, ?_⟩
  · rw [same]
    exact ready.kind other
  · rw [same]
    exact ready.idle other
  · rw [getreg_eq ready]
    exact .inr ⟨card, current, selected⟩
  · funext other
    simp only [files, same]
  · rw [getreg_eq ready]
    exact latch
  · rw [getreg_eq ready]
    exact led

end Access

/-! ### LEDs -/

/-- Updating one two-bit field of an LED word. -/
theorem ledField_ledUpdate (led : BitVec 32) (colour : FxLed) {position other : Nat}
    (inside : position < 4) (otherInside : other < 4) :
    ledField ((ledUpdate position colour led).setWidth 8) other =
      if other = position then colourBits colour else ledField (led.setWidth 8) other := by
  interval_cases position <;> interval_cases other <;> cases colour <;>
    (simp only [ledField, ledUpdate, colourBits, FxLed.value, Nat.reduceMul, Nat.reduceEqDiff,
      if_true, if_false, zero_ne_one, one_ne_zero, OfNat.ofNat_ne_zero, OfNat.zero_ne_ofNat,
      OfNat.ofNat_ne_one, OfNat.one_ne_ofNat]
     apply BitVec.eq_of_getLsbD_eq
     intro bit low
     interval_cases bit <;> simp)

theorem ledPosition_lt (card : Card) : ledPosition (card.val + 1) < 4 := by
  have bound := card.isLt
  simp only [ledPosition]
  split <;> omega

/-- Two ports at the same place are the same port. -/
theorem port_injective {card other : Card}
    (board : ledBoard (other.val + 1) = ledBoard (card.val + 1))
    (position : ledPosition (other.val + 1) = ledPosition (card.val + 1)) : other = card := by
  revert card other
  decide

section Panel

variable (spi : Spi Cpld) (card : Card) (colour : FxLed)

theorem fxSetLed_wire :
    (fxSetLed cpld (card.val + 1) colour spi).wire.chips = spi.wire.chips ∧
    (fxSetLed cpld (card.val + 1) colour spi).curcard = spi.curcard ∧
    (fxSetLed cpld (card.val + 1) colour spi).led =
      Function.update spi.led (ledBoard (card.val + 1)) (ledUpdate (ledPosition (card.val + 1)) colour
        (spi.led (ledBoard (card.val + 1)))) ∧
    (fxSetLed cpld (card.val + 1) colour spi).wire.latch =
      Function.update spi.wire.latch (ledBoard (card.val + 1))
        ⟨(ledUpdate (ledPosition (card.val + 1)) colour
          (spi.led (ledBoard (card.val + 1)))).setWidth 8⟩ := by
  by_cases second : card.val + 1 > 4 <;>
    simp [fxSetLed, sportTxByte, cpld, Cpld.tx, decode, ledBoard, second]

/-- **An LED update** shows the colour at its port, and at every other port what was there or what the
driver had kept for it. -/
theorem Shows.fxSetLed {shown : Card → Option FxLed} (shows_ : Shows shown spi) :
    Shows (Function.update shown card (some colour)) (fxSetLed cpld (card.val + 1) colour spi) := by
  obtain ⟨-, -, led, latch⟩ := fxSetLed_wire spi card colour
  intro other want found
  by_cases board : ledBoard (other.val + 1) = ledBoard (card.val + 1)
  · have field : ∀ q : Card, ledBoard (q.val + 1) = ledBoard (card.val + 1) →
        shownOn (Bus.fxSetLed cpld (card.val + 1) colour spi) q =
            keptFor (Bus.fxSetLed cpld (card.val + 1) colour spi) q ∧
        keptFor (Bus.fxSetLed cpld (card.val + 1) colour spi) q =
          if q = card then colourBits colour else keptFor spi q := by
      intro q same
      have kept := ledField_ledUpdate (spi.led (ledBoard (card.val + 1))) colour (ledPosition_lt card)
        (ledPosition_lt q)
      simp only [shownOn, keptFor, led, latch, same, Function.update_self]
      refine ⟨trivial, kept.trans ?_⟩
      by_cases own : q = card
      · simp [own]
      · rw [if_neg own, if_neg fun position => own (port_injective same position)]
    obtain ⟨shownEq, keptEq⟩ := field other board
    rw [shownEq, keptEq, and_self]
    by_cases own : other = card
    · subst own
      obtain rfl : colour = want := by simpa using found
      simp
    · rw [if_neg own]
      rw [Function.update_of_ne own] at found
      exact (shows_ other want found).2
  · have own : other ≠ card := fun same => board (by rw [same])
    rw [Function.update_of_ne own] at found
    simp only [shownOn, keptFor, led, latch, Function.update_of_ne board]
    exact shows_ other want found

variable {spi}

theorem setLed_ready {modtype : Card → ModType} (ready : Ready modtype spi) :
    Ready modtype (setLed cpld (card.val + 1) colour spi) := by
  obtain ⟨chips, -⟩ := fxSetLed_wire spi card colour
  refine ⟨fun other => ?_, fun other => ?_, .inl rfl⟩
  · rw [show (setLed cpld (card.val + 1) colour spi).wire.chips = spi.wire.chips from chips]
    exact ready.kind other
  · rw [show (setLed cpld (card.val + 1) colour spi).wire.chips = spi.wire.chips from chips]
    exact ready.idle other

theorem files_setLed : files (setLed cpld (card.val + 1) colour spi) = files spi := by
  obtain ⟨chips, -⟩ := fxSetLed_wire spi card colour
  have same : (setLed cpld (card.val + 1) colour spi).wire.chips = spi.wire.chips := chips
  funext other
  simp only [files, same]

end Panel

/-! ### Detection -/

/-- What detection leaves alone: the cached selection, and what kind of chip is where. -/
structure SameCards (before after : Spi Cpld) : Prop where
  curcard : after.curcard = before.curcard
  kind : ∀ card, (after.wire.chips card).kind = (before.wire.chips card).kind
  powerOn : ∀ card, (after.wire.chips card).powerOn = (before.wire.chips card).powerOn

/-- What probing a card leaves alone: the LEDs too. -/
structure Undisturbed (before after : Spi Cpld) : Prop extends SameCards before after where
  led : after.led = before.led
  latch : after.wire.latch = before.wire.latch

theorem SameCards.trans {first middle last : Spi Cpld} (start : SameCards first middle)
    (finish : SameCards middle last) : SameCards first last :=
  ⟨finish.curcard.trans start.curcard, fun card => (finish.kind card).trans (start.kind card),
    fun card => (finish.powerOn card).trans (start.powerOn card)⟩

namespace Undisturbed

variable {first middle last : Spi Cpld}

theorem trans (start : Undisturbed first middle) (finish : Undisturbed middle last) :
    Undisturbed first last :=
  ⟨start.toSameCards.trans finish.toSameCards, finish.led.trans start.led,
    finish.latch.trans start.latch⟩

theorem reset (spi : Spi Cpld) : Undisturbed spi (bfsiReset cpld spi) :=
  ⟨⟨rfl, fun _ => rfl, fun _ => rfl⟩, rfl, rfl⟩

theorem select (spi : Spi Cpld) (bits : UInt8) : Undisturbed spi (sportTxByte cpld .ncsb bits spi) :=
  ⟨⟨rfl, fun _ => rfl, fun _ => rfl⟩, rfl, rfl⟩

theorem withChip {spi : Spi Cpld} {card : Card} {chip : Chip}
    (kind : chip.kind = (spi.wire.chips card).kind)
    (powerOn : chip.powerOn = (spi.wire.chips card).powerOn) :
    Undisturbed spi (withChip card chip spi) := by
  refine ⟨⟨rfl, fun other => ?_, fun other => ?_⟩, rfl, rfl⟩
  · by_cases own : other = card
    · subst own
      simp [Bus.withChip, kind]
    · simp [Bus.withChip, own]
  · by_cases own : other = card
    · subst own
      simp [Bus.withChip, powerOn]
    · simp [Bus.withChip, own]

theorem shows_ {shown : Card → Option FxLed} (same : Undisturbed first last) (old : Shows shown first) :
    Shows shown last := by
  intro card colour found
  simp only [shownOn, keptFor, same.led, same.latch]
  exact old card colour found

end Undisturbed

theorem Chip.tx_fixed (bits : UInt8) (chip : Chip) :
    (chip.tx bits).kind = chip.kind ∧ (chip.tx bits).powerOn = chip.powerOn := by
  rw [Chip.tx]
  split <;> (try split) <;> (try split) <;> simp

theorem Chip.rx_fixed (chip : Chip) :
    chip.rx.2.kind = chip.kind ∧ chip.rx.2.powerOn = chip.powerOn := by
  rw [Chip.rx]
  split <;> simp

/-- The code of a card's port selects the card. -/
theorem decode_portCode (card : Card) : decode (portCode (card.val + 1)) = .card card := by
  revert card
  decide

theorem fxReadFxo_undisturbed (card : Card) (spi : Spi Cpld) :
    Undisturbed spi (fxReadFxo cpld (card.val + 1) spi).2 := by
  have selected : decode (sportTxByte cpld .ncsb (portCode (card.val + 1)) spi).wire.mux =
      .card card := decode_portCode card
  refine .trans (Undisturbed.select spi (portCode (card.val + 1))) ?_
  rw [fxReadFxo]
  simp only [tx_selected selected, tx_withChip selected, rx_withChip selected]
  refine Undisturbed.withChip ?_ ?_
  · rw [(Chip.rx_fixed _).1, (Chip.tx_fixed _ _).1, (Chip.tx_fixed _ _).1]
  · rw [(Chip.rx_fixed _).2, (Chip.tx_fixed _ _).2, (Chip.tx_fixed _ _).2]

theorem fxReadFxs_undisturbed (card : Card) (bits : UInt8) (spi : Spi Cpld) :
    Undisturbed spi (fxReadFxs cpld (card.val + 1) bits spi).2 := by
  have selected : decode (sportTxByte cpld .ncsb (portCode (card.val + 1)) spi).wire.mux =
      .card card := decode_portCode card
  refine .trans (Undisturbed.select spi (portCode (card.val + 1))) ?_
  rw [fxReadFxs]
  simp only [tx_selected selected, rx_withChip selected]
  refine Undisturbed.withChip ?_ ?_
  · rw [(Chip.rx_fixed _).1, (Chip.tx_fixed _ _).1]
  · rw [(Chip.rx_fixed _).2, (Chip.tx_fixed _ _).2]

/-- The colour detection gives a port. -/
def portColour : ModType → FxLed
  | .fxo => .red
  | .fxs => .green

/-- Probing one card: its LED shows what is found, and the others what they showed. -/
theorem fxDetect_spec (card : Card) {shown : Card → Option FxLed} {spi : Spi Cpld}
    (old : Shows shown spi) :
    SameCards spi (fxDetect cpld (card.val + 1) spi).2 ∧
    Shows (Function.update shown card
        (((fxDetect cpld (card.val + 1) spi).1.map portColour).or (shown card)))
      (fxDetect cpld (card.val + 1) spi).2 := by
  have lit : ∀ colour {middle : Spi Cpld}, Undisturbed spi middle →
      SameCards spi (fxSetLed cpld (card.val + 1) colour middle) ∧
      Shows (Function.update shown card (some colour)) (fxSetLed cpld (card.val + 1) colour middle) := by
    intro colour middle same
    obtain ⟨chips, curcard, -⟩ := fxSetLed_wire middle card colour
    refine ⟨same.toSameCards.trans ⟨curcard, ?_, ?_⟩, Shows.fxSetLed _ _ _ (same.shows_ old)⟩
    · simp [chips]
    · simp [chips]
  have fxo := (Undisturbed.reset spi).trans (fxReadFxo_undisturbed card (bfsiReset cpld spi))
  have fxs := (fxo.trans (Undisturbed.reset _)).trans (fxReadFxs_undisturbed card 0 _)
  have other := (fxs.trans (Undisturbed.reset _)).trans (fxReadFxs_undisturbed card 1 _)
  rw [fxDetect]
  dsimp only
  split
  · exact lit .red fxo
  · split
    · exact lit .green fxs
    · split
      · exact lit .green other
      · refine ⟨other.toSameCards, ?_⟩
        rw [Option.map_none, Option.none_or, Function.update_eq_self]
        exact other.shows_ old

theorem fxAutoDetect_cons (card : Card) (rest : List Card) (spi : Spi Cpld) :
    fxAutoDetect cpld (card :: rest) spi =
      ((card, (fxDetect cpld (card.val + 1) spi).1) ::
          (fxAutoDetect cpld rest (fxDetect cpld (card.val + 1) spi).2).1,
        (fxAutoDetect cpld rest (fxDetect cpld (card.val + 1) spi).2).2) := by
  simp only [fxAutoDetect]

/-- The colour detection left at a card's port. -/
def detectedColour (found : List (Card × Option ModType)) (card : Card) : Option FxLed :=
  (found.filterMap fun entry => if entry.1 = card then entry.2.map portColour else none).getLast?

theorem fxAutoDetect_spec (cards : List Card) {shown : Card → Option FxLed} {spi : Spi Cpld}
    (old : Shows shown spi) :
    SameCards spi (fxAutoDetect cpld cards spi).2 ∧
    Shows (fun card => (detectedColour (fxAutoDetect cpld cards spi).1 card).or (shown card))
      (fxAutoDetect cpld cards spi).2 := by
  induction cards generalizing shown spi with
  | nil => exact ⟨⟨rfl, fun _ => rfl, fun _ => rfl⟩, by simpa [fxAutoDetect, detectedColour] using old⟩
  | cons card rest ih =>
    obtain ⟨same, now⟩ := fxDetect_spec card old
    obtain ⟨sameRest, later⟩ := ih now
    rw [fxAutoDetect_cons]
    refine ⟨same.trans sameRest, ?_⟩
    intro other colour want
    refine later other colour ?_
    rw [← want]
    simp only [detectedColour, List.filterMap_cons]
    by_cases own : card = other
    · subst own
      cases (fxDetect cpld (card.val + 1) spi).1 with
      | none => simp
      | some type =>
        simp only [Function.update_self, if_true, Option.map_some, Option.some_or]
        rw [List.getLast?_cons]
        generalize (List.filterMap _ _).getLast? = found
        cases found <;> simp
    · rw [if_neg own, Function.update_of_ne (fun same => own same.symm)]

/-- **Detection leaves the bus ready**, with every register at its reset value and every LED it set
showing. -/
theorem detectCards_ready {modtype : Card → ModType} {spi : Spi Cpld}
    (kind : ∀ card, (spi.wire.chips card).kind = modtype card) (fresh : spi.curcard = -1) :
    Ready modtype (detectCards cpld spi).2 ∧
    (∀ card, files (detectCards cpld spi).2 card = (spi.wire.chips card).powerOn) ∧
    Shows (detectedColour (detectCards cpld spi).1) (detectCards cpld spi).2 := by
  have dark : Shows (fun _ => none) (bfsiReset cpld spi) := fun _ _ none => by simp at none
  obtain ⟨same, lit⟩ := fxAutoDetect_spec (List.finRange 8) dark
  simp only [Option.or_none] at lit
  rw [detectCards]
  generalize fxAutoDetect cpld (List.finRange 8) (bfsiReset cpld spi) = detected at same lit ⊢
  refine ⟨⟨fun card => (same.kind card).trans (kind card), fun _ => rfl, .inl ?_⟩, fun card => ?_, ?_⟩
  · exact same.curcard.trans fresh
  · exact same.powerOn card
  · exact (Undisturbed.reset _).shows_ lit

/-! ### Sequences of operations -/

/-- The operations on the bus. `forgetCard` is the bare `wc->curcard = -1` of
`wcfxs_voicedaa_check_hook`. -/
inductive BusOp
  | setreg (card : Card) (reg value : UInt8)
  | getreg (card : Card) (reg : UInt8)
  | setLed (card : Card) (colour : FxLed)
  | forgetCard
  deriving DecidableEq, Repr

/-- One operation. -/
def BusOp.run (modtype : Card → ModType) : BusOp → Spi Cpld → Spi Cpld
  | .setreg card reg value, spi => Bus.setreg cpld modtype card reg value spi
  | .getreg card reg, spi => (Bus.getreg cpld modtype card reg spi).2
  | .setLed card colour, spi => Bus.setLed cpld (card.val + 1) colour spi
  | .forgetCard, spi => { spi with curcard := -1 }

/-- Operations in order. -/
def runOps (modtype : Card → ModType) (ops : List BusOp) (spi : Spi Cpld) : Spi Cpld :=
  ops.foldl (fun spi op => op.run modtype spi) spi

/-- The value an operation writes to a register of a card. Registers have seven-bit numbers. -/
def BusOp.written (card : Card) (reg : UInt8) : BusOp → Option UInt8
  | .setreg c r value => if c = card ∧ r &&& 0x7f = reg &&& 0x7f then some value else none
  | _ => none

/-- The value last written to a register of a card. -/
def lastWritten (ops : List BusOp) (card : Card) (reg : UInt8) : Option UInt8 :=
  (ops.filterMap (BusOp.written card reg)).getLast?

/-- The colour an operation gives to the port of a card. -/
def BusOp.coloured (card : Card) : BusOp → Option FxLed
  | .setLed c colour => if c = card then some colour else none
  | _ => none

/-- The colour last given to the port of a card. -/
def lastColour (ops : List BusOp) (card : Card) : Option FxLed :=
  (ops.filterMap (BusOp.coloured card)).getLast?

/-- What one operation does to the files. -/
def BusOp.write : BusOp → Files → Files
  | .setreg card reg value, old =>
      Function.update old card (Function.update (old card) (reg &&& 0x7f) value)
  | _, old => old

/-- **The step lemma of the bus.** -/
theorem BusOp.run_spec {modtype : Card → ModType} {spi : Spi Cpld} {shown : Card → Option FxLed}
    (ready : Ready modtype spi) (lit : Shows shown spi) (op : BusOp) :
    Ready modtype (op.run modtype spi) ∧ files (op.run modtype spi) = op.write (files spi) ∧
      Shows (fun card => (op.coloured card).or (shown card)) (op.run modtype spi) := by
  cases op with
  | setreg card reg value =>
    obtain ⟨next, filed, latch, led⟩ := setreg_spec ready card reg value
    refine ⟨next, filed, fun other colour want => ?_⟩
    simp only [BusOp.run, shownOn, keptFor, latch, led]
    exact lit other colour want
  | getreg card reg =>
    obtain ⟨-, next, filed, latch, led⟩ := getreg_spec ready card reg
    refine ⟨next, filed, fun other colour want => ?_⟩
    simp only [BusOp.run, shownOn, keptFor, latch, led]
    exact lit other colour want
  | setLed card colour =>
    refine ⟨setLed_ready card colour ready, files_setLed card colour, fun other want found => ?_⟩
    refine Shows.fxSetLed spi card colour lit other want ?_
    rw [← found]
    by_cases own : card = other
    · subst own
      simp [BusOp.coloured]
    · simp [BusOp.coloured, own, Ne.symm own]
  | forgetCard => exact ⟨⟨ready.kind, ready.idle, .inl rfl⟩, rfl, lit⟩

theorem BusOp.write_apply (op : BusOp) (old : Files) (card : Card) (reg : UInt8) :
    op.write old card (reg &&& 0x7f) = (op.written card reg).getD (old card (reg &&& 0x7f)) := by
  cases op with
  | setreg c r value =>
    by_cases own : card = c
    · subst own
      by_cases same : r &&& 0x7f = reg &&& 0x7f
      · simp [BusOp.write, BusOp.written, same]
      · simp [BusOp.write, BusOp.written, same, Ne.symm same]
    · simp [BusOp.write, BusOp.written, own, Ne.symm own]
  | _ => rfl

/-- **The run lemma of the bus.** -/
theorem runOps_spec {modtype : Card → ModType} {spi : Spi Cpld} {shown : Card → Option FxLed}
    (ready : Ready modtype spi) (lit : Shows shown spi) (ops : List BusOp) :
    Ready modtype (runOps modtype ops spi) ∧
    (∀ card reg, files (runOps modtype ops spi) card (reg &&& 0x7f) =
      (lastWritten ops card reg).getD (files spi card (reg &&& 0x7f))) ∧
    Shows (fun card => (lastColour ops card).or (shown card)) (runOps modtype ops spi) := by
  induction ops using List.reverseRecOn with
  | nil => exact ⟨ready, fun _ _ => rfl, by simpa [runOps, lastColour] using lit⟩
  | append_singleton ops op ih =>
    obtain ⟨ready, filed, lit⟩ := ih
    obtain ⟨next, filedNext, litNext⟩ := BusOp.run_spec ready lit op
    have last : runOps modtype (ops ++ [op]) spi = op.run modtype (runOps modtype ops spi) := by
      simp [runOps]
    rw [last]
    refine ⟨next, fun card reg => ?_, fun card colour want => litNext card colour ?_⟩
    · rw [filedNext, op.write_apply, filed]
      simp only [lastWritten, List.filterMap_append, List.getLast?_append]
      cases written : op.written card reg <;> simp [written]
    · rw [← want]
      simp only [lastColour, List.filterMap_append, List.getLast?_append]
      cases coloured : op.coloured card <;> simp [coloured]

/-- **The bus is an array of register files and a panel of LEDs.** After detection and any operations:
a register read gives what was last written to that register of that card, or its reset value; an LED
update changes no register; a register access changes no LED latch; and every port shows the colour
last set for it, by detection if by nothing later. -/
theorem bus_operations (modtype : Card → ModType) (initial : Spi Cpld)
    (kind : ∀ card, (initial.wire.chips card).kind = modtype card) (fresh : initial.curcard = -1)
    (ops : List BusOp) :
    let spi := runOps modtype ops (detectCards cpld initial).2
    (∀ card reg, (getreg cpld modtype card reg spi).1 =
      (lastWritten ops card reg).getD ((initial.wire.chips card).powerOn (reg &&& 0x7f))) ∧
    (∀ (card : Card) colour, files (setLed cpld (card.val + 1) colour spi) = files spi) ∧
    (∀ card reg value, (setreg cpld modtype card reg value spi).wire.latch = spi.wire.latch) ∧
    (∀ card reg, (getreg cpld modtype card reg spi).2.wire.latch = spi.wire.latch) ∧
    ∀ card colour,
      (lastColour ops card).or (detectedColour (detectCards cpld initial).1 card) = some colour →
        shownOn spi card = colourBits colour := by
  obtain ⟨start, reset, dark⟩ := detectCards_ready kind fresh
  generalize detectCards cpld initial = detected at start reset dark ⊢
  obtain ⟨ready, filed, lit⟩ := runOps_spec start dark ops
  refine ⟨fun card reg => ?_, fun card colour => files_setLed card colour, fun card reg value => ?_,
    fun card reg => ?_, fun card colour want => (lit card colour want).1⟩
  · rw [(getreg_spec ready card reg).1, filed, reset]
  · exact (setreg_spec ready card reg value).2.2.1
  · exact (getreg_spec ready card reg).2.2.2.1

/-- A card cage with a Si3050 in slot 1 and ProSLICs elsewhere, before detection. -/
def mixedCage : Spi Cpld :=
  ⟨-1, fun _ => 0, ⟨0, fun card => ⟨if card = 1 then .fxo else .fxs, fun _ => 0, .idle, fun _ => 0⟩,
    fun _ => 0⟩⟩

/-- Writes to the same register number of two cards, with an LED update between them. -/
theorem bus_operations_mixedCage :
    let modtype : Card → ModType := fun card => if card = 1 then .fxo else .fxs
    let ops : List BusOp := [.setreg 0 5 1, .setLed 0 .red, .setreg 1 5 9, .getreg 0 5]
    let spi := runOps modtype ops (detectCards cpld mixedCage).2
    (getreg cpld modtype 0 5 spi).1 = 1 ∧ shownOn spi 0 = colourBits .red := by
  intro modtype ops spi
  obtain ⟨read, -, -, -, lit⟩ := bus_operations modtype mixedCage (fun _ => rfl) rfl ops
  exact ⟨(read 0 5).trans rfl, lit 0 .red rfl⟩

end Baps.Bus
