/-
**The chip selects of the SPI port.**

`bfsi_spi_write_8_bits` and `bfsi_spi_read_8_bits` lower the select of a chip, shift a byte, and raise the
select again. Selects 0 to 7 are bits 8 to 15 of the SPI FLAG register, where bits 0 to 7 enable them;
selects 8 to 15 are GPIO pins, with bits of their own in the GPIO latch. The read routine writes
`flag_enable` into the FLAG register for either kind, but gives it a value for the first only.

* `Call.framed` — **one call**: it lowers its select alone, and leaves the registers as they were.
* `spi_frames_iff` — **when all calls of a run do**.
* `read_gpio_select` — a read on a GPIO select.
-/

import Mathlib.Data.List.Basic
import Mathlib.Tactic.IntervalCases

namespace Baps.Bfsi

/-! ### One bit of a register -/

section Bits

variable {w i j : Nat}

/-- A register with bit `i` cleared. -/
def cleared (word : BitVec w) (i : Nat) : BitVec w := word &&& ~~~(1#w <<< i)

theorem getLsbD_bit (inside : i < w) : (1#w <<< i).getLsbD j = decide (j = i) := by
  rw [BitVec.getLsbD_shiftLeft, BitVec.getLsbD_one, Bool.eq_iff_iff]
  simp only [Bool.and_eq_true, decide_eq_true_eq, Bool.not_eq_true', decide_eq_false_iff_not]
  omega

theorem getLsbD_cleared (word : BitVec w) (i : Nat) (inside : j < w) (room : i < w) :
    (cleared word i).getLsbD j = (word.getLsbD j && decide (j ≠ i)) := by
  rw [cleared, BitVec.getLsbD_and, BitVec.getLsbD_not, getLsbD_bit room, decide_eq_true inside,
    Bool.true_and, decide_not]

/-- Setting a bit undoes clearing it. -/
theorem cleared_or (word : BitVec w) (was : word.getLsbD i = true) (room : i < w) :
    cleared word i ||| 1#w <<< i = word := by
  apply BitVec.eq_of_getLsbD_eq
  intro j inside
  rw [BitVec.getLsbD_or, getLsbD_cleared word i inside room, getLsbD_bit room]
  by_cases same : j = i
  · simp [same, was]
  · simp [same]

theorem low_byte (inside : i < 8) : (0xff : BitVec 16).getLsbD i = true := by
  interval_cases i <;> rfl

theorem high_byte (low : 8 ≤ i) (high : i < 16) : (0xff00 : BitVec 16).getLsbD i = true := by
  interval_cases i <;> rfl

end Bits

/-! ### The code -/

/-- The registers behind the selects: SPI FLAG, the GPIO latch and the GPIO directions. -/
structure Pins where
  flag : BitVec 16
  fioFlag : BitVec 16
  fioDir : BitVec 16
  deriving DecidableEq, Repr

/-- A byte on the wire, and the registers while it is being shifted. -/
structure Shift where
  bits : BitVec 8
  pins : Pins
  deriving DecidableEq, Repr

/-- The port: its registers, the bytes shifted so far, and `chip_select_mask`. -/
structure SpiPort where
  pins : Pins
  shifts : List Shift
  chipSelectMask : BitVec 16

namespace SpiPort

/-- `write_FLAG`. -/
def writeFlag (spi : SpiPort) (value : BitVec 16) : SpiPort :=
  { spi with pins := { spi.pins with flag := value } }

/-- `bfin_write_FIO_FLAG_C`: the bits that are set are cleared in the latch. -/
def writeFioFlagC (spi : SpiPort) (bits : BitVec 16) : SpiPort :=
  { spi with pins := { spi.pins with fioFlag := spi.pins.fioFlag &&& ~~~bits } }

/-- `bfin_write_FIO_FLAG_S`. -/
def writeFioFlagS (spi : SpiPort) (bits : BitVec 16) : SpiPort :=
  { spi with pins := { spi.pins with fioFlag := spi.pins.fioFlag ||| bits } }

/-- `write_TDBR`, the read that starts the transfer, and the wait for its end. -/
def shift (spi : SpiPort) (bits : BitVec 8) : SpiPort :=
  { spi with shifts := spi.shifts ++ [⟨bits, spi.pins⟩] }

end SpiPort

/-- `bfsi_spi_write_8_bits`. -/
def bfsiSpiWrite8Bits (chipSelect : Fin 16) (bits : BitVec 8) (spi : SpiPort) : SpiPort :=
  let flag := spi.pins.flag
  let spi :=
    if chipSelect.val < 8 then spi.writeFlag (flag &&& ~~~(1#16 <<< (chipSelect.val + 8)))
    else spi.writeFioFlagC (1#16 <<< chipSelect.val)
  let spi := spi.shift bits
  if chipSelect.val < 8 then spi.writeFlag flag else spi.writeFioFlagS (1#16 <<< chipSelect.val)

/-- `bfsi_spi_read_8_bits`: the byte in the shadow register, `answer`, and the port. `flagEnable` is what
the variable of that name holds when it has not been assigned. -/
def bfsiSpiRead8Bits (chipSelect : Fin 16) (flagEnable : BitVec 16) (answer : BitVec 8) (spi : SpiPort) :
    BitVec 8 × SpiPort :=
  let flag := spi.pins.flag
  let (flagEnable, spi) :=
    if chipSelect.val < 8 then (flag &&& ~~~(1#16 <<< (chipSelect.val + 8)), spi)
    else (flagEnable, spi.writeFioFlagC (1#16 <<< chipSelect.val))
  let spi := spi.writeFlag flagEnable
  let spi := spi.shift 0xff
  (answer,
    if chipSelect.val < 8 then spi.writeFlag flag else spi.writeFioFlagS (1#16 <<< chipSelect.val))

/-- `bfsi_spi_init`, as far as the selects are concerned: the clock rate and the mode are left out, and
so are the pin multiplexers of the BF537. -/
def bfsiSpiInit (newChipSelectMask : BitVec 16) (spi : SpiPort) : SpiPort :=
  let chipSelectMask := spi.chipSelectMask ||| newChipSelectMask
  let fioDir :=
    if chipSelectMask &&& 0xff00 ≠ 0 then spi.pins.fioDir ||| (chipSelectMask &&& 0xff00)
    else spi.pins.fioDir
  { spi with
    pins := { spi.pins with flag := 0xff00 ||| (chipSelectMask &&& 0xff), fioDir := fioDir }
    chipSelectMask := chipSelectMask }

/-- A call of one of the two routines. -/
inductive Call
  | write (chipSelect : Fin 16) (bits : BitVec 8)
  | read (chipSelect : Fin 16) (flagEnable : BitVec 16) (answer : BitVec 8)

/-- The select of a call. -/
def Call.chipSelect : Call → Fin 16
  | .write chipSelect _ => chipSelect
  | .read chipSelect _ _ => chipSelect

/-- A call on the port. -/
def Call.run : Call → SpiPort → SpiPort
  | .write chipSelect bits, spi => bfsiSpiWrite8Bits chipSelect bits spi
  | .read chipSelect flagEnable answer, spi => (bfsiSpiRead8Bits chipSelect flagEnable answer spi).2

/-! ### The lines -/

/-- The level of a select: high or low, if the pin is driven. -/
def Pins.line (pins : Pins) (chipSelect : Fin 16) : Option Bool :=
  if chipSelect.val < 8 then
    if pins.flag.getLsbD chipSelect.val then some (pins.flag.getLsbD (chipSelect.val + 8)) else none
  else if pins.fioDir.getLsbD chipSelect.val then some (pins.fioFlag.getLsbD chipSelect.val) else none

/-- The selects in the mask are high. -/
def AllHigh (mask : BitVec 16) (pins : Pins) : Prop :=
  ∀ chipSelect : Fin 16, mask.getLsbD chipSelect.val = true → pins.line chipSelect = some true

/-- Of the selects in the mask this one is low and the others are high. -/
def OnlyLow (mask : BitVec 16) (pins : Pins) (chipSelect : Fin 16) : Prop :=
  ∀ other : Fin 16, mask.getLsbD other.val = true → pins.line other = some (decide (other ≠ chipSelect))

/-- A call frames its byte: one byte is shifted, with the select of the call low and no other; then the
FLAG register and the GPIO latch are what they were. -/
def Framed (mask : BitVec 16) (call : Call) (spi : SpiPort) : Prop :=
  (∃ shift, (call.run spi).shifts = spi.shifts ++ [shift] ∧ OnlyLow mask shift.pins call.chipSelect) ∧
    (call.run spi).pins.flag = spi.pins.flag ∧ (call.run spi).pins.fioFlag = spi.pins.fioFlag

/-- Every call of a run frames its byte. -/
def FramesAll (mask : BitVec 16) : List Call → SpiPort → Prop
  | [], _ => True
  | call :: rest, spi => Framed mask call spi ∧ FramesAll mask rest (call.run spi)

/-- A call that does not write an unassigned `flag_enable`, unless that happens to be what FLAG holds. -/
def Call.Safe (flag : BitVec 16) : Call → Prop
  | .write _ _ => True
  | .read chipSelect flagEnable _ => chipSelect.val < 8 ∨ flagEnable = flag

/-! ### One call -/

section Call

variable {mask : BitVec 16} {pins : Pins} {chipSelect other : Fin 16} {spi : SpiPort} {call : Call}

theorem line_flag (small : chipSelect.val < 8) (high : pins.line chipSelect = some true) :
    pins.flag.getLsbD chipSelect.val = true ∧ pins.flag.getLsbD (chipSelect.val + 8) = true := by
  rw [Pins.line, if_pos small] at high
  split at high
  · rename_i enabled
    exact ⟨enabled, Option.some.inj high⟩
  · cases high

theorem line_gpio (large : ¬ chipSelect.val < 8) (high : pins.line chipSelect = some true) :
    pins.fioDir.getLsbD chipSelect.val = true ∧ pins.fioFlag.getLsbD chipSelect.val = true := by
  rw [Pins.line, if_neg large] at high
  split at high
  · rename_i output
    exact ⟨output, Option.some.inj high⟩
  · cases high

/-- A select of the FLAG register is lowered. -/
theorem onlyLow_flag (high : AllHigh mask pins) (small : chipSelect.val < 8) :
    OnlyLow mask { pins with flag := cleared pins.flag (chipSelect.val + 8) } chipSelect := by
  intro other inMask
  have was := high other inMask
  by_cases kind : other.val < 8
  · obtain ⟨enabled, up⟩ := line_flag kind was
    have ne : other.val ≠ chipSelect.val + 8 := by omega
    simp only [Pins.line, if_pos kind]
    rw [getLsbD_cleared _ _ other.isLt (by omega), getLsbD_cleared _ _ (by omega) (by omega), enabled, up]
    simp [ne, Fin.ext_iff]
  · have ne : other ≠ chipSelect := by
      rintro rfl
      exact kind small
    rw [decide_eq_true ne, ← was]
    simp [Pins.line, kind]

/-- A select on a GPIO pin is lowered. -/
theorem onlyLow_gpio (high : AllHigh mask pins) (large : ¬ chipSelect.val < 8) :
    OnlyLow mask { pins with fioFlag := cleared pins.fioFlag chipSelect.val } chipSelect := by
  intro other inMask
  have was := high other inMask
  by_cases kind : other.val < 8
  · have ne : other ≠ chipSelect := by
      rintro rfl
      exact large kind
    rw [decide_eq_true ne, ← was]
    simp [Pins.line, kind]
  · obtain ⟨output, up⟩ := line_gpio kind was
    simp only [Pins.line, if_neg kind]
    rw [getLsbD_cleared _ _ other.isLt chipSelect.isLt, output, up]
    simp [Fin.ext_iff]

/-- A call on a select of the FLAG register lowers its bit there and writes the register back. -/
theorem Call.run_flag (spi : SpiPort) (small : call.chipSelect.val < 8) :
    (∃ bits, (call.run spi).shifts = spi.shifts ++
      [⟨bits, { spi.pins with flag := cleared spi.pins.flag (call.chipSelect.val + 8) }⟩]) ∧
    (call.run spi).pins = spi.pins := by
  cases call with
  | write chipSelect bits =>
    change chipSelect.val < 8 at small
    simp only [Call.run, bfsiSpiWrite8Bits, Call.chipSelect, if_pos small]
    exact ⟨⟨bits, rfl⟩, rfl⟩
  | read chipSelect flagEnable answer =>
    change chipSelect.val < 8 at small
    simp only [Call.run, bfsiSpiRead8Bits, Call.chipSelect, if_pos small]
    exact ⟨⟨0xff, rfl⟩, rfl⟩

/-- A safe call on a GPIO select clears its bit in the latch and sets it again. -/
theorem Call.run_gpio (large : ¬ call.chipSelect.val < 8) (safe : call.Safe spi.pins.flag) :
    (∃ bits, (call.run spi).shifts = spi.shifts ++
      [⟨bits, { spi.pins with fioFlag := cleared spi.pins.fioFlag call.chipSelect.val }⟩]) ∧
    (call.run spi).pins = { spi.pins with
      fioFlag := cleared spi.pins.fioFlag call.chipSelect.val ||| 1#16 <<< call.chipSelect.val } := by
  cases call with
  | write chipSelect bits =>
    change ¬ chipSelect.val < 8 at large
    simp only [Call.run, bfsiSpiWrite8Bits, Call.chipSelect, if_neg large]
    exact ⟨⟨bits, rfl⟩, rfl⟩
  | read chipSelect flagEnable answer =>
    change ¬ chipSelect.val < 8 at large
    obtain rfl : flagEnable = spi.pins.flag := safe.resolve_left large
    simp only [Call.run, bfsiSpiRead8Bits, Call.chipSelect, if_neg large]
    exact ⟨⟨0xff, rfl⟩, rfl⟩

/-- **One call** that is safe frames its byte, and leaves all registers as they were. -/
theorem Call.framed (high : AllHigh mask spi.pins)
    (addressed : mask.getLsbD call.chipSelect.val = true) (safe : call.Safe spi.pins.flag) :
    Framed mask call spi ∧ (call.run spi).pins = spi.pins := by
  by_cases small : call.chipSelect.val < 8
  · obtain ⟨⟨bits, shifts⟩, pins⟩ := Call.run_flag spi small
    exact ⟨⟨⟨_, shifts, onlyLow_flag high small⟩, by rw [pins], by rw [pins]⟩, pins⟩
  · obtain ⟨⟨bits, shifts⟩, pins⟩ := Call.run_gpio small safe
    have up := (line_gpio small (high _ addressed)).2
    rw [cleared_or spi.pins.fioFlag up call.chipSelect.isLt] at pins
    exact ⟨⟨⟨_, shifts, onlyLow_gpio high small⟩, by rw [pins], by rw [pins]⟩, pins⟩

/-- A read on a GPIO select leaves `flag_enable` in the FLAG register. -/
theorem Call.safe_of_framed (framed : Framed mask call spi) : call.Safe spi.pins.flag := by
  cases call with
  | write chipSelect bits => trivial
  | read chipSelect flagEnable answer =>
    by_cases small : chipSelect.val < 8
    · exact .inl small
    · refine .inr ?_
      have kept := framed.2.1
      simp only [Call.run, bfsiSpiRead8Bits, if_neg small] at kept
      exact kept

end Call

/-! ### Runs -/

section Runs

variable {mask : BitVec 16} {spi : SpiPort} {calls : List Call}

/-- **Every call of a run frames its byte just if every call is safe.** -/
theorem framesAll_iff (high : AllHigh mask spi.pins)
    (addressed : ∀ call ∈ calls, mask.getLsbD call.chipSelect.val = true) :
    FramesAll mask calls spi ↔ ∀ call ∈ calls, call.Safe spi.pins.flag := by
  induction calls generalizing spi with
  | nil => simp [FramesAll]
  | cons call rest ih =>
    have here := addressed call List.mem_cons_self
    have later : ∀ other ∈ rest, mask.getLsbD other.chipSelect.val = true :=
      fun other member => addressed other (List.mem_cons_of_mem call member)
    have step (safe : call.Safe spi.pins.flag) :
        FramesAll mask rest (call.run spi) ↔ ∀ other ∈ rest, other.Safe spi.pins.flag := by
      have same := (Call.framed high here safe).2
      rw [ih (by rw [same]; exact high) later, same]
    rw [List.forall_mem_cons]
    constructor
    · rintro ⟨framed, others⟩
      have safe := Call.safe_of_framed framed
      exact ⟨safe, (step safe).mp others⟩
    · rintro ⟨safe, others⟩
      exact ⟨(Call.framed high here safe).1, (step safe).mpr others⟩

/-- `bfsi_spi_init` drives the selects of the mask: those of the FLAG register high, the others with what
the latch holds. -/
theorem init_drives (newMask : BitVec 16) (spi : SpiPort) (chipSelect : Fin 16)
    (inMask : (spi.chipSelectMask ||| newMask).getLsbD chipSelect.val = true) :
    (bfsiSpiInit newMask spi).pins.line chipSelect =
      if chipSelect.val < 8 then some true else some (spi.pins.fioFlag.getLsbD chipSelect.val) := by
  by_cases small : chipSelect.val < 8
  · have enabled : (0xff00 ||| ((spi.chipSelectMask ||| newMask) &&& 0xff)).getLsbD chipSelect.val = true := by
      rw [BitVec.getLsbD_or, BitVec.getLsbD_and, inMask, low_byte small, Bool.and_true, Bool.or_true]
    have high : (0xff00 ||| ((spi.chipSelectMask ||| newMask) &&& 0xff)).getLsbD (chipSelect.val + 8) = true := by
      rw [BitVec.getLsbD_or, high_byte (by omega) (by omega), Bool.true_or]
    simp only [Pins.line, bfsiSpiInit, if_pos small, enabled, if_true, high]
  · have masked : ((spi.chipSelectMask ||| newMask) &&& 0xff00).getLsbD chipSelect.val = true := by
      rw [BitVec.getLsbD_and, inMask, high_byte (by omega) chipSelect.isLt, Bool.and_true]
    have some_set : (spi.chipSelectMask ||| newMask) &&& 0xff00 ≠ 0 := by
      intro none_set
      rw [none_set] at masked
      simp at masked
    have output : (spi.pins.fioDir ||| ((spi.chipSelectMask ||| newMask) &&& 0xff00)).getLsbD
        chipSelect.val = true := by
      rw [BitVec.getLsbD_or, masked, Bool.or_true]
    simp only [Pins.line, bfsiSpiInit, if_neg small, if_pos some_set, output, if_true]

/-- **The transfers of a run frame exactly one select each just if** no byte is read on a GPIO select,
8 to 15, with something in the unassigned `flag_enable` that is not the content of the FLAG register. The
port has been initialised with any mask; then FLAG and the latch may hold anything with which the selects
in the mask are high. -/
theorem spi_frames_iff (newMask flag fioFlag : BitVec 16) (before : SpiPort) :
    let init := bfsiSpiInit newMask before
    let spi : SpiPort := { init with pins := { init.pins with flag := flag, fioFlag := fioFlag } }
    AllHigh init.chipSelectMask spi.pins →
    ∀ calls : List Call, (∀ call ∈ calls, init.chipSelectMask.getLsbD call.chipSelect.val = true) →
      (FramesAll init.chipSelectMask calls spi ↔ ∀ call ∈ calls, call.Safe flag) :=
  fun high _ addressed => framesAll_iff high addressed

/-- Bytes written and read on select 2, and one written on select 12. -/
theorem spi_frames_bench :
    let init := bfsiSpiInit 0x1004 ⟨⟨0, 0x1000, 0⟩, [], 0⟩
    let calls : List Call := [.write 2 0x55, .write 12 0xaa, .read 2 0 0x0f]
    FramesAll init.chipSelectMask calls { init with pins := { init.pins with flag := 0xff04, fioFlag := 0x1000 } } :=
  (spi_frames_iff 0x1004 0xff04 0x1000 ⟨⟨0, 0x1000, 0⟩, [], 0⟩ (by unfold AllHigh; decide) _
    (by decide)).mpr (by simp [Call.Safe])

/-- **A byte read on select 12** with 0 in `flag_enable`: the FLAG register is 0 while it is shifted, and
stays 0, so select 2 is driven no more. -/
theorem read_gpio_select :
    let init := bfsiSpiInit 0x1004 ⟨⟨0, 0x1000, 0⟩, [], 0⟩
    let after := (Call.read 12 0 0x0f).run init
    AllHigh init.chipSelectMask init.pins ∧ ¬ FramesAll init.chipSelectMask [.read 12 0 0x0f] init ∧
      init.pins.flag = 0xff04 ∧ after.pins.flag = 0 ∧ after.pins.line 2 = none := by
  refine ⟨by unfold AllHigh; decide, ?_, by decide, by decide, by decide⟩
  rintro ⟨framed, -⟩
  exact absurd framed.2.1 (by decide)

end Runs

end Baps.Bfsi
