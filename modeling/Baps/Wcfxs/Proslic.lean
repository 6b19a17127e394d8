/-
**The ProSLIC (FXS) chip: indirect registers, calibration and initialisation.**

`wcfxsInitProslic` and everything it calls, as programs over the direct registers of one card. The
busy-waits of the source spin on a register or on `jiffies` without a bound; here they are given
`Params.fuel` rounds and hang when they need more.

`Uses card reads writes` says which direct registers of the card a program reads and writes. Each
function below has one lemma with its two lists, and every later result about what a function does
not touch is read off these lists.
-/

import Baps.Wcfxs.Union

namespace Baps.Wcfxs

open Interaction Memory

/-! ### Parameters -/

/-- The register numbers of `proslic.h` (not part of this repository) that the driver uses by name.
They are none of the registers the driver programs by number for the time slots (2 to 5), the line
feed (64) and the calibration (96 to 107). -/
structure ProslicH where
  idaLo : UInt8
  idaHi : UInt8
  iaa : UInt8
  iStatus : UInt8
  loopILimit : UInt8
  apart : ∀ r ∈ [idaLo, idaHi, iaa, iStatus, loopILimit], r ∉ ([2, 3, 4, 5, 64] : List UInt8) ∧
    r ∉ ([96, 97, 98, 99, 100, 101, 102, 103, 104, 105, 106, 107] : List UInt8)

/-- An entry of `fxo_modes`. -/
structure FxoMode where
  ohs : Nat
  ohs2 : Nat
  rz : Nat
  rt : Nat
  ilim : Nat
  dcv : Nat
  mini : Nat
  acim : Nat
  ringOsc : Nat
  ringX : Nat

/-- The module parameters, the selected operating mode, the kernel's `HZ`, and the rounds granted to
a busy-wait. -/
structure Params where
  regs : ProslicH
  opermode : FxoMode
  debug : Nat
  robust : Bool
  lowpower : Nat
  boostringer : Bool
  fxshonormode : Bool
  loopcurrent : Int
  loopback : Bool
  hz : UInt32
  fuel : Nat

/-- The register numbers of the chip's data sheet. -/
def proslicH : ProslicH := ⟨28, 29, 30, 31, 71, by simp⟩

/-- The module's defaults: the FCC operating mode, and every option off. -/
def Params.default : Params :=
  ⟨proslicH, ⟨0, 0, 0, 1, 0, 3, 0, 0, 0, 0⟩, 0, false, 0, false, false, 20, false, 100, 200⟩

/-- An entry of `indirect_regs`, less the name used for printing. -/
structure IndirectReg where
  address : UInt8
  altaddr : UInt8
  initial : UInt16

/-- `indirect_regs`. -/
def indirectRegs : List IndirectReg :=
  [⟨0, 255, 0x55C2⟩, ⟨1, 255, 0x51E6⟩, ⟨2, 255, 0x4B85⟩, ⟨3, 255, 0x4937⟩, ⟨4, 255, 0x3333⟩,
   ⟨5, 255, 0x0202⟩, ⟨6, 255, 0x0202⟩, ⟨7, 255, 0x0198⟩, ⟨8, 255, 0x0198⟩, ⟨9, 255, 0x0611⟩,
   ⟨10, 255, 0x0202⟩, ⟨11, 255, 0x00E5⟩, ⟨12, 255, 0x0A1C⟩, ⟨13, 0, 0x7B30⟩, ⟨14, 1, 0x0063⟩,
   ⟨15, 2, 0x0000⟩, ⟨16, 3, 0x7870⟩, ⟨17, 4, 0x007D⟩, ⟨18, 5, 0x0000⟩, ⟨19, 6, 0x0000⟩,
   ⟨20, 7, 0x7EF0⟩, ⟨21, 8, 0x0160⟩, ⟨22, 9, 0x0000⟩, ⟨23, 255, 0x2000⟩, ⟨24, 255, 0x2000⟩,
   ⟨25, 255, 0x0000⟩, ⟨26, 13, 0x2000⟩, ⟨27, 14, 0x4000⟩, ⟨28, 15, 0x1000⟩, ⟨29, 16, 0x3600⟩,
   ⟨30, 17, 0x1000⟩, ⟨31, 18, 0x0200⟩, ⟨32, 19, 0x07C0⟩, ⟨33, 20, 0x2600⟩, ⟨34, 21, 0x1B80⟩,
   ⟨35, 22, 0x8000⟩, ⟨36, 23, 0x0320⟩, ⟨37, 24, 0x008C⟩, ⟨38, 25, 0x0100⟩, ⟨39, 26, 0x0010⟩,
   ⟨40, 27, 0x0C00⟩, ⟨41, 64, 0x0C00⟩, ⟨42, 255, 0x1000⟩, ⟨43, 66, 0x1000⟩]

/-- `acim2tiss`. -/
def acim2tiss : List UInt8 := [0x0, 0x1, 0x4, 0x5, 0x7, 0x0, 0x0, 0x6, 0x0, 0x0, 0x0, 0x2, 0x0, 0x3, 0, 0]

/-! ### Register access in rows, and busy-waits -/

/-- A row of `wcfxs_setreg` calls on one card. -/
def setregs (card : Card) (row : List (UInt8 × UInt8)) : Prog Unit :=
  row.forM fun entry => wcfxsSetreg card entry.1 entry.2

/-- A row of `wcfxs_getreg` calls whose values are only printed. -/
def getregs (card : Card) (row : List UInt8) : Prog Unit :=
  row.forM fun reg => do
    let _ ← wcfxsGetreg card reg
    pure ()

/-- `while (keep(value = wcfxs_getreg(card, reg))) if (late(jiffies - origin)) break;`: the last
value read, and whether the clock ended the loop. -/
def spinReg (card : Card) (reg : UInt8) (origin : UInt32) (keep : UInt8 → Bool)
    (late : UInt32 → Bool) : Nat → Prog (UInt8 × Bool)
  | 0 => hang
  | fuel + 1 => do
      let value ← wcfxsGetreg card reg
      if keep value then do
        let now ← jiffies
        if late (now - origin) then pure (value, true)
        else spinReg card reg origin keep late fuel
      else pure (value, false)

/-- `while ((jiffies - origin) < ticks);` -/
def spinClock (origin ticks : UInt32) : Nat → Prog Unit
  | 0 => hang
  | fuel + 1 => do
      let now ← jiffies
      if now - origin < ticks then spinClock origin ticks fuel else pure ()

/-! ### Indirect registers -/

section Indirect

variable (params : Params) (card : Card)

/-- The loop of `__wait_access`, with the attempts left. -/
def waitAccessLoop : Nat → Prog Int
  | 0 => pure 0
  | attempts + 1 => do
      let data ← wcfxsGetreg card params.regs.iStatus
      if data = 0 then pure 0 else waitAccessLoop attempts

/-- `__wait_access`: at most `MAX` attempts, and `0` whether the chip became ready or not. -/
def waitAccess : Prog Int := waitAccessLoop params card 6000

/-- `translate_3215`: the alternate address of the first table entry with this address. -/
def translate3215 (address : UInt8) : UInt8 :=
  match indirectRegs.find? fun entry => entry.address = address with
  | some entry => entry.altaddr
  | none => address

/-- `wc->flags[card] & FLAG_3215`. -/
def is3215 (flags : Int) : Bool := flags % 2 = 1

/-- `wcfxs_proslic_setreg_indirect`. -/
def wcfxsProslicSetregIndirect (address : UInt8) (data : UInt16) : Prog Int := do
  let flags ← getCell (.flags card)
  let address := if is3215 flags then translate3215 address else address
  if is3215 flags ∧ address = 255 then pure 0
  else do
    let busy ← waitAccess params card
    if busy = 0 then do
      setregs card [(params.regs.idaLo, data.toUInt8), (params.regs.idaHi, (data >>> 8).toUInt8),
        (params.regs.iaa, address)]
      pure 0
    else pure (-1)

/-- `wcfxs_proslic_getreg_indirect`. -/
def wcfxsProslicGetregIndirect (address : UInt8) : Prog Int := do
  let flags ← getCell (.flags card)
  let address := if is3215 flags then translate3215 address else address
  if is3215 flags ∧ address = 255 then pure 0
  else do
    let busy ← waitAccess params card
    if busy = 0 then do
      wcfxsSetreg card params.regs.iaa address
      let busy ← waitAccess params card
      if busy = 0 then do
        let low ← wcfxsGetreg card params.regs.idaLo
        let high ← wcfxsGetreg card params.regs.idaHi
        pure (low.toNat + 256 * high.toNat : Int)
      else pure (-1)
    else pure (-1)

/-- `wcfxs_proslic_init_indirect_regs`, over the rest of the table. -/
def initIndirectRegsFrom : List IndirectReg → Prog Int
  | [] => pure 0
  | entry :: rest => do
      let failed ← wcfxsProslicSetregIndirect params card entry.address entry.initial
      if failed ≠ 0 then pure (-1) else initIndirectRegsFrom rest

/-- `wcfxs_proslic_init_indirect_regs`. -/
def wcfxsProslicInitIndirectRegs : Prog Int := initIndirectRegsFrom params card indirectRegs

/-- `wcfxs_proslic_verify_indirect_regs`, over the rest of the table. -/
def verifyIndirectRegsFrom : List IndirectReg → Bool → Prog Int
  | [], passed => pure (if passed then 0 else -1)
  | entry :: rest, passed => do
      let value ← wcfxsProslicGetregIndirect params card entry.address
      if value < 0 then pure (-1)
      else do
        let flags ← getCell (.flags card)
        if value ≠ entry.initial.toNat ∧ (¬ is3215 flags ∨ entry.altaddr ≠ 255) then
          verifyIndirectRegsFrom rest false
        else verifyIndirectRegsFrom rest passed

/-- `wcfxs_proslic_verify_indirect_regs`. -/
def wcfxsProslicVerifyIndirectRegs : Prog Int := verifyIndirectRegsFrom params card indirectRegs true

/-! ### Sanity, power and calibration -/

/-- `wcfxs_proslic_insane`. -/
def wcfxsProslicInsane : Prog Int := do
  let product ← wcfxsGetreg card 0
  if product &&& 0xf = 0 ∨ product &&& 0xf = 0xf then pure (-1)
  else if product &&& 0xf < 2 then pure (-1)
  else do
    let part ← wcfxsGetreg card 1
    Program.when (part &&& 0x80 ≠ 0) do
      let flags ← getCell (.flags card)
      setCell (.flags card) (if is3215 flags then flags else flags + 1)
    let loopback ← wcfxsGetreg card 8
    if loopback ≠ 0x2 then pure (-1)
    else do
      let linefeed ← wcfxsGetreg card 64
      if linefeed ≠ 0x0 then pure (-1)
      else do
        let mode ← wcfxsGetreg card 11
        if mode ≠ 0x33 then pure (-1)
        else do
          wcfxsSetreg card 30 0
          pure 0

/-- `wcfxs_proslic_powerleak_test`. -/
def wcfxsProslicPowerleakTest : Prog Int := do
  setregs card [(64, 0), (14, 0x10)]
  let origin ← jiffies
  let vbat ← spinReg card 82 origin (fun vbat => vbat > 0x6) (fun gone => gone ≥ params.hz / 2)
    params.fuel
  if vbat.1 < 0x06 then pure (-1) else pure 0

/-- `wcfxs_powerup_proslic`. -/
def wcfxsPowerupProslic (fast : Bool) : Prog Int := do
  wcfxsSetreg card 92 0xff
  let origin ← jiffies
  wcfxsSetreg card 14 0
  if fast then pure 0
  else do
    let vbat ← spinReg card 82 origin (fun vbat => vbat < 0xc0) (fun gone => gone > params.hz / 2)
      params.fuel
    getregs card [0, 14, 74, 80, 81, 92, 82, 83]
    if vbat.1 < 0xc0 then pure (-1)
    else do
      let lim := if params.loopcurrent > 41 then 0 else (params.loopcurrent - 20).tdiv 3
      setregs card [(params.regs.loopILimit, UInt8.ofInt lim), (93, 0x19)]
      pure 0

/-- The gain mismatch search of `wcfxs_proslic_manual_calibrate` on one result register: step it
down from `0x1f` until the direct register `sense` reads zero. Returns the last clock reading. -/
def searchGain (result sense : UInt8) : Nat → UInt32 → Prog UInt32
  | 0, origin => pure origin
  | i + 1, _ => do
      wcfxsSetreg card result (UInt8.ofNat (i + 1))
      let origin ← jiffies
      spinClock origin 4 params.fuel
      let value ← wcfxsGetreg card sense
      if value = 0 then pure origin else searchGain result sense i origin

/-- `wcfxs_proslic_manual_calibrate`. -/
def wcfxsProslicManualCalibrate : Prog Int := do
  setregs card [(21, 0), (22, 0), (23, 0), (64, 0), (97, 0x18), (96, 0x47)]
  let origin ← jiffies
  let done ← spinReg card 96 origin (fun value => value ≠ 0) (fun gone => gone > 80) params.fuel
  if done.2 then pure (-1)
  else do
    let origin ← jiffies
    spinClock origin 1 params.fuel
    ([88, 89, 90, 91, 92, 93] : List UInt8).forM fun address => do
      let _ ← wcfxsProslicSetregIndirect params card address 0
      pure ()
    setregs card [(98, 0x10), (99, 0x10)]
    let origin ← searchGain params card 98 88 0x1f origin
    let origin ← searchGain params card 99 89 0x1f origin
    wcfxsSetreg card 64 1
    spinClock origin 10 params.fuel
    setregs card [(64, 0), (23, 0x4), (97, 0x1), (96, 0x40)]
    getregs card [96]
    setregs card [(21, 0xFF), (22, 0xFF), (23, 0xFF)]
    pure 0

/-- `wcfxs_proslic_calibrate`. -/
def wcfxsProslicCalibrate : Prog Int := do
  setregs card [(97, 0x1f), (96, 0x5f)]
  let origin ← jiffies
  let done ← spinReg card 96 origin (fun value => value ≠ 0) (fun gone => gone > 2 * params.hz)
    params.fuel
  if done.2 then pure (-1)
  else do
    Program.when (params.debug ≠ 0) (getregs card [98, 99, 100, 101, 102, 103, 104, 105, 106, 107])
    pure 0

/-- Calibrate, and once more if that fails. -/
def calibrateTwice (manual : Bool) : Prog Int := do
  let calibrate := if manual then wcfxsProslicManualCalibrate params card
    else wcfxsProslicCalibrate params card
  let failed ← calibrate
  if failed ≠ 0 then calibrate else pure 0

/-! ### Initialisation -/

/-- Clear the digital filters at the given indirect addresses, returning their old values. -/
def flushFilters : List UInt8 → Prog (List UInt16)
  | [] => pure []
  | address :: rest => do
      let old ← wcfxsProslicGetregIndirect params card address
      let _ ← wcfxsProslicSetregIndirect params card address 0x8000
      let olds ← flushFilters rest
      pure (UInt16.ofInt old :: olds)

/-- The indirect addresses of the digital filters. -/
def filterAddresses : List UInt8 := [35, 36, 37, 38, 39]

/-- `NUM_CAL_REGS` registers from 96 on. -/
def calReg (x : Nat) : UInt8 := UInt8.ofNat (96 + x)

/-- Save the calibration vector. -/
def saveCalregs : Prog Unit :=
  (List.range 12).forM fun x => do
    let value ← wcfxsGetreg card (calReg x)
    calregsStore card x value

/-- Restore the calibration registers. -/
def restoreCalregs : Prog Unit :=
  (List.range 12).forM fun x => do
    let value ← calregsLoad card x
    wcfxsSetreg card (calReg x) value

/-- `wcfxs_init_proslic` down to the first power-up: `some` the old filter values, or the error. -/
def initProslicPrelude (fast sane : Bool) : Prog (Except Int (List UInt16)) := do
  fxsStore .idletxhookstate card 1
  let insane ← (if sane then pure 0 else wcfxsProslicInsane card)
  if insane ≠ 0 then pure (.error (-2))
  else do
    Program.when sane (wcfxsSetreg card 14 0x10)
    let failed ← wcfxsProslicInitIndirectRegs params card
    if failed ≠ 0 then pure (.error (-1))
    else do
      let _ ← wcfxsProslicSetregIndirect params card 97 0
      setregs card [(8, 0), (108, 0xeb), (67, 0x17), (66, 1)]
      let tmp ← flushFilters params card filterAddresses
      let failed ← wcfxsPowerupProslic params card fast
      if failed ≠ 0 then pure (.error (-1)) else pure (.ok tmp)

/-- The calibration of a full initialisation, up to the saving of its result. -/
def initProslicCalibrate (manual : Bool) : Prog Int := do
  let _ ← wcfxsProslicPowerleakTest params card
  let failed ← wcfxsPowerupProslic params card false
  if failed ≠ 0 then pure (-1)
  else do
    let failed ← calibrateTwice params card manual
    if failed ≠ 0 then pure (-1)
    else do
      wcfxsSetreg card 93 0x99
      let r19 ← wcfxsGetreg card 107
      Program.when (r19 < 0x2 ∨ r19 > 0xd) (wcfxsSetreg card 107 0x8)
      pure 0

/-- The last part of `wcfxs_init_proslic`: the module parameters, and the line feed. -/
def initProslicOptions : Prog Int := do
  Program.when params.fxshonormode do
    wcfxsSetreg card 10 (0x08 ||| acim2tiss.getD params.opermode.acim 0)
    Program.when (params.opermode.ringOsc ≠ 0) do
      let _ ← wcfxsProslicSetregIndirect params card 20 (UInt16.ofNat params.opermode.ringOsc)
      pure ()
    Program.when (params.opermode.ringX ≠ 0) do
      let _ ← wcfxsProslicSetregIndirect params card 21 (UInt16.ofNat params.opermode.ringX)
      pure ()
  Program.when (params.lowpower ≠ 0) (wcfxsSetreg card 72 0x10)
  let failed ← (if params.boostringer then wcfxsProslicSetregIndirect params card 21 0x1d1
    else if params.lowpower ≠ 0 then wcfxsProslicSetregIndirect params card 21 0x108
    else pure 0)
  if failed ≠ 0 then pure (-1)
  else do
    wcfxsSetreg card 64 0x01
    pure 0

/-- Restore the filters after calibration, and verify the indirect registers. -/
def initProslicVerify (tmp : List UInt16) : Prog Int := do
  (filterAddresses.zip tmp).forM fun entry => do
    let _ ← wcfxsProslicSetregIndirect params card entry.1 entry.2
    pure ()
  wcfxsProslicVerifyIndirectRegs params card

/-- The row of `wcfxs_init_proslic` that sets the interface and the time slot. -/
def timeslotRow (timeslot : UInt8) : List (UInt8 × UInt8) :=
  [(1, 0x28), (2, timeslot), (3, 0), (4, timeslot), (5, 0), (18, 0xff), (19, 0xff), (20, 0xff),
    (73, 0x04)]

/-- `wcfxs_init_proslic` after calibration. -/
def initProslicFinish (timeslot : UInt8) (tmp : List UInt16) : Prog Int := do
  let failed ← initProslicVerify params card tmp
  if failed ≠ 0 then pure (-1)
  else do
    setregs card (timeslotRow timeslot)
    initProslicOptions params card

/-- `wcfxs_init_proslic`, with the time slot count to program. The source overwrites its `manual`
argument with `1`. -/
def wcfxsInitProslic (timeslot : UInt8) (fast sane : Bool) : Prog Int := do
  let prelude ← initProslicPrelude params card fast sane
  match prelude with
  | .error code => pure code
  | .ok tmp =>
      if fast then do
        restoreCalregs card
        initProslicFinish params card timeslot tmp
      else do
        let failed ← initProslicCalibrate params card true
        if failed ≠ 0 then pure (-1)
        else do
          saveCalregs card
          initProslicFinish params card timeslot tmp

end Indirect

/-! ### Which registers each part touches -/

/-- A request on the direct registers of one card: it reads in the first list, writes in the second,
and changes no variable but the card's flags. -/
def Uses (card : Card) (reads writes : List UInt8) : Op → Prop
  | .getreg c reg => c = card ∧ reg ∈ reads
  | .setreg c reg _ => c = card ∧ reg ∈ writes
  | .set cell _ => cell = .flags card
  | .get _ => True
  | .jiffies => True
  | .waitJustABit _ => True
  | .hang => True
  | _ => False

namespace Uses

variable {card : Card} {reads writes : List UInt8}

theorem mono {moreReads moreWrites : List UInt8} (subReads : reads ⊆ moreReads)
    (subWrites : writes ⊆ moreWrites) (op : Op) (uses : Uses card reads writes op) :
    Uses card moreReads moreWrites op := by
  cases op with
  | getreg c reg => exact ⟨uses.1, subReads uses.2⟩
  | setreg c reg value => exact ⟨uses.1, subWrites uses.2⟩
  | _ => exact uses

theorem hang {α : Type} : (Wcfxs.hang : Prog α).Every (Uses card reads writes) :=
  ⟨trivial, nofun⟩

theorem setregs {row : List (UInt8 × UInt8)} (inside : ∀ entry ∈ row, entry.1 ∈ writes) :
    (setregs card row).Every (Uses card reads writes) :=
  .forM fun entry member => .call ⟨rfl, inside entry member⟩

theorem getregs {row : List UInt8} (inside : ∀ reg ∈ row, reg ∈ reads) :
    (getregs card row).Every (Uses card reads writes) :=
  .forM fun reg member => .step ⟨rfl, inside reg member⟩ fun _ => trivial

theorem spinReg {reg : UInt8} {origin : UInt32} {keep : UInt8 → Bool} {late : UInt32 → Bool}
    (inside : reg ∈ reads) (fuel : Nat) :
    (spinReg card reg origin keep late fuel).Every (Uses card reads writes) := by
  induction fuel with
  | zero => exact hang
  | succ fuel ih =>
    refine .step ⟨rfl, inside⟩ fun value => .ite (fun _ => .step trivial fun now => ?_)
      fun _ => trivial
    exact .ite (fun _ => trivial) fun _ => ih

theorem spinClock {origin ticks : UInt32} (fuel : Nat) :
    (spinClock origin ticks fuel).Every (Uses card reads writes) := by
  induction fuel with
  | zero => exact hang
  | succ fuel ih => exact .step trivial fun now => .ite (fun _ => ih) fun _ => trivial

section Indirect

variable {params : Params}

/-- The direct registers behind an indirect access are in the two lists. -/
structure Indirect (params : Params) (reads writes : List UInt8) : Prop where
  status : params.regs.iStatus ∈ reads
  low : params.regs.idaLo ∈ reads
  high : params.regs.idaHi ∈ reads
  setLow : params.regs.idaLo ∈ writes
  setHigh : params.regs.idaHi ∈ writes
  setAddress : params.regs.iaa ∈ writes

variable (inside : Indirect params reads writes)
include inside

theorem waitAccess : (waitAccess params card).Every (Uses card reads writes) := by
  unfold Wcfxs.waitAccess
  generalize 6000 = attempts
  induction attempts with
  | zero => trivial
  | succ attempts ih =>
    exact .step ⟨rfl, inside.status⟩ fun data => .ite (fun _ => trivial) fun _ => ih

theorem setregIndirect (address : UInt8) (data : UInt16) :
    (wcfxsProslicSetregIndirect params card address data).Every (Uses card reads writes) := by
  refine .step trivial fun flags => .ite (fun _ => trivial) fun _ => ?_
  refine .bind (waitAccess inside) fun busy => .ite (fun _ => ?_) fun _ => trivial
  refine .bind (setregs ?_) fun _ => trivial
  simp [inside.setLow, inside.setHigh, inside.setAddress]

theorem getregIndirect (address : UInt8) :
    (wcfxsProslicGetregIndirect params card address).Every (Uses card reads writes) := by
  refine .step trivial fun flags => .ite (fun _ => trivial) fun _ => ?_
  refine .bind (waitAccess inside) fun busy => .ite (fun _ => ?_) fun _ => trivial
  refine .step ⟨rfl, inside.setAddress⟩ fun _ => ?_
  refine .bind (waitAccess inside) fun busy => .ite (fun _ => ?_) fun _ => trivial
  exact .step ⟨rfl, inside.low⟩ fun _ => .step ⟨rfl, inside.high⟩ fun _ => trivial

theorem initIndirectRegs :
    (wcfxsProslicInitIndirectRegs params card).Every (Uses card reads writes) := by
  unfold wcfxsProslicInitIndirectRegs
  generalize indirectRegs = table
  induction table with
  | nil => trivial
  | cons entry rest ih =>
    exact .bind (setregIndirect inside _ _) fun failed => .ite (fun _ => trivial) fun _ => ih

theorem verifyIndirectRegs :
    (wcfxsProslicVerifyIndirectRegs params card).Every (Uses card reads writes) := by
  unfold wcfxsProslicVerifyIndirectRegs
  generalize indirectRegs = table
  generalize true = passed
  induction table generalizing passed with
  | nil => trivial
  | cons entry rest ih =>
    refine .bind (getregIndirect inside _) fun value => .ite (fun _ => trivial) fun _ => ?_
    exact .step trivial fun flags => .ite (fun _ => ih false) fun _ => ih passed

theorem flushFilters (addresses : List UInt8) :
    (flushFilters params card addresses).Every (Uses card reads writes) := by
  induction addresses with
  | nil => trivial
  | cons address rest ih =>
    exact .bind (getregIndirect inside address) fun _ =>
      .bind (setregIndirect inside address _) fun _ => .bind ih fun _ => trivial

theorem initProslicVerify (tmp : List UInt16) :
    (initProslicVerify params card tmp).Every (Uses card reads writes) :=
  .bind (.forM fun _ _ => .bind (setregIndirect inside _ _) fun _ => trivial)
    fun _ => verifyIndirectRegs inside

end Indirect

theorem insane (inReads : ∀ reg ∈ ([0, 1, 8, 64, 11] : List UInt8), reg ∈ reads)
    (inWrites : 30 ∈ writes) : (wcfxsProslicInsane card).Every (Uses card reads writes) := by
  refine .step ⟨rfl, inReads 0 (by decide)⟩ fun product => .ite (fun _ => trivial) fun _ => ?_
  refine .ite (fun _ => trivial) fun _ => .step ⟨rfl, inReads 1 (by decide)⟩ fun part => ?_
  refine .bind (.when fun _ => .step trivial fun _ => .call rfl) fun _ => ?_
  refine .step ⟨rfl, inReads 8 (by decide)⟩ fun _ => .ite (fun _ => trivial) fun _ => ?_
  refine .step ⟨rfl, inReads 64 (by decide)⟩ fun _ => .ite (fun _ => trivial) fun _ => ?_
  refine .step ⟨rfl, inReads 11 (by decide)⟩ fun _ => .ite (fun _ => trivial) fun _ => ?_
  exact .step ⟨rfl, inWrites⟩ fun _ => trivial

end Uses

section Parts

variable (params : Params) (card : Card)

/-- The direct registers an indirect access reads. -/
def indirectReads : List UInt8 := [params.regs.iStatus, params.regs.idaLo, params.regs.idaHi]

/-- The direct registers an indirect access writes. -/
def indirectWrites : List UInt8 := [params.regs.idaLo, params.regs.idaHi, params.regs.iaa]

theorem indirect_inside (reads writes : List UInt8) :
    Uses.Indirect params (reads ++ indirectReads params) (writes ++ indirectWrites params) := by
  constructor <;> simp [indirectReads, indirectWrites]

/-- The registers `wcfxs_powerup_proslic` reads. -/
def powerupReads : List UInt8 := [0, 14, 74, 80, 81, 92, 82, 83]

/-- The registers `wcfxs_powerup_proslic` writes. -/
def powerupWrites : List UInt8 := [92, 14, params.regs.loopILimit, 93]

theorem powerup_uses (fast : Bool) :
    (wcfxsPowerupProslic params card fast).Every (Uses card powerupReads (powerupWrites params)) := by
  refine .step ⟨rfl, by simp [powerupWrites]⟩ fun _ => .step trivial fun origin => ?_
  refine .step ⟨rfl, by simp [powerupWrites]⟩ fun _ => .ite (fun _ => trivial) fun _ => ?_
  refine .bind (Uses.spinReg (by decide) _) fun vbat => ?_
  refine .bind (Uses.getregs fun _ member => member) fun _ => .ite (fun _ => trivial) fun _ => ?_
  exact .bind (Uses.setregs (by simp [powerupWrites])) fun _ => trivial

theorem powerleak_uses :
    (wcfxsProslicPowerleakTest params card).Every (Uses card [82] [64, 14]) := by
  refine .bind (Uses.setregs (by simp)) fun _ => .step trivial fun origin => ?_
  exact .bind (Uses.spinReg (by simp) _) fun vbat => .ite (fun _ => trivial) fun _ => trivial

theorem searchGain_uses {reads writes : List UInt8} {result sense : UInt8}
    (inWrites : result ∈ writes) (inReads : sense ∈ reads) (i : Nat) (origin : UInt32) :
    (searchGain params card result sense i origin).Every (Uses card reads writes) := by
  induction i generalizing origin with
  | zero => trivial
  | succ i ih =>
    refine .step ⟨rfl, inWrites⟩ fun _ => .step trivial fun now => ?_
    refine .bind (Uses.spinClock _) fun _ => .step ⟨rfl, inReads⟩ fun value => ?_
    exact .ite (fun _ => trivial) fun _ => ih now

/-- The registers manual calibration writes. -/
def manualWrites : List UInt8 := [21, 22, 23, 64, 97, 96, 98, 99] ++ indirectWrites params

/-- The registers manual calibration reads. -/
def manualReads : List UInt8 := [96, 88, 89] ++ indirectReads params

theorem manualCalibrate_uses :
    (wcfxsProslicManualCalibrate params card).Every
      (Uses card (manualReads params) (manualWrites params)) := by
  refine .bind (Uses.setregs (by simp [manualWrites])) fun _ => .step trivial fun origin => ?_
  refine .bind (Uses.spinReg (by simp [manualReads]) _) fun done => ?_
  refine .ite (fun _ => trivial) fun _ => .step trivial fun origin => ?_
  refine .bind (Uses.spinClock _) fun _ => .bind (.forM fun address _ => ?_) fun _ => ?_
  · exact .bind (Uses.setregIndirect (indirect_inside params _ _) address 0) fun _ => trivial
  refine .bind (Uses.setregs (by simp [manualWrites])) fun _ => ?_
  refine .bind (searchGain_uses params card (by simp [manualWrites]) (by simp [manualReads]) _ _)
    fun origin => ?_
  refine .bind (searchGain_uses params card (by simp [manualWrites]) (by simp [manualReads]) _ _)
    fun origin => ?_
  refine .step ⟨rfl, by simp [manualWrites]⟩ fun _ => .bind (Uses.spinClock _) fun _ => ?_
  refine .bind (Uses.setregs (by simp [manualWrites])) fun _ => ?_
  refine .bind (Uses.getregs (by simp [manualReads])) fun _ => ?_
  exact .bind (Uses.setregs (by simp [manualWrites])) fun _ => trivial

/-- The registers read before calibration is saved: 96 and 107 among them, 97 not. -/
def calibrateReads : List UInt8 := powerupReads ++ [107, 96, 88, 89] ++ indirectReads params

/-- The registers written before calibration is saved. -/
def calibrateWrites : List UInt8 := powerupWrites params ++ [107] ++ manualWrites params

theorem initProslicCalibrate_uses :
    (initProslicCalibrate params card true).Every
      (Uses card (calibrateReads params) (calibrateWrites params)) := by
  have manual : (wcfxsProslicManualCalibrate params card).Every
      (Uses card (calibrateReads params) (calibrateWrites params)) := by
    refine (manualCalibrate_uses params card).mono (Uses.mono ?_ ?_)
    · intro reg; simp only [manualReads, calibrateReads, List.mem_append, List.mem_cons]; tauto
    · intro reg; simp only [calibrateWrites, List.mem_append]; tauto
  refine .bind ((powerleak_uses params card).mono (Uses.mono ?_ ?_)) fun _ => ?_
  · intro reg; simp only [calibrateReads, powerupReads, List.mem_append, List.mem_cons]; tauto
  · intro reg
    simp only [calibrateWrites, powerupWrites, manualWrites, List.mem_append, List.mem_cons]; tauto
  refine .bind ((powerup_uses params card false).mono (Uses.mono ?_ ?_)) fun failed => ?_
  · intro reg; simp only [calibrateReads, List.mem_append]; tauto
  · intro reg; simp only [calibrateWrites, List.mem_append]; tauto
  refine .ite (fun _ => trivial) fun _ => .bind ?_ fun failed => ?_
  · exact .bind manual fun failed => .ite (fun _ => manual) fun _ => trivial
  refine .ite (fun _ => trivial) fun _ => ?_
  refine .step ⟨rfl, by simp [calibrateWrites, powerupWrites]⟩ fun _ => ?_
  refine .step ⟨rfl, by simp [calibrateReads]⟩ fun r19 => ?_
  exact .bind (.when fun _ => .call ⟨rfl, by simp [calibrateWrites]⟩) fun _ => trivial

/-- The registers the options write. -/
def optionsWrites : List UInt8 := [10, 72, 64] ++ indirectWrites params

theorem initProslicOptions_uses :
    (initProslicOptions params card).Every
      (Uses card (indirectReads params) (optionsWrites params)) := by
  have indirect : ∀ address data, (wcfxsProslicSetregIndirect params card address data).Every
      (Uses card (indirectReads params) (optionsWrites params)) :=
    Uses.setregIndirect (indirect_inside params [] [10, 72, 64])
  refine .bind (.when fun _ => .step ⟨rfl, by simp [optionsWrites]⟩ fun _ => ?_) fun _ => ?_
  · exact .bind (.when fun _ => .bind (indirect _ _) fun _ => trivial) fun _ =>
      .when fun _ => .bind (indirect _ _) fun _ => trivial
  refine .bind (.when fun _ => .call ⟨rfl, by simp [optionsWrites]⟩) fun _ => .bind ?_ fun failed => ?_
  · exact .ite (fun _ => indirect _ _) fun _ => .ite (fun _ => indirect _ _) fun _ => trivial
  exact .ite (fun _ => trivial) fun _ => .step ⟨rfl, by simp [optionsWrites]⟩ fun _ => trivial

/-- The registers written after calibration. -/
def finishWrites : List UInt8 := [1, 2, 3, 4, 5, 18, 19, 20, 73] ++ optionsWrites params

theorem initProslicFinish_uses (timeslot : UInt8) (tmp : List UInt16) :
    (initProslicFinish params card timeslot tmp).Every
      (Uses card (indirectReads params) (finishWrites params)) := by
  refine .bind ?_ fun failed => .ite (fun _ => trivial) fun _ => ?_
  · exact Uses.initProslicVerify (indirect_inside params []
      ([1, 2, 3, 4, 5, 18, 19, 20, 73, 10, 72, 64])) tmp
  refine .bind (Uses.setregs (by simp [timeslotRow, finishWrites])) fun _ => ?_
  refine (initProslicOptions_uses params card).mono (Uses.mono (fun _ member => member) ?_)
  intro reg; simp only [finishWrites, List.mem_append]; tauto

/-- The registers read before the first power-up is done. -/
def preludeReads : List UInt8 := [0, 1, 8, 64, 11] ++ powerupReads ++ indirectReads params

/-- The registers written before the first power-up is done. -/
def preludeWrites : List UInt8 :=
  [30, 14, 8, 108, 67, 66] ++ powerupWrites params ++ indirectWrites params

theorem initProslicPrelude_every {P : Op → Prop}
    (store : P (.storeInt (FxsVar.idletxhookstate.offset card) 1))
    (uses : ∀ op, Uses card (preludeReads params) (preludeWrites params) op → P op)
    (fast sane : Bool) : (initProslicPrelude params card fast sane).Every P := by
  have indirect : Uses.Indirect params (preludeReads params) (preludeWrites params) :=
    indirect_inside params ([0, 1, 8, 64, 11] ++ powerupReads)
      ([30, 14, 8, 108, 67, 66] ++ powerupWrites params)
  have powerup : (wcfxsPowerupProslic params card fast).Every
      (Uses card (preludeReads params) (preludeWrites params)) := by
    refine (powerup_uses params card fast).mono (Uses.mono ?_ ?_)
    · intro reg; simp only [preludeReads, List.mem_append]; tauto
    · intro reg; simp only [preludeWrites, List.mem_append]; tauto
  refine .step store fun _ => Program.Every.mono ?_ uses
  refine .bind (.ite (fun _ => trivial) fun _ => ?_) fun insane => ?_
  · exact Uses.insane (by simp [preludeReads]) (by simp [preludeWrites])
  refine .ite (fun _ => trivial) fun _ => ?_
  refine .bind (.when fun _ => .call ⟨rfl, by simp [preludeWrites]⟩) fun _ => ?_
  refine .bind (Uses.initIndirectRegs indirect) fun failed => .ite (fun _ => trivial) fun _ => ?_
  refine .bind (Uses.setregIndirect indirect 97 0) fun _ => ?_
  refine .bind (Uses.setregs (by simp [preludeWrites])) fun _ => ?_
  refine .bind (Uses.flushFilters indirect _) fun tmp => .bind powerup fun failed => ?_
  exact .ite (fun _ => trivial) fun _ => trivial

/-- What an initialisation asks for: the idle state, registers of the card, and its calibration
bytes. -/
theorem initProslic_every {P : Op → Prop}
    (store : P (.storeInt (FxsVar.idletxhookstate.offset card) 1))
    (uses : ∀ reads writes op, Uses card reads writes op → P op)
    (load : ∀ offset, P (.loadByte offset))
    (save : ∀ x < 12, ∀ value, P (.storeByte (calregsOffset card x) value))
    (timeslot : UInt8) (fast sane : Bool) :
    (wcfxsInitProslic params card timeslot fast sane).Every P := by
  refine .bind (initProslicPrelude_every params card store (uses _ _) fast sane) fun prelude => ?_
  cases prelude with
  | error code => trivial
  | ok tmp =>
    have finish : (initProslicFinish params card timeslot tmp).Every P :=
      (initProslicFinish_uses params card timeslot tmp).mono (uses _ _)
    refine .ite (fun _ => .bind (.forM fun x _ => ?_) fun _ => finish) fun _ => ?_
    · exact .step (load _) fun value => .call (uses [] [calReg x] _ ⟨rfl, List.mem_singleton.mpr rfl⟩)
    refine .bind ((initProslicCalibrate_uses params card).mono (uses _ _)) fun failed => ?_
    refine .ite (fun _ => trivial) fun _ => .bind (.forM fun x inside => ?_) fun _ => finish
    refine .step (uses [calReg x] [] _ ⟨rfl, List.mem_singleton.mpr rfl⟩) fun value => ?_
    exact .call (save x (List.mem_range.mp inside) value)

end Parts

end Baps.Wcfxs
