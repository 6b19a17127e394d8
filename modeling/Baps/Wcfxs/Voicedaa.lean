/-
**The VoiceDAA (FXO) chip: initialisation, ring, battery and polarity detection.**

`wcfxsInitVoicedaa` programs a Si3050 for its time slot. `wcfxsVoicedaaCheckHook` is what the
interrupt runs for an FXO card on every eighth tick; it is cut here into its three detectors, which
run in this order on the variables of the card.
-/

import Baps.Wcfxs.Proslic

namespace Baps.Wcfxs

open Interaction Memory

/-! ### Initialisation -/

section Init

variable (params : Params) (card : Card)

/-- `wcfxs_voicedaa_insane`. -/
def wcfxsVoicedaaInsane : Prog Int := do
  let part ← wcfxsGetreg card 2
  if part ≠ 0x3 then pure (-2)
  else do
    getregs card [11]
    pure 0

/-- The wait for the ISO link: `while ((jiffies < newjiffies) && !(wcfxs_getreg(11) & 0xf0))
wait_just_a_bit(HZ/10)`. The comparison is unsigned: the counter is an `unsigned long`, and the
`long` deadline is converted to it. -/
def waitIsoLink (newjiffies : UInt32) : Nat → Prog Unit
  | 0 => hang
  | fuel + 1 => do
      let now ← jiffies
      if now < newjiffies then do
        let link ← wcfxsGetreg card 11
        if link &&& 0xf0 = 0 then do
          waitJustABit (params.hz.toNat / 10)
          waitIsoLink newjiffies fuel
        else pure ()
      else pure ()

/-- The row of `wcfxs_init_voicedaa` that sets the line interface of the operating mode. -/
def daaModeRow (mode : FxoMode) : List (UInt8 × UInt8) :=
  [(33, 0x28),
   (16, UInt8.ofNat (mode.ohs <<< 6) ||| UInt8.ofNat (mode.rz <<< 1) ||| UInt8.ofNat mode.rt),
   (26, UInt8.ofNat (mode.dcv <<< 6) ||| UInt8.ofNat (mode.mini <<< 4) |||
     UInt8.ofNat (mode.ilim <<< 1)),
   (30, UInt8.ofNat mode.acim),
   (31, (0xa3 : UInt8) ||| UInt8.ofNat (mode.ohs2 <<< 3))]

/-- The row of `wcfxs_init_voicedaa` that sets the transmit and receive time slot. -/
def daaTimeslotRow (timeslot : UInt8) : List (UInt8 × UInt8) :=
  [(34, timeslot), (35, 0x00), (36, timeslot), (37, 0x00)]

/-- `wcfxs_init_voicedaa` after the time slot: bring the ISO link up, and monitor the line. -/
def initVoicedaaLink : Prog Int := do
  wcfxsSetreg card 6 0x00
  let now ← jiffies
  waitIsoLink params card (now + 2 * params.hz) params.fuel
  let link ← wcfxsGetreg card 11
  if link &&& 0xf0 = 0 then pure (-1)
  else do
    Program.when (params.debug ≠ 0) (getregs card [11, 13])
    wcfxsSetreg card 5 0x08
    Program.when params.loopback (wcfxsSetreg card 10 0x01)
    pure 0

/-- `wcfxs_init_voicedaa`, with the time slot count to program. -/
def wcfxsInitVoicedaa (timeslot : UInt8) (sane : Bool) : Prog Int := do
  let insane ← (if sane then pure 0 else wcfxsVoicedaaInsane card)
  if insane ≠ 0 then pure (-2)
  else do
    wcfxsSetreg card 1 0x80
    waitJustABit (params.hz.toNat / 10)
    setregs card (daaModeRow params.opermode)
    setregs card (daaTimeslotRow timeslot)
    initVoicedaaLink params card

theorem initVoicedaaLink_uses :
    (initVoicedaaLink params card).Every (Uses card [11, 13] [6, 5, 10]) := by
  have link : ∀ newjiffies fuel, (waitIsoLink params card newjiffies fuel).Every
      (Uses card [11, 13] [6, 5, 10]) := by
    intro newjiffies fuel
    induction fuel with
    | zero => exact Uses.hang
    | succ fuel ih =>
      refine .step trivial fun now => .ite (fun _ => ?_) fun _ => trivial
      refine .step ⟨rfl, by decide⟩ fun link => .ite (fun _ => ?_) fun _ => trivial
      exact .step trivial fun _ => ih
  refine .step ⟨rfl, by decide⟩ fun _ => .step trivial fun now => .bind (link _ _) fun _ => ?_
  refine .step ⟨rfl, by decide⟩ fun up => .ite (fun _ => trivial) fun _ => ?_
  refine .bind (.when fun _ => Uses.getregs (by simp)) fun _ => .step ⟨rfl, by decide⟩ fun _ => ?_
  exact .bind (.when fun _ => .call ⟨rfl, by decide⟩) fun _ => trivial

/-- The registers `wcfxs_init_voicedaa` writes. -/
def daaWrites : List UInt8 := [1, 33, 16, 26, 30, 31, 34, 35, 36, 37, 6, 5, 10]

theorem initVoicedaa_uses (timeslot : UInt8) (sane : Bool) :
    (wcfxsInitVoicedaa params card timeslot sane).Every (Uses card [2, 11, 13] daaWrites) := by
  refine .bind (.ite (fun _ => trivial) fun _ => ?_) fun insane => .ite (fun _ => trivial) fun _ => ?_
  · refine .step ⟨rfl, by decide⟩ fun part => .ite (fun _ => trivial) fun _ => ?_
    exact .bind (Uses.getregs (by simp)) fun _ => trivial
  refine .step ⟨rfl, by decide⟩ fun _ => .step trivial fun _ => ?_
  refine .bind (Uses.setregs (by simp [daaModeRow, daaWrites])) fun _ => ?_
  refine .bind (Uses.setregs (by simp [daaTimeslotRow, daaWrites])) fun _ => ?_
  exact (initVoicedaaLink_uses params card).mono (Uses.mono (by simp) (by simp [daaWrites]))

end Init

/-! ### The detectors -/

section Detectors

variable (card : Card)

/-- Ring detection: a leaky integrator of the ring bits of register 5. -/
def detectRing : Prog Unit := do
  let offhook ← fxoLoad .offhook card
  Program.when (offhook = 0) do
    let res ← wcfxsGetreg card 5
    let battery ← fxoLoad .battery card
    if res &&& 0x60 ≠ 0 ∧ battery ≠ 0 then do
      let level ← fxoLoad .ringdebounce card
      fxoStore .ringdebounce card (level + 8 * 8)
      let level ← fxoLoad .ringdebounce card
      Program.when (level ≥ 8 * 64) do
        let wasringing ← fxoLoad .wasringing card
        Program.when (wasringing = 0) do
          fxoStore .wasringing card 1
          ztHooksig card .ring
          wcfxsSetLed (card.val + 1) .green
        fxoStore .ringdebounce card (8 * 64)
    else do
      let level ← fxoLoad .ringdebounce card
      fxoStore .ringdebounce card (level - 8)
      let level ← fxoLoad .ringdebounce card
      Program.when (level ≤ 0) do
        let wasringing ← fxoLoad .wasringing card
        Program.when (wasringing ≠ 0) do
          fxoStore .wasringing card 0
          ztHooksig card .offhook
          wcfxsSetLed (card.val + 1) .red
          Program.call Op.forgetCard
        fxoStore .ringdebounce card 0

/-- `BATT_DEBOUNCE`, `POLARITY_DEBOUNCE` and `BATT_THRESH`. -/
def battDebounce : Int := 64
def polarityDebounce : Int := 64
def battThresh : Int := 3

/-- A line voltage under the threshold: perhaps the battery has gone. -/
def detectNoBattery : Prog Unit := do
  let timer ← fxoLoad .nobatttimer card
  fxoStore .nobatttimer card (timer + 1)
  let battery ← fxoLoad .battery card
  let debounce ← fxoLoad .battdebounce card
  if battery ≠ 0 ∧ debounce = 0 then do
    fxoStore .battery card 0
    ztHooksig card .onhook
    fxoStore .battdebounce card battDebounce
  else Program.when (battery = 0) (fxoStore .battdebounce card battDebounce)

/-- A line voltage over the threshold: perhaps the battery is back, perhaps with the other
polarity. -/
def detectBattery (b : Int) : Prog Unit := do
  let battery ← fxoLoad .battery card
  let debounce ← fxoLoad .battdebounce card
  (if battery = 0 ∧ debounce = 0 then do
    ztHooksig card .offhook
    fxoStore .battery card 1
    fxoStore .nobatttimer card 0
    fxoStore .battdebounce card battDebounce
  else Program.when (battery ≠ 0) (fxoStore .battdebounce card battDebounce))
  let lastpol ← fxoLoad .lastpol card
  Program.when (lastpol ≥ 0 ∧ b < 0) do
    fxoStore .lastpol card (-1)
    fxoStore .polaritydebounce card polarityDebounce
  let lastpol ← fxoLoad .lastpol card
  Program.when (lastpol ≤ 0 ∧ b > 0) do
    fxoStore .lastpol card 1
    fxoStore .polaritydebounce card polarityDebounce

/-- The countdowns of the battery and the polarity debouncers. -/
def countDown : Prog Unit := do
  let debounce ← fxoLoad .battdebounce card
  Program.when (debounce ≠ 0) (fxoStore .battdebounce card (debounce - 8 / 4))
  let debounce ← fxoLoad .polaritydebounce card
  Program.when (debounce ≠ 0) do
    fxoStore .polaritydebounce card (debounce - 1)
    let debounce ← fxoLoad .polaritydebounce card
    Program.when (debounce < 1) do
      let lastpol ← fxoLoad .lastpol card
      let polarity ← fxoLoad .polarity card
      Program.when (lastpol ≠ polarity) do
        Program.when (polarity ≠ 0) (Program.call (Op.ztQeventPolarity card))
        fxoStore .polarity card lastpol

/-- `wcfxs_voicedaa_check_hook`. -/
def wcfxsVoicedaaCheckHook : Prog Unit := do
  detectRing card
  let reading ← wcfxsGetreg card 29
  let b := reading.toInt8.toInt
  (if |b| < battThresh then detectNoBattery card
  else if |b| > battThresh then detectBattery card b
  else fxoStore .battdebounce card battDebounce)
  countDown card

end Detectors

end Baps.Wcfxs
