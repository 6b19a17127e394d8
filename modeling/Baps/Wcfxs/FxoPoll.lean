/-
**A poll of an FXO card, on the variables of its three detectors.**

`wcfxs_voicedaa_check_hook` integrates the ring bits, then reads the line voltage and debounces the
battery and the polarity. Here each detector is a step on its own variables with its outputs: `Ring`,
`Battery` and `Polarity`.

The exchanges of a poll fall apart at the reading of register 29: what comes before it is the ring
detector's (`ringPart`), what comes after it is that of the other two (`linePart`). OFFHOOK is
signalled by two detectors, and this is what tells them apart.

* `poll_ends` — **a poll is a step of each detector**.
-/

import Baps.Wcfxs.Isolation
import Baps.Wcfxs.Polls

namespace Baps.Wcfxs

open Interaction Memory

/-! ### The detectors, on their variables -/

/-- The variables of the ring detector. -/
structure Ring where
  wasringing : Int
  ringdebounce : Int

/-- A poll on hook, with or without a ringing voltage, and what it signals. -/
def Ring.step (ring : Ring) (ringing : Bool) : Ring × List RxSig :=
  if ringing then
    if ring.ringdebounce + 64 ≥ 512 then
      (⟨if ring.wasringing = 0 then 1 else ring.wasringing, 512⟩,
        if ring.wasringing = 0 then [.ring] else [])
    else (⟨ring.wasringing, ring.ringdebounce + 64⟩, [])
  else if ring.ringdebounce - 8 ≤ 0 then (⟨0, 0⟩, if ring.wasringing ≠ 0 then [.offhook] else [])
  else (⟨ring.wasringing, ring.ringdebounce - 8⟩, [])

namespace Ring

variable {ring : Ring}

theorem step_full (full : ring.ringdebounce + 64 ≥ 512) : ring.step true =
    (⟨if ring.wasringing = 0 then 1 else ring.wasringing, 512⟩,
      if ring.wasringing = 0 then [.ring] else []) := by
  rw [step, if_pos rfl, if_pos full]

theorem step_charge (short : ¬ ring.ringdebounce + 64 ≥ 512) :
    ring.step true = (⟨ring.wasringing, ring.ringdebounce + 64⟩, []) := by
  rw [step, if_pos rfl, if_neg short]

theorem step_empty (empty : ring.ringdebounce - 8 ≤ 0) :
    ring.step false = (⟨0, 0⟩, if ring.wasringing ≠ 0 then [.offhook] else []) := by
  rw [step, if_neg (by decide), if_pos empty]

theorem step_leak (some : ¬ ring.ringdebounce - 8 ≤ 0) :
    ring.step false = (⟨ring.wasringing, ring.ringdebounce - 8⟩, []) := by
  rw [step, if_neg (by decide), if_neg some]

end Ring

/-- A line voltage: under, over or at the threshold. -/
inductive Volts
  | low
  | high
  | middle
  deriving DecidableEq, Repr

/-- What a reading of register 29 is taken for. -/
def Volts.of (b : Int) : Volts :=
  if |b| < battThresh then .low else if |b| > battThresh then .high else .middle

/-- The variables of the battery detector. -/
structure Battery where
  battery : Int
  battdebounce : Int

/-- A voltage that contradicts the reported state may change it, once the countdown is over; every
other one restarts the countdown. -/
def Battery.sense (battery : Battery) : Volts → Battery × List RxSig
  | .low =>
      if battery.battery ≠ 0 ∧ battery.battdebounce = 0 then (⟨0, 64⟩, [.onhook])
      else if battery.battery = 0 then ({ battery with battdebounce := 64 }, [])
      else (battery, [])
  | .high =>
      if battery.battery = 0 ∧ battery.battdebounce = 0 then (⟨1, 64⟩, [.offhook])
      else if battery.battery ≠ 0 then ({ battery with battdebounce := 64 }, [])
      else (battery, [])
  | .middle => ({ battery with battdebounce := 64 }, [])

namespace Battery

variable {battery : Battery}

theorem sense_lost (present : battery.battery ≠ 0) (elapsed : battery.battdebounce = 0) :
    battery.sense .low = (⟨0, 64⟩, [.onhook]) := if_pos ⟨present, elapsed⟩

theorem sense_absent (absent : battery.battery = 0) :
    battery.sense .low = ({ battery with battdebounce := 64 }, []) := by
  rw [sense, if_neg fun lost => lost.1 absent, if_pos absent]

theorem sense_losing (present : battery.battery ≠ 0) (runs : battery.battdebounce ≠ 0) :
    battery.sense .low = (battery, []) := by
  rw [sense, if_neg fun lost => runs lost.2, if_neg present]

theorem sense_back (absent : battery.battery = 0) (elapsed : battery.battdebounce = 0) :
    battery.sense .high = (⟨1, 64⟩, [.offhook]) := if_pos ⟨absent, elapsed⟩

theorem sense_present (present : battery.battery ≠ 0) :
    battery.sense .high = ({ battery with battdebounce := 64 }, []) := by
  rw [sense, if_neg fun back => present back.1, if_pos present]

theorem sense_returning (absent : battery.battery = 0) (runs : battery.battdebounce ≠ 0) :
    battery.sense .high = (battery, []) := by
  rw [sense, if_neg fun back => runs back.2, if_neg (not_not_intro absent)]

theorem sense_nonneg (volts : Volts) (start : 0 ≤ battery.battdebounce) :
    0 ≤ (battery.sense volts).1.battdebounce := by
  cases volts with
  | middle => exact Int.natCast_nonneg 64
  | _ =>
    unfold sense
    simp only
    split
    · exact Int.natCast_nonneg 64
    · split
      · exact Int.natCast_nonneg 64
      · exact start

end Battery

/-- The battery countdown. -/
def Battery.counted (battery : Battery) : Battery :=
  { battery with
    battdebounce := if battery.battdebounce ≠ 0 then battery.battdebounce - 2 else battery.battdebounce }

/-- A poll, and what it signals. -/
def Battery.step (battery : Battery) (volts : Volts) : Battery × List RxSig :=
  ((battery.sense volts).1.counted, (battery.sense volts).2)

/-- The variables of the polarity detector. -/
structure Polarity where
  lastpol : Int
  polarity : Int
  polaritydebounce : Int

/-- A voltage over the threshold sets the candidate sign, and restarts the timer if it is a new one. -/
def Polarity.sense (line : Polarity) (b : Int) : Polarity :=
  if |b| > battThresh then
    if line.lastpol ≥ 0 ∧ b < 0 then { line with lastpol := -1, polaritydebounce := 64 }
    else if line.lastpol ≤ 0 ∧ b > 0 then { line with lastpol := 1, polaritydebounce := 64 }
    else line
  else line

/-- The timer runs, and at its end the candidate is committed; `true` for a `ZT_EVENT_POLARITY`. -/
def Polarity.commit (line : Polarity) : Polarity × Bool :=
  if line.polaritydebounce ≠ 0 then
    if line.polaritydebounce - 1 < 1 ∧ line.lastpol ≠ line.polarity then
      (⟨line.lastpol, line.lastpol, line.polaritydebounce - 1⟩, line.polarity ≠ 0)
    else ({ line with polaritydebounce := line.polaritydebounce - 1 }, false)
  else (line, false)

namespace Polarity

variable {line : Polarity} {b : Int}

theorem sense_minus (significant : |b| > battThresh) (turned : line.lastpol ≥ 0 ∧ b < 0) :
    line.sense b = { line with lastpol := -1, polaritydebounce := 64 } := by
  rw [sense, if_pos significant, if_pos turned]

theorem sense_plus (significant : |b| > battThresh) (turned : line.lastpol ≤ 0 ∧ b > 0) :
    line.sense b = { line with lastpol := 1, polaritydebounce := 64 } := by
  rw [sense, if_pos significant, if_neg (by omega), if_pos turned]

theorem sense_same (notMinus : ¬ (line.lastpol ≥ 0 ∧ b < 0)) (notPlus : ¬ (line.lastpol ≤ 0 ∧ b > 0)) :
    line.sense b = line := by
  rw [sense, if_neg notMinus, if_neg notPlus, ite_self]

theorem sense_none (insignificant : ¬ |b| > battThresh) : line.sense b = line := if_neg insignificant

theorem sense_nonneg (start : 0 ≤ line.polaritydebounce) : 0 ≤ (line.sense b).polaritydebounce := by
  unfold sense
  split
  · split
    · exact Int.natCast_nonneg 64
    · split
      · exact Int.natCast_nonneg 64
      · exact start
  · exact start

theorem commit_idle (idle : line.polaritydebounce = 0) : line.commit = (line, false) :=
  if_neg (not_not_intro idle)

theorem commit_runs (runs : line.polaritydebounce ≠ 0)
    (still : ¬ (line.polaritydebounce - 1 < 1 ∧ line.lastpol ≠ line.polarity)) :
    line.commit = ({ line with polaritydebounce := line.polaritydebounce - 1 }, false) := by
  rw [commit, if_pos runs, if_neg still]

theorem commit_ends (runs : line.polaritydebounce ≠ 0) (last : line.polaritydebounce - 1 < 1)
    (news : line.lastpol ≠ line.polarity) : line.commit =
      (Polarity.mk line.lastpol line.lastpol (line.polaritydebounce - 1), decide (line.polarity ≠ 0)) := by
  rw [commit, if_pos runs, if_pos ⟨last, news⟩]

end Polarity

/-- A poll. -/
def Polarity.step (line : Polarity) (b : Int) : Polarity × Bool := (line.sense b).commit

/-! ### The variables of a card -/

section Variables

variable {σ : Type} {card : Card} {world after : World σ}

/-- `mod.fxo.var[card]`. -/
def fxoInt (var : FxoVar) (card : Card) (world : World σ) : Int := readInt world.mod (var.offset card)

def ringOf (card : Card) (world : World σ) : Ring :=
  ⟨fxoInt .wasringing card world, fxoInt .ringdebounce card world⟩

def batteryOf (card : Card) (world : World σ) : Battery :=
  ⟨fxoInt .battery card world, fxoInt .battdebounce card world⟩

def polarityOf (card : Card) (world : World σ) : Polarity :=
  ⟨fxoInt .lastpol card world, fxoInt .polarity card world, fxoInt .polaritydebounce card world⟩

/-- A world after a store. -/
def fxoStored (var : FxoVar) (card : Card) (value : Int) (world : World σ) : World σ :=
  { world with mod := writeInt world.mod (var.offset card) value }

/-- A world after exchanges with the outside. -/
def outside (hw : σ) (events : List Event) (world : World σ) : World σ :=
  { world with hw := hw, log := world.log ++ events }

@[simp] theorem fxoStored_log (var : FxoVar) (value : Int) :
    (fxoStored var card value world).log = world.log := rfl

@[simp] theorem outside_log (hw : σ) (events : List Event) :
    (outside hw events world).log = world.log ++ events := rfl

@[simp] theorem fxoInt_outside (var : FxoVar) (hw : σ) (events : List Event) :
    fxoInt var card (outside hw events world) = fxoInt var card world := rfl

@[simp] theorem fxoInt_stored {var : FxoVar} {value : Int} (lower : -2147483648 ≤ value)
    (upper : value < 2147483648) : fxoInt var card (fxoStored var card value world) = value :=
  readInt_writeInt lower upper

@[simp] theorem fxoInt_stored_ne {var other : FxoVar} (ne : other ≠ var) (value : Int) :
    fxoInt var card (fxoStored other card value world) = fxoInt var card world := by
  have bound := card.isLt
  have rows : other.index ≠ var.index := by
    cases var <;> cases other <;> first | exact absurd rfl ne | decide
  refine readInt_congr fun a inside => writeInt_apply_of_notMem fun also => ?_
  obtain ⟨low, high⟩ := inside
  obtain ⟨alsoLow, alsoHigh⟩ := also
  unfold FxoVar.offset at low high alsoLow alsoHigh
  omega

end Variables

/-! ### The exchanges of a poll -/

/-- The value first read from a register of a card; 0 if it is not read. -/
def firstRead (card : Card) (reg : UInt8) (log : List Event) : UInt8 :=
  (log.findSome? (readOf card reg)).getD 0

/-- The reading of the line voltage. -/
def isVoltage (card : Card) : Event → Bool
  | .read c reg _ => c = card ∧ reg = 29
  | _ => false

/-- The exchanges of the ring detector. -/
def ringPart (card : Card) (log : List Event) : List Event := log.takeWhile fun event => !isVoltage card event

/-- The exchanges of the battery and the polarity detectors. -/
def linePart (card : Card) (log : List Event) : List Event := log.dropWhile fun event => !isVoltage card event

/-- The line voltage a poll reads, a `signed char`. -/
def voltage (card : Card) (log : List Event) : Int := (firstRead card 29 log).toInt8.toInt

/-- The ring bits a poll reads from register 5. -/
def ringBits (card : Card) (log : List Event) : UInt8 := firstRead card 5 log &&& 0x60

section Parts

variable {card : Card} {front back : List Event} {value : UInt8}

theorem rxSigs_parts (log : List Event) :
    rxSigs card log = rxSigs card (ringPart card log) ++ rxSigs card (linePart card log) := by
  rw [← rxSigs_append, ringPart, linePart, List.takeWhile_append_dropWhile]

theorem firstRead_append_of_none {reg : UInt8} (unread : ∀ event ∈ front, readOf card reg event = none) :
    firstRead card reg (front ++ back) = firstRead card reg back := by
  rw [firstRead, List.findSome?_append, List.findSome?_eq_none_iff.mpr unread, Option.none_or, firstRead]

theorem readOf_voltage {event : Event} (other : isVoltage card event = false) :
    readOf card 29 event = none := by
  cases event with
  | read c reg value =>
    have apart : ¬ (c = card ∧ reg = 29) := by simpa [isVoltage] using other
    exact if_neg apart
  | _ => rfl

/-- **A poll falls apart where the voltage is read.** -/
theorem parts (before : ∀ event ∈ front, isVoltage card event = false) :
    ringPart card (front ++ .read card 29 value :: back) = front ∧
    linePart card (front ++ .read card 29 value :: back) = .read card 29 value :: back ∧
    firstRead card 29 (front ++ .read card 29 value :: back) = value := by
  have all : ∀ event ∈ front, (!isVoltage card event) = true := by simpa using before
  refine ⟨?_, ?_, ?_⟩
  · rw [ringPart, List.takeWhile_append_of_pos all]
    simp [isVoltage]
  · rw [linePart, List.dropWhile_append_of_pos all]
    simp [isVoltage]
  · rw [firstRead_append_of_none fun event member => readOf_voltage (before event member)]
    simp [firstRead, readOf]

end Parts

/-! ### The ring detector -/

section Requests

variable {σ : Type} {env : Env σ} {card : Card} {world : World σ}

theorem ends_fxoLoad {var : FxoVar} {Q : Int → World σ → Prop} :
    Program.Ends (handler env) (fxoLoad var card) world Q ↔ Q (fxoInt var card world) world :=
  Program.ends_call rfl

theorem ends_fxoStore {var : FxoVar} {value : Int} {Q : Unit → World σ → Prop} :
    Program.Ends (handler env) (fxoStore var card value) world Q ↔
      Q () (fxoStored var card value world) :=
  Program.ends_call rfl

theorem ends_readReg {reg : UInt8} {Q : UInt8 → World σ → Prop} :
    Program.Ends (handler env) (wcfxsGetreg card reg) world Q ↔
      Q (env.getreg card reg world.hw).1 (outside (env.getreg card reg world.hw).2
        [.read card reg (env.getreg card reg world.hw).1] world) :=
  Program.ends_call rfl

theorem ends_signal {sig : RxSig} {Q : Unit → World σ → Prop} :
    Program.Ends (handler env) (ztHooksig card sig) world Q ↔
      Q () (outside world.hw [.signalled card sig] world) :=
  Program.ends_call rfl

theorem ends_light {port : Nat} {colour : FxLed} {Q : Unit → World σ → Prop} :
    Program.Ends (handler env) (wcfxsSetLed port colour) world Q ↔
      Q () (outside (env.setLed port colour world.hw) [.led port colour] world) :=
  Program.ends_call rfl

theorem ends_forgetCard {Q : Op.Ans .forgetCard → World σ → Prop} :
    Program.Ends (handler env) (Program.call Op.forgetCard) world Q ↔
      Q () (outside (env.forgetCard world.hw) [] world) := by
  rw [outside, List.append_nil]
  exact Program.ends_call rfl

theorem ends_qevent {Q : (Op.ztQeventPolarity card).Ans → World σ → Prop} :
    Program.Ends (handler env) (Program.call (Op.ztQeventPolarity card)) world Q ↔
      Q () (outside world.hw [.polarity card] world) :=
  Program.ends_call rfl

end Requests

section Detectors

variable {σ : Type} {env : Env σ} {card : Card} {world : World σ}

/-- What the ring detector does. -/
structure RingDone (card : Card) (world after : World σ) (front : List Event) : Prop where
  log : after.log = world.log ++ front
  before : ∀ event ∈ front, isVoltage card event = false ∧ event ≠ .polarity card
  others : ∀ var, var ≠ .wasringing → var ≠ .ringdebounce → fxoInt var card after = fxoInt var card world
  ring : ∀ more, (ringOf card after, rxSigs card front) =
    if fxoInt .offhook card world = 0 then
      (ringOf card world).step (ringBits card (front ++ more) ≠ 0 ∧ fxoInt .battery card world ≠ 0)
    else (ringOf card world, [])

/-- What a poll on hook does with a ringing voltage or without one, after it has read register 5. -/
structure RingStepped (card : Card) (world after : World σ) (ringing : Bool) (rest : List Event) : Prop where
  log : after.log = world.log ++ rest
  before : ∀ event ∈ rest, isVoltage card event = false ∧ event ≠ .polarity card
  others : ∀ var, var ≠ .wasringing → var ≠ .ringdebounce → fxoInt var card after = fxoInt var card world
  ring : (ringOf card after, rxSigs card rest) = (ringOf card world).step ringing

/-- A poll with a ringing voltage. -/
def ringCharge (card : Card) : Prog Unit := do
  let level ← fxoLoad .ringdebounce card
  fxoStore .ringdebounce card (level + 8 * 8)
  let level ← fxoLoad .ringdebounce card
  Program.when (level ≥ 8 * 64) do
    let wasringing ← fxoLoad .wasringing card
    Program.when (wasringing = 0) do
      fxoStore .wasringing card 1
      ztHooksig card .ring
      wcfxsSetLed (card.val + 1) .green
    fxoStore .ringdebounce card (8 * 64)

/-- One without. -/
def ringLeak (card : Card) : Prog Unit := do
  let level ← fxoLoad .ringdebounce card
  fxoStore .ringdebounce card (level - 8)
  let level ← fxoLoad .ringdebounce card
  Program.when (level ≤ 0) do
    let wasringing ← fxoLoad .wasringing card
    Program.when (wasringing ≠ 0) do
      fxoStore .wasringing card 0
      ztHooksig card .offhook
      wcfxsSetLed (card.val + 1) .red
      Program.call Op.forgetCard
    fxoStore .ringdebounce card 0

theorem detectRing_eq (card : Card) : detectRing card = (do
    let offhook ← fxoLoad .offhook card
    Program.when (offhook = 0) do
      let res ← wcfxsGetreg card 5
      let battery ← fxoLoad .battery card
      if res &&& 0x60 ≠ 0 ∧ battery ≠ 0 then ringCharge card else ringLeak card) := rfl

theorem ringCharge_ends (lower : 0 ≤ fxoInt .ringdebounce card world)
    (upper : fxoInt .ringdebounce card world ≤ 512) :
    Program.Ends (handler env) (ringCharge card) world
      fun _ after => ∃ rest, RingStepped card world after true rest := by
  have up : ∀ world' : World σ, fxoInt .ringdebounce card
      (fxoStored .ringdebounce card (fxoInt .ringdebounce card world + 8 * 8) world') =
        fxoInt .ringdebounce card world + 8 * 8 := fun _ => fxoInt_stored (by omega) (by omega)
  have level : (ringOf card world).ringdebounce = fxoInt .ringdebounce card world := rfl
  simp only [ringCharge, Program.ends_bind, Program.ends_when, ends_fxoLoad, ends_fxoStore, ends_signal,
    ends_light, up]
  by_cases full : fxoInt .ringdebounce card world + 8 * 8 ≥ 8 * 64
  · have step : (ringOf card world).step true = _ := Ring.step_full (by rw [level]; omega)
    simp only [full, if_true, fxoInt_stored_ne, reduceCtorEq, not_false_eq_true, ne_eq]
    by_cases silent : fxoInt .wasringing card world = 0
    · simp only [silent, if_true]
      refine ⟨[.signalled card .ring, .led (card.val + 1) .green], by simp, by simp [isVoltage],
        fun var notWas notLevel => ?_, ?_⟩
      · simp [notWas.symm, notLevel.symm]
      · rw [step]
        simp [ringOf, silent]
    · simp only [silent, if_false]
      refine ⟨[], by simp, by simp, fun var _ notLevel => ?_, ?_⟩
      · simp [notLevel.symm]
      · rw [step]
        simp [ringOf, silent]
  · have step : (ringOf card world).step true = _ := Ring.step_charge (by rw [level]; omega)
    simp only [full, if_false]
    refine ⟨[], by simp, by simp, fun var _ notLevel => ?_, ?_⟩
    · simp [notLevel.symm]
    · rw [step]
      simp only [ringOf, up]
      simp

theorem ringLeak_ends (lower : 0 ≤ fxoInt .ringdebounce card world)
    (upper : fxoInt .ringdebounce card world ≤ 512) :
    Program.Ends (handler env) (ringLeak card) world
      fun _ after => ∃ rest, RingStepped card world after false rest := by
  have down : ∀ world' : World σ, fxoInt .ringdebounce card
      (fxoStored .ringdebounce card (fxoInt .ringdebounce card world - 8) world') =
        fxoInt .ringdebounce card world - 8 := fun _ => fxoInt_stored (by omega) (by omega)
  simp only [ringLeak, Program.ends_bind, Program.ends_when, ends_fxoLoad, ends_fxoStore, ends_signal,
    ends_light, down]
  by_cases empty : fxoInt .ringdebounce card world - 8 ≤ 0
  · have step : (ringOf card world).step false = _ := Ring.step_empty empty
    simp only [empty, if_true, fxoInt_stored_ne, reduceCtorEq, not_false_eq_true, ne_eq]
    by_cases silent : fxoInt .wasringing card world = 0
    · simp only [silent, not_true_eq_false, if_false]
      refine ⟨[], by simp, by simp, fun var _ notLevel => ?_, ?_⟩
      · simp [notLevel.symm]
      · rw [step]
        simp [ringOf, silent]
    · simp only [silent, not_false_eq_true, if_true]
      refine ends_forgetCard.mpr ⟨[.signalled card .offhook, .led (card.val + 1) .red], by simp,
        by simp [isVoltage], fun var notWas notLevel => ?_, ?_⟩
      · simp [notWas.symm, notLevel.symm]
      · rw [step]
        simp [ringOf, silent]
  · have step : (ringOf card world).step false = _ := Ring.step_leak empty
    simp only [empty, if_false]
    refine ⟨[], by simp, by simp, fun var _ notLevel => ?_, ?_⟩
    · simp [notLevel.symm]
    · rw [step]
      simp only [ringOf, down]
      simp

/-- A poll on hook: it reads register 5 first. -/
theorem RingDone.of_onhook {hw : σ} {res : UInt8} {ringing : Bool} {after : World σ}
    (onhook : fxoInt .offhook card world = 0)
    (reading : decide (res &&& 0x60 ≠ 0 ∧ fxoInt .battery card world ≠ 0) = ringing)
    (stepped : ∃ rest, RingStepped card (outside hw [.read card 5 res] world) after ringing rest) :
    ∃ front, RingDone card world after front := by
  obtain ⟨rest, log, before, others, ring⟩ := stepped
  rw [outside_log, List.append_assoc, List.singleton_append] at log
  refine ⟨_, log, fun event member => ?_, others, fun more => ?_⟩
  · rcases List.mem_cons.mp member with rfl | member
    · simp [isVoltage]
    · exact before event member
  · have bits : ringBits card (.read card 5 res :: rest ++ more) = res &&& 0x60 := by
      simp [ringBits, firstRead, readOf]
    rw [if_pos onhook, bits, rxSigs_cons_read, reading]
    exact ring

/-- **The ring detector is a step of its variables.** -/
theorem detectRing_ends (lower : 0 ≤ fxoInt .ringdebounce card world)
    (upper : fxoInt .ringdebounce card world ≤ 512) :
    Program.Ends (handler env) (detectRing card) world
      fun _ after => ∃ front, RingDone card world after front := by
  rw [detectRing_eq, Program.ends_bind, ends_fxoLoad, Program.ends_when]
  split
  · rename_i onhook
    rw [Program.ends_bind, ends_readReg, Program.ends_bind, ends_fxoLoad, fxoInt_outside, Program.ends_ite]
    split
    · rename_i ringing
      refine (@ringCharge_ends σ env card (outside _ _ world) lower upper).mono fun _ after stepped => ?_
      exact RingDone.of_onhook onhook (decide_eq_true ringing) stepped
    · rename_i quiet
      refine (@ringLeak_ends σ env card (outside _ _ world) lower upper).mono fun _ after stepped => ?_
      exact RingDone.of_onhook onhook (decide_eq_false quiet) stepped
  · rename_i off
    exact ⟨[], by simp, by simp, fun _ _ _ => rfl, by simp [off]⟩

/-- What the battery and the polarity detectors have in common with a poll: they say `back`, and leave
the variables of the ring detector and the hook state alone. -/
structure LineDone (card : Card) (world after : World σ) (back : List Event) : Prop where
  log : after.log = world.log ++ back
  others : ∀ var ∈ [FxoVar.wasringing, .ringdebounce, .offhook],
    fxoInt var card after = fxoInt var card world

theorem LineDone.trans {first middle last : World σ} {front back : List Event}
    (start : LineDone card first middle front) (finish : LineDone card middle last back) :
    LineDone card first last (front ++ back) := by
  refine ⟨?_, fun var member => (finish.others var member).trans (start.others var member)⟩
  rw [finish.log, start.log, List.append_assoc]

/-- The battery countdown stores into one variable. -/
structure Counted (card : Card) (world after : World σ) : Prop where
  log : after.log = world.log
  others : ∀ var, .battdebounce ≠ var → fxoInt var card after = fxoInt var card world
  battery : batteryOf card after = (batteryOf card world).counted

theorem counted_ends (positive : 0 ≤ fxoInt .battdebounce card world) {Q : Unit → World σ → Prop}
    (next : ∀ after, Counted card world after → Q () after) :
    Program.Ends (handler env) (Program.when (fxoInt .battdebounce card world ≠ 0)
      (fxoStore .battdebounce card (fxoInt .battdebounce card world - 8 / 4))) world Q := by
  have upper : fxoInt .battdebounce card world < 2147483648 := readInt_lt _ _
  rw [Program.ends_when, ends_fxoStore]
  split
  · rename_i some
    refine next _ ⟨rfl, fun var ne => fxoInt_stored_ne ne _, ?_⟩
    rw [batteryOf, fxoInt_stored_ne (by decide), fxoInt_stored (by omega) (by omega)]
    simp [Battery.counted, batteryOf, some]
  · rename_i zero
    exact next _ ⟨rfl, fun _ _ => rfl, by simp_all [Battery.counted, batteryOf]⟩

/-- The countdown of the polarity. -/
def polarityCount (card : Card) : Prog Unit := do
  let debounce ← fxoLoad .polaritydebounce card
  Program.when (debounce ≠ 0) do
    fxoStore .polaritydebounce card (debounce - 1)
    let debounce ← fxoLoad .polaritydebounce card
    Program.when (debounce < 1) do
      let lastpol ← fxoLoad .lastpol card
      let polarity ← fxoLoad .polarity card
      Program.when (lastpol ≠ polarity) do
        Program.when (polarity ≠ 0) (Program.call (Op.ztQeventPolarity card))
        fxoStore .polarity card lastpol

theorem countDown_eq (card : Card) : countDown card = (do
    let debounce ← fxoLoad .battdebounce card
    Program.when (debounce ≠ 0) (fxoStore .battdebounce card (debounce - 8 / 4))
    polarityCount card) := rfl

/-- It stores into two variables. -/
structure Committed (card : Card) (world after : World σ) (line : Polarity) (event : Bool) : Prop where
  log : after.log = world.log ++ if event then [.polarity card] else []
  others : ∀ var, var ≠ .polarity → var ≠ .polaritydebounce →
    fxoInt var card after = fxoInt var card world
  polarity : polarityOf card after = line

theorem polarityCount_ends (timer : 0 ≤ fxoInt .polaritydebounce card world) :
    Program.Ends (handler env) (polarityCount card) world fun _ after =>
      Committed card world after (polarityOf card world).commit.1 (polarityOf card world).commit.2 := by
  have upper : fxoInt .polaritydebounce card world < 2147483648 := readInt_lt _ _
  have runs : ∀ world' : World σ, fxoInt .polaritydebounce card
      (fxoStored .polaritydebounce card (fxoInt .polaritydebounce card world - 1) world') =
        fxoInt .polaritydebounce card world - 1 := fun _ => fxoInt_stored (by omega) (by omega)
  have committed : ∀ world' : World σ, fxoInt .polarity card
      (fxoStored .polarity card (fxoInt .lastpol card world) world') = fxoInt .lastpol card world :=
    fun _ => fxoInt_stored (le_readInt _ _) (readInt_lt _ _)
  simp only [polarityCount, Program.ends_bind, Program.ends_when, ends_fxoLoad, ends_fxoStore]
  by_cases some : fxoInt .polaritydebounce card world ≠ 0
  · have ticked : ¬ (fxoInt .polaritydebounce card world - 1 < 1 ∧
        fxoInt .lastpol card world ≠ fxoInt .polarity card world) →
        Committed card world
          (fxoStored .polaritydebounce card (fxoInt .polaritydebounce card world - 1) world)
          (polarityOf card world).commit.1 (polarityOf card world).commit.2 := by
      intro still
      have step : (polarityOf card world).commit = _ := Polarity.commit_runs some still
      rw [step]
      refine ⟨by simp, fun var _ two => by simp [two.symm], ?_⟩
      simp only [polarityOf, runs]
      simp
    simp only [some, ne_eq, not_false_eq_true, if_true, runs, fxoInt_stored_ne, reduceCtorEq]
    by_cases last : fxoInt .polaritydebounce card world - 1 < 1
    · simp only [last, if_true]
      by_cases news : fxoInt .lastpol card world ≠ fxoInt .polarity card world
      · simp only [news, not_false_eq_true, if_true]
        have step : (polarityOf card world).commit = _ := Polarity.commit_ends some last news
        rw [step]
        by_cases first : fxoInt .polarity card world = 0
        · simp only [first, not_true_eq_false, if_false]
          refine ⟨by simp [polarityOf, first], fun var one two => by simp [one.symm, two.symm], ?_⟩
          simp only [polarityOf, committed]
          simp [runs]
        · simp only [first, not_false_eq_true, if_true]
          refine ends_qevent.mpr ⟨by simp [polarityOf, first],
            fun var one two => by simp [one.symm, two.symm], ?_⟩
          simp only [polarityOf, committed]
          simp [runs]
      · simp only [news, if_false]
        exact ticked fun both => news both.2
    · simp only [last, if_false]
      exact ticked fun both => last both.1
  · simp only [some, if_false]
    have step : (polarityOf card world).commit = _ := Polarity.commit_idle (not_not.mp some)
    rw [step]
    exact ⟨by simp, fun _ _ _ => rfl, rfl⟩

/-- **The countdowns are steps of their variables.** -/
theorem countDown_ends (positive : 0 ≤ fxoInt .battdebounce card world)
    (timer : 0 ≤ fxoInt .polaritydebounce card world) :
    Program.Ends (handler env) (countDown card) world fun _ after =>
      LineDone card world after (if (polarityOf card world).commit.2 then [.polarity card] else []) ∧
        batteryOf card after = (batteryOf card world).counted ∧
        polarityOf card after = (polarityOf card world).commit.1 := by
  rw [countDown_eq, Program.ends_bind, ends_fxoLoad, Program.ends_bind]
  refine counted_ends positive fun middle counted => ?_
  have same : polarityOf card middle = polarityOf card world := by
    simp [polarityOf, counted.others]
  have running : 0 ≤ fxoInt .polaritydebounce card middle := by
    rwa [counted.others .polaritydebounce (by decide)]
  refine (polarityCount_ends running).mono fun _ after committed => ?_
  rw [same] at committed
  obtain ⟨log, others, polarity⟩ := committed
  refine ⟨⟨by rw [log, counted.log], fun var member => ?_⟩, ?_, polarity⟩
  · have apart : var ≠ .polarity ∧ var ≠ .polaritydebounce ∧ .battdebounce ≠ var := by
      revert var
      decide
    rw [others var apart.1 apart.2.1, counted.others var apart.2.2]
  · rw [← counted.battery, batteryOf, others _ (by decide) (by decide), others _ (by decide) (by decide)]
    rfl

@[simp] theorem stored_battdebounce (world : World σ) :
    fxoInt .battdebounce card (fxoStored .battdebounce card battDebounce world) = 64 :=
  fxoInt_stored (by decide) (by decide)

@[simp] theorem stored_polaritydebounce (world : World σ) :
    fxoInt .polaritydebounce card (fxoStored .polaritydebounce card polarityDebounce world) = 64 :=
  fxoInt_stored (by decide) (by decide)

/-- A voltage under the threshold. -/
theorem detectNoBattery_ends :
    Program.Ends (handler env) (detectNoBattery card) world fun _ after =>
      LineDone card world after (((batteryOf card world).sense .low).2.map (.signalled card)) ∧
        batteryOf card after = ((batteryOf card world).sense .low).1 ∧
        polarityOf card after = polarityOf card world := by
  simp only [detectNoBattery, Program.ends_bind, Program.ends_when, Program.ends_ite, ends_fxoLoad,
    ends_fxoStore, ends_signal, fxoInt_stored_ne, ne_eq, reduceCtorEq, not_false_eq_true]
  by_cases absent : fxoInt .battery card world = 0
  · have sense : (batteryOf card world).sense .low = _ := Battery.sense_absent absent
    simp only [absent, not_true_eq_false, false_and, if_false, if_true, sense]
    refine ⟨⟨by simp, by simp⟩, ?_, by simp [polarityOf]⟩
    simp [batteryOf]
  · by_cases elapsed : fxoInt .battdebounce card world = 0
    · have sense : (batteryOf card world).sense .low = _ := Battery.sense_lost absent elapsed
      simp only [absent, elapsed, not_false_eq_true, and_self, if_true, sense]
      refine ⟨⟨by simp, by simp⟩, ?_, by simp [polarityOf]⟩
      simp [batteryOf]
    · have sense : (batteryOf card world).sense .low = _ := Battery.sense_losing absent elapsed
      simp only [absent, elapsed, and_false, if_false, sense]
      exact ⟨⟨by simp, by simp⟩, by simp [batteryOf], by simp [polarityOf]⟩

/-- The battery half of what a voltage over the threshold does. -/
def batteryBack (card : Card) : Prog Unit := do
  let battery ← fxoLoad .battery card
  let debounce ← fxoLoad .battdebounce card
  if battery = 0 ∧ debounce = 0 then do
    ztHooksig card .offhook
    fxoStore .battery card 1
    fxoStore .nobatttimer card 0
    fxoStore .battdebounce card battDebounce
  else Program.when (battery ≠ 0) (fxoStore .battdebounce card battDebounce)

/-- The polarity half. -/
def polaritySeen (card : Card) (b : Int) : Prog Unit := do
  let lastpol ← fxoLoad .lastpol card
  Program.when (lastpol ≥ 0 ∧ b < 0) do
    fxoStore .lastpol card (-1)
    fxoStore .polaritydebounce card polarityDebounce
  let lastpol ← fxoLoad .lastpol card
  Program.when (lastpol ≤ 0 ∧ b > 0) do
    fxoStore .lastpol card 1
    fxoStore .polaritydebounce card polarityDebounce

theorem detectBattery_eq (b : Int) :
    detectBattery card b = batteryBack card >>= fun _ => polaritySeen card b := by
  simp only [detectBattery, batteryBack, polaritySeen, bind_assoc]

theorem batteryBack_ends :
    Program.Ends (handler env) (batteryBack card) world fun _ after =>
      LineDone card world after (((batteryOf card world).sense .high).2.map (.signalled card)) ∧
        batteryOf card after = ((batteryOf card world).sense .high).1 ∧
        polarityOf card after = polarityOf card world := by
  simp only [batteryBack, Program.ends_bind, Program.ends_when, Program.ends_ite, ends_fxoLoad,
    ends_fxoStore, ends_signal]
  by_cases absent : fxoInt .battery card world = 0
  · by_cases elapsed : fxoInt .battdebounce card world = 0
    · have sense : (batteryOf card world).sense .high = _ := Battery.sense_back absent elapsed
      simp only [absent, elapsed, and_self, if_true, sense]
      refine ⟨⟨by simp, by simp⟩, ?_, by simp [polarityOf]⟩
      simp [batteryOf]
    · have sense : (batteryOf card world).sense .high = _ := Battery.sense_returning absent elapsed
      simp only [absent, elapsed, ne_eq, and_false, not_true_eq_false, if_false, sense]
      exact ⟨⟨by simp, by simp⟩, trivial, trivial⟩
  · have sense : (batteryOf card world).sense .high = _ := Battery.sense_present absent
    simp only [absent, ne_eq, false_and, not_false_eq_true, if_false, if_true, sense]
    refine ⟨⟨by simp, by simp⟩, ?_, by simp [polarityOf]⟩
    simp [batteryOf]

theorem polaritySeen_ends {b : Int} (significant : |b| > battThresh) :
    Program.Ends (handler env) (polaritySeen card b) world fun _ after =>
      LineDone card world after [] ∧ batteryOf card after = batteryOf card world ∧
        polarityOf card after = (polarityOf card world).sense b := by
  have minus : ∀ world : World σ, fxoInt .lastpol card (fxoStored .lastpol card (-1) world) = -1 :=
    fun world => fxoInt_stored (by decide) (by decide)
  simp only [polaritySeen, Program.ends_bind, Program.ends_when, ends_fxoLoad, ends_fxoStore]
  by_cases minusNow : fxoInt .lastpol card world ≥ 0 ∧ b < 0
  · have sense : (polarityOf card world).sense b = _ := Polarity.sense_minus significant minusNow
    have notPlus : ¬ (-1 ≤ (0 : Int) ∧ b > 0) := by omega
    simp only [minusNow, and_self, if_true, fxoInt_stored_ne, ne_eq, reduceCtorEq, not_false_eq_true, minus,
      notPlus, if_false, sense]
    refine ⟨⟨by simp, by simp⟩, by simp [batteryOf], ?_⟩
    simp [polarityOf]
  · simp only [minusNow, if_false]
    by_cases plusNow : fxoInt .lastpol card world ≤ 0 ∧ b > 0
    · have sense : (polarityOf card world).sense b = _ := Polarity.sense_plus significant plusNow
      simp only [plusNow, and_self, if_true, sense]
      refine ⟨⟨by simp, by simp⟩, by simp [batteryOf], ?_⟩
      simp [polarityOf]
    · have sense : (polarityOf card world).sense b = _ := Polarity.sense_same minusNow plusNow
      simp only [plusNow, if_false, sense]
      exact ⟨⟨by simp, by simp⟩, trivial, trivial⟩

/-- What the voltage does, before the countdowns. -/
def voltageSeen (card : Card) (b : Int) : Prog Unit :=
  if |b| < battThresh then detectNoBattery card
  else if |b| > battThresh then detectBattery card b
  else fxoStore .battdebounce card battDebounce

theorem voltageSeen_ends (b : Int) :
    Program.Ends (handler env) (voltageSeen card b) world fun _ after =>
      LineDone card world after (((batteryOf card world).sense (Volts.of b)).2.map (.signalled card)) ∧
        batteryOf card after = ((batteryOf card world).sense (Volts.of b)).1 ∧
        polarityOf card after = (polarityOf card world).sense b := by
  unfold voltageSeen Volts.of
  by_cases low : |b| < battThresh
  · rw [if_pos low, if_pos low, Polarity.sense_none (by omega)]
    exact detectNoBattery_ends
  rw [if_neg low, if_neg low]
  by_cases high : |b| > battThresh
  · rw [if_pos high, if_pos high, detectBattery_eq, Program.ends_bind]
    refine batteryBack_ends.mono fun _ middle back => ?_
    obtain ⟨done, battery, polarity⟩ := back
    refine (polaritySeen_ends high).mono fun _ after seen => ?_
    rw [battery, polarity] at seen
    exact ⟨by simpa using done.trans seen.1, seen.2⟩
  · rw [if_neg high, if_neg high, Polarity.sense_none high, ends_fxoStore]
    refine ⟨⟨by simp [Battery.sense], by simp⟩, ?_, by simp [polarityOf]⟩
    simp [batteryOf, Battery.sense]

/-! ### A poll -/

/-- The variables that a poll keeps in range. -/
structure InRange (card : Card) (world : World σ) : Prop where
  ringLower : 0 ≤ fxoInt .ringdebounce card world
  ringUpper : fxoInt .ringdebounce card world ≤ 512
  battery : 0 ≤ fxoInt .battdebounce card world
  polarity : 0 ≤ fxoInt .polaritydebounce card world

/-- A poll, as a step of each detector with what it reads and says. -/
structure Polled (card : Card) (world after : World σ) (log : List Event) : Prop where
  ring : (ringOf card after, rxSigs card (ringPart card log)) =
    if fxoInt .offhook card world = 0 then
      (ringOf card world).step (ringBits card log ≠ 0 ∧ fxoInt .battery card world ≠ 0)
    else (ringOf card world, [])
  battery : (batteryOf card after, rxSigs card (linePart card log)) =
    (batteryOf card world).step (Volts.of (voltage card log))
  polarity : (polarityOf card after, decide (.polarity card ∈ log)) =
    (polarityOf card world).step (voltage card log)
  offhook : fxoInt .offhook card after = fxoInt .offhook card world

theorem voicedaaCheckHook_eq (card : Card) :
    wcfxsVoicedaaCheckHook card = (detectRing card >>= fun _ => wcfxsGetreg card 29 >>= fun reading =>
      voltageSeen card reading.toInt8.toInt >>= fun _ => countDown card) := rfl

theorem rxSigs_map (sigs : List RxSig) : rxSigs card (sigs.map (.signalled card)) = sigs := by
  induction sigs with
  | nil => rfl
  | cons sig rest ih => rw [List.map_cons, rxSigs_cons_signalled, ih]

/-- **A poll is a step of each detector.** -/
theorem poll_ends (range : InRange card world) :
    Program.Ends (handler env) (wcfxsVoicedaaCheckHook card) world
      fun _ after => Polled card world after (since world after) := by
  rw [voicedaaCheckHook_eq, Program.ends_bind]
  refine (detectRing_ends range.ringLower range.ringUpper).mono fun _ rung done => ?_
  obtain ⟨front, ringLog, before, ringOthers, ring⟩ := done
  rw [Program.ends_bind, ends_readReg, Program.ends_bind]
  generalize (env.getreg card 29 rung.hw).1 = value
  generalize (env.getreg card 29 rung.hw).2 = hw
  have battery : batteryOf card (outside hw [.read card 29 value] rung) = batteryOf card world := by
    simp [batteryOf, ringOthers]
  have polarity : polarityOf card (outside hw [.read card 29 value] rung) = polarityOf card world := by
    simp [polarityOf, ringOthers]
  refine (voltageSeen_ends _).mono fun _ seen sensed => ?_
  rw [battery, polarity] at sensed
  obtain ⟨seenDone, seenBattery, seenPolarity⟩ := sensed
  have some : 0 ≤ fxoInt .battdebounce card seen := by
    rw [show fxoInt .battdebounce card seen = _ from congrArg Battery.battdebounce seenBattery]
    exact Battery.sense_nonneg _ range.battery
  have timer : 0 ≤ fxoInt .polaritydebounce card seen := by
    rw [show fxoInt .polaritydebounce card seen = _ from congrArg Polarity.polaritydebounce seenPolarity]
    exact Polarity.sense_nonneg range.polarity
  refine (countDown_ends some timer).mono fun _ after counted => ?_
  rw [seenBattery, seenPolarity] at counted
  obtain ⟨lineDone, lastBattery, lastPolarity⟩ := counted
  -- the log of the poll, in its parts
  have lineLog := (seenDone.trans lineDone).log
  rw [outside_log, ringLog, List.append_assoc, List.append_assoc, List.singleton_append] at lineLog
  have kept := (seenDone.trans lineDone).others
  rw [since_eq lineLog]
  obtain ⟨ringPartEq, linePartEq, read⟩ := parts fun event member => (before event member).1
  refine ⟨?_, ?_, ?_, ?_⟩
  · have same : ringOf card after = ringOf card rung := by
      rw [ringOf, kept .wasringing (by decide), kept .ringdebounce (by decide)]
      rfl
    rw [ringPartEq, ← ring, same]
  · have silent : ∀ event : Bool, rxSigs card (if event then [.polarity card] else []) = [] := by
      intro event
      cases event <;> rfl
    rw [linePartEq, voltage, read, lastBattery, rxSigs_cons_read, rxSigs_append, rxSigs_map, silent,
      List.append_nil]
    rfl
  · have none : .polarity card ∉ front := fun member => (before _ member).2 rfl
    rw [voltage, read, lastPolarity]
    refine Prod.ext rfl ?_
    show decide _ = ((polarityOf card world).sense value.toInt8.toInt).commit.2
    cases ((polarityOf card world).sense value.toInt8.toInt).commit.2
    · simp [none]
    · simp
  · rw [kept .offhook (by decide)]
    exact ringOthers .offhook (by decide) (by decide)

end Detectors

end Baps.Wcfxs
