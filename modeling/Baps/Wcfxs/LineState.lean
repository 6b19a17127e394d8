/-
**Ringing and battery on an FXO line.**

The detectors of `wcfxs_voicedaa_check_hook` over whole runs: successive polls of one card, with
everything else that the driver does in between, hook signals for the card included. What they keep in
`mod.fxo` is unchanged from the end of a poll to the start of the next (`SameLine`), except `offhook`.

* `Entry.sameLine` — **no other call into the driver touches the detectors**.
* `battery_debounced` — **battery loss and return are debounced over 32 polls**.
* `ring_alternates` — **ringing starts and stops in turn**, after eight ringing and 64 quiet polls.
-/

import Baps.Wcfxs.FxoPoll
import Baps.Wcfxs.HookSwitch

namespace Baps.Wcfxs

open Interaction Memory Signal

/-! ### The variables of the detectors -/

/-- The variables of the three detectors. -/
def lineVars : List FxoVar :=
  [.wasringing, .ringdebounce, .battdebounce, .battery, .lastpol, .polarity, .polaritydebounce]

/-- They are as before. -/
def SameLine {σ : Type} (card : Card) (world after : World σ) : Prop :=
  ∀ var ∈ lineVars, fxoInt var card after = fxoInt var card world

/-- A request that stores into none of them. -/
def SparesLine (card : Card) (op : Op) : Prop :=
  ∀ mod, ∀ var ∈ lineVars, readInt (op.stored mod) (var.offset card) = readInt mod (var.offset card)

section Between

variable {σ α : Type} {env : Env σ} {card : Card} {world after : World σ} {params : Params}
  {modtype : Card → ModType}

theorem SameLine.trans {first middle last : World σ} (start : SameLine card first middle)
    (finish : SameLine card middle last) : SameLine card first last :=
  fun var member => (finish var member).trans (start var member)

theorem SparesLine.same {op : Op} (spares : SparesLine card op) {answer : op.Ans}
    (answered : handler env op world = some (answer, after)) : SameLine card world after := by
  intro var member
  rw [fxoInt, (handler_some answered).1]
  exact spares world.mod var member

theorem SameLine.of_every {program : Prog α} (every : program.Every (SparesLine card)) :
    Program.Respects (handler env) (SameLine card) program := fun _ _ _ ran =>
  every.run_rel (R := SameLine card) (fun _ _ _ => rfl) SameLine.trans
    (fun _ spares _ _ _ => spares.same) ran

theorem SparesLine.of_uses {c : Card} {reads writes : List UInt8} (op : Op)
    (uses : Uses c reads writes op) : SparesLine card op := by
  cases op with
  | storeInt offset value => exact uses.elim
  | storeByte offset value => exact uses.elim
  | _ => exact fun _ _ _ => rfl

theorem SparesLine.offhook (value : Int) : SparesLine card (.storeInt (FxoVar.offhook.offset card) value) := by
  intro mod var member
  have other : FxoVar.offhook ≠ var := by
    revert var
    decide
  have same : ∀ world : World Unit, fxoInt var card (fxoStored .offhook card value world) = fxoInt var card world :=
    fun _ => fxoInt_stored_ne other value
  exact same ⟨mod, fun _ => 0, (), []⟩

theorem fxoHooksig_spares (txsig : TxSig) : (fxoHooksig card txsig).Every (SparesLine card) := by
  have set : ∀ value byte, (fxoStore .offhook card value >>= fun _ => wcfxsSetreg card 5 byte).Every
      (SparesLine card) := fun value byte => .step (SparesLine.offhook value) fun _ => .call fun _ _ _ => rfl
  cases txsig with
  | onhook => exact set 0 8
  | offhook => exact set 1 9
  | start => exact set 1 9
  | kewl => trivial

theorem entry_sparesLine (fxo : modtype card = .fxo) {point : EntryPoint} (other : point ≠ .poll) :
    (Entry.prog params modtype ⟨card, point⟩).Every (SparesLine card) := by
  have quiet : ∀ op : Op, (∀ mod, op.stored mod = mod) → SparesLine card op :=
    fun op same mod var _ => by rw [same]
  cases point with
  | poll => exact absurd rfl other
  | hooksig txsig sig =>
    show (wcfxsHooksig params modtype card txsig sig).Every (SparesLine card)
    rw [wcfxsHooksig, fxo]
    exact fxoHooksig_spares txsig
  | ioctl request =>
    refine .bind ?_ fun _ => trivial
    by_cases transfer : ∃ data, request = .onhookTransfer data
    · obtain ⟨data, rfl⟩ := transfer
      exact .ite (fun _ => trivial) fun fxs => absurd (fxo ▸ fxs) (by decide)
    · rw [not_exists] at transfer
      exact ioctl_every (fun _ => quiet _ fun _ => rfl) SparesLine.of_uses (fun _ => quiet _ fun _ => rfl)
        transfer fun _ _ _ => quiet _ fun _ => rfl
  | close =>
    refine .bind (.step (quiet _ fun _ => rfl) fun _ => .step (quiet _ fun _ => rfl) fun _ => ?_)
      fun _ => trivial
    exact .bind (.when fun fxs => absurd (fxo ▸ fxs) (by decide)) fun _ => trivial

/-- **Every other call into the driver leaves the detectors of the card alone**, as long as no FXS card
has bytes in common with it; so on every span of FXO cards. -/
theorem Entry.sameLine (fxo : modtype card = .fxo) (apart : ∀ other, ¬ Overlap modtype card other)
    {entry : Entry} (other : ¬ (entry.card = card ∧ entry.point = .poll))
    (ran : entry.run params modtype env world = some after) : SameLine card world after := by
  by_cases own : entry.card = card
  · subst own
    have point : entry.point ≠ .poll := fun poll => other ⟨rfl, poll⟩
    exact SameLine.of_every (entry_sparesLine fxo point) _ _ _ (Entry.run_some ran)
  · have disjoint : ∀ a ∈ cells .fxo card, a ∉ cells (modtype entry.card) entry.card := by
      rw [← fxo]
      refine (cells_disjoint_iff (Ne.symm own)).mpr ⟨apart entry.card, fun overlap => ?_⟩
      rw [Overlap, fxo] at overlap
      exact absurd overlap.2.1 (by decide)
    refine Entry.elsewhere_rel (fun _ _ _ => rfl) SameLine.trans ?_ ran
    intro op stays world answer after answered var _
    exact readInt_congr fun a inside => stays.outside answered a (disjoint a ⟨var, inside⟩)

end Between

/-! ### Bounds -/

/-- `ringdebounce` is a multiple of 8 up to 512. -/
def Ring.Bounded (ring : Ring) : Prop :=
  8 ∣ ring.ringdebounce ∧ 0 ≤ ring.ringdebounce ∧ ring.ringdebounce ≤ 512

/-- `battdebounce` is even and at most 64. -/
def Battery.Bounded (battery : Battery) : Prop :=
  2 ∣ battery.battdebounce ∧ 0 ≤ battery.battdebounce ∧ battery.battdebounce ≤ 64

theorem Ring.Bounded.step {ring : Ring} (bounded : ring.Bounded) (ringing : Bool) :
    (ring.step ringing).1.Bounded := by
  obtain ⟨eights, lower, upper⟩ := bounded
  cases ringing with
  | true =>
    by_cases full : ring.ringdebounce + 64 ≥ 512
    · rw [step_full full]
      exact ⟨⟨64, rfl⟩, Int.natCast_nonneg 512, le_rfl⟩
    · rw [step_charge full]
      exact ⟨by show 8 ∣ ring.ringdebounce + 64; omega, by show 0 ≤ ring.ringdebounce + 64; omega,
        by show ring.ringdebounce + 64 ≤ 512; omega⟩
  | false =>
    by_cases empty : ring.ringdebounce - 8 ≤ 0
    · rw [step_empty empty]
      exact ⟨⟨0, rfl⟩, le_rfl, Int.natCast_nonneg 512⟩
    · rw [step_leak empty]
      exact ⟨by show 8 ∣ ring.ringdebounce - 8; omega, by show 0 ≤ ring.ringdebounce - 8; omega,
        by show ring.ringdebounce - 8 ≤ 512; omega⟩

theorem Battery.Bounded.sense {battery : Battery} (bounded : battery.Bounded) (volts : Volts) :
    (battery.sense volts).1.Bounded := by
  have full : ∀ state : Int, Battery.Bounded ⟨state, 64⟩ :=
    fun _ => ⟨⟨32, rfl⟩, Int.natCast_nonneg 64, le_rfl⟩
  cases volts with
  | middle => exact full _
  | _ =>
    unfold Battery.sense
    simp only
    split
    · exact full _
    · split
      · exact full _
      · exact bounded

theorem Battery.Bounded.step {battery : Battery} (bounded : battery.Bounded) (volts : Volts) :
    (battery.step volts).1.Bounded := by
  obtain ⟨even, lower, upper⟩ := bounded.sense volts
  show (battery.sense volts).1.counted.Bounded
  unfold Battery.counted Battery.Bounded
  simp only
  split <;> omega

theorem Polarity.step_nonneg {line : Polarity} (start : 0 ≤ line.polaritydebounce) (b : Int) :
    0 ≤ (line.step b).1.polaritydebounce := by
  have sensed : 0 ≤ (line.sense b).polaritydebounce := sense_nonneg start
  unfold Polarity.step Polarity.commit
  split
  · split
    · show 0 ≤ (line.sense b).polaritydebounce - 1
      omega
    · show 0 ≤ (line.sense b).polaritydebounce - 1
      omega
  · exact sensed

/-- What holds of the detectors before and after every poll. -/
structure InBounds {σ : Type} (card : Card) (world : World σ) : Prop where
  ring : (ringOf card world).Bounded
  battery : (batteryOf card world).Bounded
  polarity : 0 ≤ (polarityOf card world).polaritydebounce

section Bounds

variable {σ : Type} {card : Card} {world after : World σ}

theorem SameLine.ringOf (same : SameLine card world after) : ringOf card after = ringOf card world := by
  rw [Wcfxs.ringOf, same .wasringing (by decide), same .ringdebounce (by decide)]
  rfl

theorem SameLine.batteryOf (same : SameLine card world after) :
    batteryOf card after = batteryOf card world := by
  rw [Wcfxs.batteryOf, same .battery (by decide), same .battdebounce (by decide)]
  rfl

theorem SameLine.polarityOf (same : SameLine card world after) :
    polarityOf card after = polarityOf card world := by
  rw [Wcfxs.polarityOf, same .lastpol (by decide), same .polarity (by decide),
    same .polaritydebounce (by decide)]
  rfl

theorem InBounds.same (bounds : InBounds card world) (same : SameLine card world after) :
    InBounds card after := by
  obtain ⟨ring, battery, polarity⟩ := bounds
  exact ⟨by rwa [same.ringOf], by rwa [same.batteryOf], by rwa [same.polarityOf]⟩

theorem InBounds.inRange (bounds : InBounds card world) : InRange card world :=
  ⟨bounds.ring.2.1, bounds.ring.2.2, bounds.battery.2.1, bounds.polarity⟩

/-- **A poll keeps the bounds.** -/
theorem Polled.inBounds {log : List Event} (polled : Polled card world after log)
    (bounds : InBounds card world) : InBounds card after := by
  have ring : ringOf card after = _ := congrArg Prod.fst polled.ring
  have battery : batteryOf card after = _ := congrArg Prod.fst polled.battery
  have polarity : polarityOf card after = _ := congrArg Prod.fst polled.polarity
  refine ⟨?_, ?_, ?_⟩
  · rw [ring]
    split
    · exact bounds.ring.step _
    · exact bounds.ring
  · rw [battery]
    exact bounds.battery.step _
  · rw [polarity]
    exact Polarity.step_nonneg bounds.polarity _

theorem InBounds.of_zero (zero : ∀ var ∈ lineVars, fxoInt var card world = 0) : InBounds card world := by
  refine ⟨?_, ?_, ?_⟩
  · rw [ringOf, zero .ringdebounce (by decide)]
    exact ⟨⟨0, rfl⟩, le_rfl, Int.natCast_nonneg 512⟩
  · rw [batteryOf, zero .battdebounce (by decide)]
    exact ⟨⟨0, rfl⟩, le_rfl, Int.natCast_nonneg 64⟩
  · rw [polarityOf, zero .polaritydebounce (by decide)]

end Bounds

/-! ### Runs of polls -/

section Runs

variable {σ : Type} {env : Env σ} {card : Card} {count : Nat}
  (polls : PollRun env (wcfxsVoicedaaCheckHook card) (SameLine card) count)

/-- Where `n` polls have led: the end of the last one, or the start. -/
def PollRun.reached : Nat → World σ
  | 0 => polls.before 0
  | n + 1 => polls.after n

theorem PollRun.sameLine {n : Nat} (inside : n < count) : SameLine card (polls.reached n) (polls.before n) := by
  cases n with
  | zero => exact fun _ _ => rfl
  | succ n => exact polls.between n inside

/-- The detectors start from zero. -/
def PollRun.Zeroed : Prop := ∀ var ∈ lineVars, fxoInt var card (polls.before 0) = 0

variable {polls}

/-- **Every poll starts and ends within the bounds, and is a step of each detector.** -/
theorem PollRun.inBounds (zero : polls.Zeroed) {n : Nat} (inside : n ≤ count) :
    InBounds card (polls.reached n) := by
  induction n with
  | zero => exact .of_zero zero
  | succ n ih =>
    have before := (ih (by omega)).same (polls.sameLine inside)
    exact ((poll_ends before.inRange).of_run (polls.ran n inside)).inBounds before

theorem PollRun.polled (zero : polls.Zeroed) {n : Nat} (inside : n < count) :
    Polled card (polls.before n) (polls.after n) (polls.log n) := by
  have before := (polls.inBounds zero inside.le).same (polls.sameLine inside)
  exact (poll_ends before.inRange).of_run (polls.ran n inside)

end Runs

/-! ### The battery -/

/-- The voltage that contradicts a reported battery state. -/
def contrary : Bool → Volts
  | true => .low
  | false => .high

/-- The debouncer of battery states: 32 contrary voltages in a row. -/
def batteryDebouncer : Debouncer Volts where
  away := fun reported volts => volts = contrary reported
  threshold := 32
  decide := fun _ _ => inferInstance
  exclusive := by
    rintro (_ | _) _ rfl <;> decide

/-- The variables stand for a state of the debouncer: two counts for each voltage that is missing. -/
structure Battery.Follows (battery : Battery) (state : Debounced) : Prop where
  reported : battery.battery = hookBit state.reported
  counts : battery.battdebounce = 62 - 2 * state.streak
  short : state.streak < 32

theorem hookBit_eq_zero {state : Bool} : hookBit state = 0 ↔ state = false := by
  cases state <;> decide

/-- A voltage that does not contradict the state restarts the countdown. -/
theorem Battery.sense_agrees {battery : Battery} {state : Bool} {volts : Volts}
    (reported : battery.battery = hookBit state) (agrees : volts ≠ contrary state) :
    battery.sense volts = ({ battery with battdebounce := 64 }, []) := by
  have present : battery.battery = 0 ↔ state = false := by rw [reported, hookBit_eq_zero]
  cases volts with
  | middle => rfl
  | low =>
    cases state with
    | true => exact absurd rfl agrees
    | false => exact Battery.sense_absent (present.mpr rfl)
  | high =>
    cases state with
    | true => exact Battery.sense_present fun absent => absurd (present.mp absent) (by decide)
    | false => exact absurd rfl agrees

/-- One that does changes nothing while the countdown runs. -/
theorem Battery.sense_waits {battery : Battery} {state : Bool}
    (reported : battery.battery = hookBit state) (runs : battery.battdebounce ≠ 0) :
    battery.sense (contrary state) = (battery, []) := by
  have present : battery.battery = 0 ↔ state = false := by rw [reported, hookBit_eq_zero]
  cases state with
  | true => exact Battery.sense_losing (fun absent => absurd (present.mp absent) (by decide)) runs
  | false => exact Battery.sense_returning (present.mpr rfl) runs

/-- At the end of the countdown it changes the state. -/
theorem Battery.sense_turns {battery : Battery} {state : Bool}
    (reported : battery.battery = hookBit state) (elapsed : battery.battdebounce = 0) :
    battery.sense (contrary state) = (⟨hookBit !state, 64⟩, [hookSig !state]) := by
  have present : battery.battery = 0 ↔ state = false := by rw [reported, hookBit_eq_zero]
  cases state with
  | true => exact Battery.sense_lost (fun absent => absurd (present.mp absent) (by decide)) elapsed
  | false => exact Battery.sense_back (present.mpr rfl) elapsed

/-- **A step of the variables is a step of the debouncer.** -/
theorem Battery.Follows.step {battery : Battery} {state : Debounced} (follows : battery.Follows state)
    (volts : Volts) :
    (battery.step volts).1.Follows (batteryDebouncer.step state volts) ∧
      (battery.step volts).2 =
        if (batteryDebouncer.step state volts).reported = state.reported then []
        else [hookSig (batteryDebouncer.step state volts).reported] := by
  obtain ⟨reported, counts, short⟩ := follows
  unfold Battery.step Debouncer.step
  by_cases agrees : volts = contrary state.reported
  · have away : batteryDebouncer.away state.reported volts := agrees
    rw [if_pos away]
    by_cases more : state.streak + 1 < 32
    · have runs : battery.battdebounce ≠ 0 := by omega
      rw [if_pos (show _ < batteryDebouncer.threshold from more), if_pos rfl, agrees,
        Battery.sense_waits reported runs]
      refine ⟨⟨reported, ?_, more⟩, rfl⟩
      rw [Battery.counted, if_pos runs]
      show battery.battdebounce - 2 = 62 - 2 * ((state.streak + 1 : Nat) : Int)
      omega
    · rw [if_neg (show ¬ _ < batteryDebouncer.threshold from more), if_neg (by simp), agrees,
        Battery.sense_turns reported (by omega)]
      exact ⟨⟨rfl, rfl, Nat.zero_lt_succ 31⟩, rfl⟩
  · have still : ¬ batteryDebouncer.away state.reported volts := agrees
    rw [if_neg still, if_pos rfl, Battery.sense_agrees reported agrees]
    exact ⟨⟨reported, rfl, Nat.zero_lt_succ 31⟩, rfl⟩

section Battery

variable {σ : Type} {env : Env σ} {card : Card} {count : Nat}
  (polls : PollRun env (wcfxsVoicedaaCheckHook card) (SameLine card) count)

/-- The line voltage that poll `n` reads, taken for low, high or middle. -/
def PollRun.volts (n : Nat) : Volts := Volts.of (voltage card (polls.log n))

/-- The last 32 polls up to `n` read such a voltage. -/
def PollRun.Volted (volts : Volts) (n : Nat) : Prop :=
  31 ≤ n ∧ ∀ i, n - 31 ≤ i → i ≤ n → polls.volts i = volts

/-- The hook signals of poll `n` that come from the battery branch. -/
def PollRun.batterySignals (n : Nat) : List RxSig := rxSigs card (linePart card (polls.log n))

/-- The battery state signalled last before poll `n`: OFFHOOK for present; at the start it is absent. -/
def PollRun.lastBattery (n : Nat) : RxSig := (outputs polls.batterySignals n).getLastD .onhook

/-- The debouncer before poll `n`, one voltage short of a battery at the start. -/
def PollRun.powered (n : Nat) : Debounced := batteryDebouncer.state ⟨false, 31⟩ polls.volts n

variable {polls}

/-- **One poll**: the variables go on following the debouncer, and the poll signals what it reports. -/
theorem PollRun.powered_step (zero : polls.Zeroed) {n : Nat} (inside : n < count)
    (follows : (batteryOf card (polls.reached n)).Follows (polls.powered n)) :
    (batteryOf card (polls.reached (n + 1))).Follows (polls.powered (n + 1)) ∧
      AtTurns polls.batterySignals hookSig (fun n => (polls.powered n).reported) n := by
  have polled := (polls.polled zero inside).battery
  rw [(polls.sameLine inside).batteryOf] at polled
  have battery : batteryOf card (polls.after n) = _ := congrArg Prod.fst polled
  have signals : polls.batterySignals n = _ := congrArg Prod.snd polled
  obtain ⟨next, reported⟩ := follows.step (polls.volts n)
  exact ⟨battery ▸ next, signals.trans reported⟩

/-- **Every number of polls** leads to variables that follow the debouncer. -/
theorem PollRun.powered_follows (zero : polls.Zeroed) {n : Nat} (inside : n ≤ count) :
    (batteryOf card (polls.reached n)).Follows (polls.powered n) := by
  induction n with
  | zero =>
    exact ⟨zero .battery (by decide), zero .battdebounce (by decide), Nat.lt_succ_self 31⟩
  | succ n ih => exact (polls.powered_step zero inside (ih (by omega))).1

/-- A window of the debouncer is 32 polls that read the contrary voltage. -/
theorem PollRun.volted_iff {reported : Bool} {n : Nat} :
    Debouncer.Window batteryDebouncer reported polls.volts 32 n ↔ polls.Volted (contrary reported) n := by
  constructor
  · rintro ⟨long, all⟩
    exact ⟨by omega, fun i recent inside => all i inside (by omega)⟩
  · rintro ⟨long, all⟩
    exact ⟨by omega, fun i inside recent => all i (by omega) inside⟩

/-- Where the debouncer turns: after 32 contrary voltages, or at a high one in the very first poll. -/
theorem PollRun.powered_turns {n : Nat} :
    batteryDebouncer.Turns (polls.powered n) (polls.volts n) ↔
      n = 0 ∧ polls.volts 0 = .high ∨ polls.Volted (contrary (polls.powered n).reported) n := by
  refine (Debouncer.turns_iff (by decide) n).trans ?_
  show Debouncer.Window batteryDebouncer _ polls.volts 32 n ∨ n + 1 + 31 = 32 ∧ _ ↔ _
  rw [polls.volted_iff, Or.comm]
  refine or_congr ?_ Iff.rfl
  constructor
  · rintro ⟨first, window⟩
    obtain rfl : n = 0 := by omega
    exact ⟨rfl, window.2 0 le_rfl (by omega)⟩
  · rintro ⟨rfl, high⟩
    refine ⟨rfl, le_rfl, fun i inside _ => ?_⟩
    obtain rfl : i = 0 := by omega
    exact high

/-- The ring detector never signals ONHOOK. -/
theorem Polled.ringPart_ne_onhook {world after : World σ} {log : List Event}
    (polled : Polled card world after log) : .onhook ∉ rxSigs card (ringPart card log) := by
  rw [show rxSigs card (ringPart card log) = _ from congrArg Prod.snd polled.ring]
  split
  · unfold Ring.step
    repeat' split
    all_goals simp
  · simp

/-- **FXO battery detection.** From zeroed variables, in every run of polls: battery loss is signalled
at a poll exactly if the battery is reported present and this poll and the 31 before it read a low
voltage; battery presence exactly if it is reported absent and they read a high one, or the very first
poll does. `battery` tells what is reported, and `battdebounce` is even and between 0 and 64. -/
theorem battery_debounced (card : Card) {σ : Type} (env : Env σ) (count : Nat)
    (polls : PollRun env (wcfxsVoicedaaCheckHook card) (SameLine card) count) (zero : polls.Zeroed) :
    ∀ n < count,
      (.onhook ∈ polls.signals card n ↔ polls.lastBattery n = .offhook ∧ polls.Volted .low n) ∧
      (.offhook ∈ polls.batterySignals n ↔ polls.lastBattery n = .onhook ∧
        (n = 0 ∧ polls.volts 0 = .high ∨ polls.Volted .high n)) ∧
      (fxoInt .battery card (polls.before n) ≠ 0 ↔ polls.lastBattery n = .offhook) ∧
      ∀ world ∈ [polls.before n, polls.after n], 2 ∣ fxoInt .battdebounce card world ∧
        0 ≤ fxoInt .battdebounce card world ∧ fxoInt .battdebounce card world ≤ 64 := by
  have turns : ∀ n < count, AtTurns polls.batterySignals hookSig (fun n => (polls.powered n).reported) n :=
    fun n inside => (polls.powered_step zero inside (polls.powered_follows zero inside.le)).2
  have last : ∀ n < count, polls.lastBattery n = hookSig (polls.powered n).reported :=
    fun n inside => (outputs_turns (by decide) fun i early => turns i (by omega)).2
  intro n inside
  have signalled : ∀ state, hookSig state ∈ polls.batterySignals n ↔ polls.lastBattery n = hookSig (!state) ∧
      (n = 0 ∧ polls.volts 0 = .high ∨ polls.Volted (contrary !state) n) := by
    intro state
    rw [mem_out_iff (by decide) (turns n inside) state, last n inside, And.comm]
    show (polls.powered n).reported = _ ∧ batteryDebouncer.Turns (polls.powered n) _ ↔ _
    rw [polls.powered_turns]
    have injective : (polls.powered n).reported = !state ↔
        hookSig (polls.powered n).reported = hookSig !state := by
      cases (polls.powered n).reported <;> cases state <;> decide
    rw [← injective]
    exact and_congr_right fun reported => by rw [reported]
  refine ⟨?_, signalled true, ?_, ?_⟩
  · -- the ring detector does not signal ONHOOK, and a first poll has no battery to lose
    rw [PollRun.signals, rxSigs_parts, List.mem_append,
      or_iff_right (polls.polled zero inside).ringPart_ne_onhook]
    refine (signalled false).trans (and_congr_right fun reported => or_iff_right ?_)
    rintro ⟨rfl, -⟩
    have absent : polls.lastBattery 0 = .onhook := rfl
    rw [absent] at reported
    exact absurd reported (by decide)
  · have follows := (polls.powered_follows zero inside.le).reported
    rw [← (polls.sameLine inside).batteryOf] at follows
    rw [show fxoInt .battery card (polls.before n) = _ from follows, last n inside]
    cases (polls.powered n).reported <;> decide
  · have before := (polls.inBounds zero inside.le).same (polls.sameLine inside)
    simp only [List.forall_mem_cons, List.not_mem_nil, false_imp_iff, implies_true, and_true]
    exact ⟨before.battery, (polls.inBounds zero (n := n + 1) inside).battery⟩

end Battery

/-! ### Ringing -/

/-- A ring state, as zaptel is told it. -/
def ringSig : Bool → RxSig
  | true => .ring
  | false => .offhook

/-- Whether a ring is reported. -/
def Ring.reported (ring : Ring) : Bool := ring.wasringing ≠ 0

namespace Ring

variable {ring : Ring}

/-- **What a step signals**: the change of the report. -/
theorem step_signals (ringing : Bool) : (ring.step ringing).2 =
    if (ring.step ringing).1.reported = ring.reported then []
    else [ringSig (ring.step ringing).1.reported] := by
  cases ringing with
  | true =>
    by_cases full : ring.ringdebounce + 64 ≥ 512
    · rw [step_full full]
      by_cases fresh : ring.wasringing = 0 <;> simp [reported, fresh, ringSig]
    · rw [step_charge full]
      simp [reported]
  | false =>
    by_cases empty : ring.ringdebounce - 8 ≤ 0
    · rw [step_empty empty]
      by_cases fresh : ring.wasringing = 0 <;> simp [reported, fresh, ringSig]
    · rw [step_leak empty]
      simp [reported]

/-- The level rises by 64 with a ringing voltage, and by nothing else. -/
theorem step_le (bounded : ring.Bounded) (ringing : Bool) :
    (ring.step ringing).1.ringdebounce ≤ ring.ringdebounce + if ringing then 64 else 0 := by
  have lower := bounded.2.1
  cases ringing with
  | true =>
    by_cases full : ring.ringdebounce + 64 ≥ 512
    · rw [step_full full]
      exact full
    · rw [step_charge full]
      exact le_rfl
  | false =>
    by_cases empty : ring.ringdebounce - 8 ≤ 0
    · rw [step_empty empty]
      exact Int.add_nonneg lower le_rfl
    · rw [step_leak empty]
      show ring.ringdebounce - 8 ≤ ring.ringdebounce + 0
      omega

/-- It falls by 8 without one, and by nothing else. -/
theorem le_step (bounded : ring.Bounded) (ringing : Bool) :
    -(ring.step ringing).1.ringdebounce ≤ -ring.ringdebounce + if !ringing then 8 else 0 := by
  have upper := bounded.2.2
  cases ringing with
  | true =>
    by_cases full : ring.ringdebounce + 64 ≥ 512
    · rw [step_full full]
      show -512 ≤ -ring.ringdebounce + 0
      omega
    · rw [step_charge full]
      show -(ring.ringdebounce + 64) ≤ -ring.ringdebounce + 0
      omega
  | false =>
    by_cases empty : ring.ringdebounce - 8 ≤ 0
    · rw [step_empty empty]
      show -0 ≤ -ring.ringdebounce + 8
      omega
    · rw [step_leak empty]
      show -(ring.ringdebounce - 8) ≤ -ring.ringdebounce + 8
      omega

/-- RING comes with a ringing voltage, and with the level at its top. -/
theorem ring_signalled {ringing : Bool} (signalled : .ring ∈ (ring.step ringing).2) :
    ringing = true ∧ ring.ringdebounce + 64 ≥ 512 ∧ (ring.step ringing).1.ringdebounce = 512 := by
  cases ringing with
  | true =>
    by_cases full : ring.ringdebounce + 64 ≥ 512
    · exact ⟨rfl, full, by rw [step_full full]⟩
    · simp [step_charge full] at signalled
  | false =>
    by_cases empty : ring.ringdebounce - 8 ≤ 0
    · simp [step_empty empty] at signalled
    · simp [step_leak empty] at signalled

/-- The end of a ring comes without one, and with the level at zero. -/
theorem stop_signalled {ringing : Bool} (signalled : .offhook ∈ (ring.step ringing).2) :
    ringing = false ∧ ring.ringdebounce ≤ 8 ∧ (ring.step ringing).1.ringdebounce = 0 := by
  cases ringing with
  | true =>
    by_cases full : ring.ringdebounce + 64 ≥ 512
    · simp [step_full full] at signalled
    · simp [step_charge full] at signalled
  | false =>
    by_cases empty : ring.ringdebounce - 8 ≤ 0
    · exact ⟨rfl, by omega, by rw [step_empty empty]⟩
    · simp [step_leak empty] at signalled

end Ring

section Ringing

variable {σ : Type} {env : Env σ} {card : Card} {count : Nat}
  (polls : PollRun env (wcfxsVoicedaaCheckHook card) (SameLine card) count)

/-- Poll `n` is made on hook. -/
def PollRun.OnHook (n : Nat) : Prop := fxoInt .offhook card (polls.before n) = 0

/-- Poll `n` finds ring bits and a battery. -/
def PollRun.Heard (n : Nat) : Prop :=
  ringBits card (polls.log n) ≠ 0 ∧ fxoInt .battery card (polls.before n) ≠ 0

/-- A ringing poll, on hook. -/
def PollRun.Ringing (n : Nat) : Prop := polls.OnHook n ∧ polls.Heard n

/-- A poll on hook that is not ringing. -/
def PollRun.Silent (n : Nat) : Prop := polls.OnHook n ∧ ¬ polls.Heard n

instance (n : Nat) : Decidable (polls.OnHook n) := inferInstanceAs (Decidable (_ = _))

instance (n : Nat) : Decidable (polls.Heard n) := inferInstanceAs (Decidable (_ ∧ _))

instance : DecidablePred polls.Ringing := fun _ => inferInstanceAs (Decidable (_ ∧ _))

instance : DecidablePred polls.Silent := fun _ => inferInstanceAs (Decidable (_ ∧ _))

/-- The hook signals of poll `n` that come from the ring detector. -/
def PollRun.ringSignals (n : Nat) : List RxSig := rxSigs card (ringPart card (polls.log n))

/-- The ring state signalled last before poll `n`; at the start there is no ring. -/
def PollRun.lastRing (n : Nat) : RxSig := (outputs polls.ringSignals n).getLastD .offhook

/-- The detector after `n` polls. -/
def PollRun.ring (n : Nat) : Ring := ringOf card (polls.reached n)

variable {polls}

/-- **One poll**: a step of the detector, or nothing at all off hook. -/
theorem PollRun.ring_step (zero : polls.Zeroed) {n : Nat} (inside : n < count) :
    (polls.ring (n + 1), polls.ringSignals n) =
      if polls.OnHook n then (polls.ring n).step (polls.Heard n) else (polls.ring n, []) := by
  have polled := (polls.polled zero inside).ring
  rw [(polls.sameLine inside).ringOf] at polled
  exact polled

/-- A poll with the card on hook. -/
theorem PollRun.ring_onHook (zero : polls.Zeroed) {n : Nat} (inside : n < count) (on : polls.OnHook n) :
    polls.ring (n + 1) = ((polls.ring n).step (polls.Heard n)).1 ∧
      polls.ringSignals n = ((polls.ring n).step (polls.Heard n)).2 := by
  have step := polls.ring_step zero inside
  rw [if_pos on] at step
  exact Prod.ext_iff.mp step

/-- A poll with the card off hook changes nothing. -/
theorem PollRun.ring_offHook (zero : polls.Zeroed) {n : Nat} (inside : n < count) (off : ¬ polls.OnHook n) :
    polls.ring (n + 1) = polls.ring n ∧ polls.ringSignals n = [] := by
  have step := polls.ring_step zero inside
  rw [if_neg off] at step
  exact Prod.ext_iff.mp step

theorem PollRun.ring_turns (zero : polls.Zeroed) {n : Nat} (inside : n < count) :
    AtTurns polls.ringSignals ringSig (fun n => (polls.ring n).reported) n := by
  unfold AtTurns
  simp only
  by_cases on : polls.OnHook n
  · obtain ⟨next, signals⟩ := polls.ring_onHook zero inside on
    rw [next, signals]
    exact Ring.step_signals _
  · obtain ⟨next, signals⟩ := polls.ring_offHook zero inside on
    rw [next, signals, if_pos rfl]

/-- The level goes up by 64 with ringing polls only, and down by 8 with silent ones only. -/
theorem PollRun.ring_level (zero : polls.Zeroed) {n : Nat} (inside : n < count) :
    (polls.ring (n + 1)).ringdebounce ≤ (polls.ring n).ringdebounce + (if polls.Ringing n then 64 else 0) ∧
    -(polls.ring (n + 1)).ringdebounce ≤
      -(polls.ring n).ringdebounce + (if polls.Silent n then 8 else 0) := by
  have bounded := (polls.inBounds zero inside.le).ring
  unfold PollRun.Ringing PollRun.Silent
  by_cases on : polls.OnHook n
  · rw [(polls.ring_onHook zero inside on).1]
    have up := Ring.step_le bounded (polls.Heard n)
    have down := Ring.le_step bounded (polls.Heard n)
    by_cases heard : polls.Heard n <;> simp only [on, heard, true_and, decide_true, decide_false,
      not_true_eq_false, not_false_eq_true, Bool.not_true, Bool.not_false, if_true, if_false] at up down ⊢
    · exact ⟨up, down⟩
    · exact ⟨up, down⟩
  · rw [(polls.ring_offHook zero inside on).1]
    simp [on]

theorem PollRun.ring_signalled (zero : polls.Zeroed) {n : Nat} (inside : n < count)
    (signalled : .ring ∈ polls.ringSignals n) : polls.Ringing n ∧
      (polls.ring n).ringdebounce + 64 ≥ 512 ∧ (polls.ring (n + 1)).ringdebounce = 512 := by
  by_cases on : polls.OnHook n
  · obtain ⟨next, signals⟩ := polls.ring_onHook zero inside on
    rw [signals] at signalled
    obtain ⟨heard, full, top⟩ := Ring.ring_signalled signalled
    exact ⟨⟨on, of_decide_eq_true heard⟩, full, by rwa [next]⟩
  · rw [(polls.ring_offHook zero inside on).2] at signalled
    exact absurd signalled List.not_mem_nil

theorem PollRun.stop_signalled (zero : polls.Zeroed) {n : Nat} (inside : n < count)
    (signalled : .offhook ∈ polls.ringSignals n) : polls.Silent n ∧
      (polls.ring n).ringdebounce ≤ 8 ∧ (polls.ring (n + 1)).ringdebounce = 0 := by
  by_cases on : polls.OnHook n
  · obtain ⟨next, signals⟩ := polls.ring_onHook zero inside on
    rw [signals] at signalled
    obtain ⟨silent, low, bottom⟩ := Ring.stop_signalled signalled
    exact ⟨⟨on, of_decide_eq_false silent⟩, low, by rwa [next]⟩
  · rw [(polls.ring_offHook zero inside on).2] at signalled
    exact absurd signalled List.not_mem_nil

/-- The battery detector never signals RING. -/
theorem Polled.linePart_ne_ring {world after : World σ} {log : List Event}
    (polled : Polled card world after log) : .ring ∉ rxSigs card (linePart card log) := by
  rw [show rxSigs card (linePart card log) = _ from congrArg Prod.snd polled.battery]
  show .ring ∉ ((batteryOf card world).sense _).2
  cases Volts.of (voltage card log) with
  | middle => simp [Battery.sense]
  | _ =>
    unfold Battery.sense
    simp only
    repeat' split
    all_goals simp

/-- A place from which ringing is counted: the start, or right after the end of a ring. -/
def PollRun.Rest (polls : PollRun env (wcfxsVoicedaaCheckHook card) (SameLine card) count) (m : Nat) : Prop :=
  m = 0 ∨ ∃ k, m = k + 1 ∧ .offhook ∈ polls.ringSignals k

/-- From rest, RING takes eight ringing polls: the level climbs from zero to its top. -/
theorem PollRun.ring_tally (zero : polls.Zeroed) {m n : Nat} (inside : n < count) (early : m ≤ n)
    (rest : polls.Rest m) (signalled : .ring ∈ polls.ringSignals n) :
    8 ≤ tally polls.Ringing m (n + 1) := by
  obtain ⟨rings, full, -⟩ := polls.ring_signalled zero inside signalled
  have bottom : (polls.ring m).ringdebounce = 0 := by
    rcases rest with rfl | ⟨k, rfl, stopped⟩
    · exact zero .ringdebounce (by decide)
    · exact (polls.stop_signalled zero (by omega) stopped).2.2
  have level : (polls.ring n).ringdebounce ≤ (polls.ring m).ringdebounce + 64 * tally polls.Ringing m n :=
    @level_le_tally polls.Ringing _ m n (fun i => (polls.ring i).ringdebounce) 64 early
      fun i _ late => (polls.ring_level zero (by omega)).1
  rw [tally_succ early, if_pos rings]
  omega

/-- From a RING, the end of the ring takes 64 silent polls: the level drains from its top. -/
theorem PollRun.stop_tally (zero : polls.Zeroed) {m n : Nat} (inside : n < count) (early : m < n)
    (rung : .ring ∈ polls.ringSignals m) (signalled : .offhook ∈ polls.ringSignals n) :
    64 ≤ tally polls.Silent (m + 1) (n + 1) := by
  obtain ⟨silent, low, -⟩ := polls.stop_signalled zero inside signalled
  have top := (polls.ring_signalled zero (by omega) rung).2.2
  have level : -(polls.ring n).ringdebounce ≤
      -(polls.ring (m + 1)).ringdebounce + 8 * tally polls.Silent (m + 1) n :=
    @level_le_tally polls.Silent _ (m + 1) n (fun i => -(polls.ring i).ringdebounce) 8 early
      fun i _ late => (polls.ring_level zero (by omega)).2
  rw [tally_succ (show m + 1 ≤ n from early), if_pos silent]
  omega

/-- **FXO ring detection.** From zeroed variables, in every run of polls, whatever is done with the hook
in between: `ringdebounce` is a multiple of 8 from 0 to 512; RING and the ring-stop OFFHOOK alternate,
starting with RING, and `wasringing` tells which came last; RING is signalled only by a ringing poll,
the eighth one or later since a ring-stop or the start; a ring-stop only by a silent poll, the 64th or
later since a RING. -/
theorem ring_alternates (card : Card) {σ : Type} (env : Env σ) (count : Nat)
    (polls : PollRun env (wcfxsVoicedaaCheckHook card) (SameLine card) count) (zero : polls.Zeroed) :
    (∀ n < count, ∀ world ∈ [polls.before n, polls.after n], 8 ∣ fxoInt .ringdebounce card world ∧
      0 ≤ fxoInt .ringdebounce card world ∧ fxoInt .ringdebounce card world ≤ 512) ∧
    ((∀ sig ∈ outputs polls.ringSignals count, sig = .ring ∨ sig = .offhook) ∧
      (outputs polls.ringSignals count).IsChain (· ≠ ·) ∧
      ∀ first ∈ (outputs polls.ringSignals count).head?, first = .ring) ∧
    (∀ n < count, (fxoInt .wasringing card (polls.before n) ≠ 0 ↔ polls.lastRing n = .ring) ∧
      (fxoInt .wasringing card (polls.after n) ≠ 0 ↔ polls.lastRing (n + 1) = .ring)) ∧
    (∀ n < count, .ring ∈ polls.signals card n →
      polls.Ringing n ∧ ∀ m ≤ n, polls.Rest m → 8 ≤ tally polls.Ringing m (n + 1)) ∧
    ∀ n < count, .offhook ∈ polls.ringSignals n → polls.Silent n ∧ polls.lastRing n = .ring ∧
      ∀ m < n, .ring ∈ polls.signals card m → 64 ≤ tally polls.Silent (m + 1) (n + 1) := by
  have start : (polls.ring 0).reported = false := by
    show decide (fxoInt .wasringing card (polls.before 0) ≠ 0) = false
    rw [zero .wasringing (by decide)]
    rfl
  have alternates : ∀ n ≤ count, Alternates ringSig false (outputs polls.ringSignals n) ∧
      polls.lastRing n = ringSig (polls.ring n).reported := by
    intro n inside
    rw [← start, PollRun.lastRing, show RxSig.offhook = ringSig (polls.ring 0).reported by rw [start]; rfl]
    exact outputs_turns (by decide) fun i early => polls.ring_turns zero (by omega)
  have reported : ∀ n ≤ count, (polls.ring n).wasringing ≠ 0 ↔ polls.lastRing n = .ring := by
    intro n inside
    rw [(alternates n inside).2, Ring.reported]
    by_cases rings : (polls.ring n).wasringing = 0 <;> simp [rings, ringSig]
  have ringOnly : ∀ n < count, .ring ∈ polls.signals card n → .ring ∈ polls.ringSignals n := by
    intro n inside signalled
    rw [PollRun.signals, rxSigs_parts, List.mem_append] at signalled
    exact signalled.resolve_right (polls.polled zero inside).linePart_ne_ring
  obtain ⟨named, neighbours, first⟩ := (alternates count le_rfl).1
  refine ⟨fun n inside => ?_, ⟨named, neighbours, first⟩, fun n inside => ?_, fun n inside signalled => ?_,
    fun n inside signalled => ?_⟩
  · have before := (polls.inBounds zero inside.le).same (polls.sameLine inside)
    simp only [List.forall_mem_cons, List.not_mem_nil, false_imp_iff, implies_true, and_true]
    exact ⟨before.ring, (polls.inBounds zero (n := n + 1) inside).ring⟩
  · refine ⟨?_, reported (n + 1) inside⟩
    rw [polls.sameLine inside .wasringing (by decide)]
    exact reported n inside.le
  · have rung := ringOnly n inside signalled
    exact ⟨(polls.ring_signalled zero inside rung).1,
      fun m early rest => polls.ring_tally zero inside early rest rung⟩
  · refine ⟨(polls.stop_signalled zero inside signalled).1, ?_, fun m early rung =>
      polls.stop_tally zero inside early (ringOnly m (by omega) rung) signalled⟩
    -- a stop is a turn of the report, so a ring was reported
    have turned := polls.ring_turns zero inside
    rw [(alternates n inside.le).2]
    unfold AtTurns at turned
    rw [turned] at signalled
    cases now : (polls.ring n).reported <;> cases next : (polls.ring (n + 1)).reported <;>
      simp [now, next, ringSig] at signalled ⊢

end Ringing

/-! ### A line that rings -/

open Gsm (firstSlot)

/-- Register 29 reads 10, every other register 0x60. -/
def ringingLine : Env Unit where
  setreg := fun _ _ _ => id
  getreg := fun _ reg => (if reg = 29 then 10 else 0x60, ·)
  setLed := fun _ _ => id
  forgetCard := id
  gsmSend := fun _ _ => id
  gsmReceive := fun _ => ([], ·)
  uart := fun _ _ => (0, ·)
  jiffies := (0, ·)
  waitJustABit := fun _ => id
  copyToUser := fun _ => (false, ·)

theorem ringingLine_ends : ∀ n < 9, ((wcfxsVoicedaaCheckHook firstSlot).run (handler ringingLine)
    (PollRun.again ringingLine (wcfxsVoicedaaCheckHook firstSlot) (start () fun _ => 0) n)).isSome := by
  decide +kernel

/-- Nine polls of a card on a line that rings all the time. -/
def ringingPolls : PollRun ringingLine (wcfxsVoicedaaCheckHook firstSlot) (SameLine firstSlot) 9 :=
  PollRun.repeated ringingLine _ _ (fun _ _ _ => rfl) (start () fun _ => 0) 9 ringingLine_ends

theorem ringingPolls_zeroed : ringingPolls.Zeroed := by
  unfold PollRun.Zeroed
  decide +kernel

/-- The first poll finds the battery. -/
theorem battery_debounced_ringing : .offhook ∈ ringingPolls.batterySignals 0 := by
  have absent : ringingPolls.lastBattery 0 = .onhook := rfl
  have high : ringingPolls.volts 0 = .high := by decide +kernel
  have signalled := battery_debounced firstSlot ringingLine 9 ringingPolls ringingPolls_zeroed
  exact (signalled 0 (by decide)).2.1.mpr ⟨absent, .inl ⟨rfl, high⟩⟩

/-- The ninth one is the eighth that rings. -/
theorem ring_alternates_ringing :
    .ring ∈ ringingPolls.signals 0 8 ∧ 8 ≤ tally ringingPolls.Ringing 0 9 := by
  have signalled : .ring ∈ ringingPolls.signals 0 8 := by decide +kernel
  have alternates := ring_alternates firstSlot ringingLine 9 ringingPolls ringingPolls_zeroed
  exact ⟨signalled, (alternates.2.2.2.1 8 (by decide) signalled).2 0 (by decide) (.inl rfl)⟩

end Baps.Wcfxs
