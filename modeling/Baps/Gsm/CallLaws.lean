/-
**Laws of GSM calls, and where the driver breaks them.**

* `consistent_calls` — the two call states exclude each other, an ONHOOK is reported exactly when a
  call ends, and the modem is told to dial or answer only from idle or ringing.
* `onhook_hangs_up_iff` — hanging up the GSM channel ends the call, unless the number dialled has not
  been acknowledged yet or the call is an incoming one: those are left up, and no `"ath"` is sent.
* `no_carrier_returns_to_idle_iff` — a NO CARRIER ends every call, but an OFFHOOK that is due for a
  RING survives it in every phase but ringing.
* `outgoing_call_leaves` — for the same reason an outgoing call that starts between the two ticks of a
  RING leaves a phantom incoming call behind.
-/

import Baps.Gsm.Calls

namespace Baps.Gsm

open Interaction Wcfxs

/-! ### Transitions of the machine -/

namespace Machine

variable (machine : Machine)

/-- A tick reports an ONHOOK exactly when it ends a call. -/
theorem tick_onhook (line : List UInt8) :
    (machine.tick line).2 = some .onhook ↔
      machine.phase ≠ .idle ∧ (machine.tick line).1.phase = .idle := by
  unfold tick
  cases phase : machine.phase <;> simp only <;> split_ifs <;> simp_all

/-- A tick does not turn an outgoing call into an incoming one. -/
theorem tick_drops (line : List UInt8) :
    (machine.phase ≠ .idle ∧ (machine.tick line).1.phase = .idle) ↔
      (machine.outgoing ≠ 0 ∧ (machine.tick line).1.outgoing = 0) ∨
        (machine.incomming ≠ 0 ∧ (machine.tick line).1.incomming = 0) := by
  unfold tick
  cases phase : machine.phase <;> simp only <;> split_ifs <;>
    simp_all [outgoing, incomming]

/-- The modem is told to dial only from idle, and to answer only from ringing. -/
theorem gsmHook_sends {txdialbuf info : List UInt8} {txsig : TxSig}
    (sends : (machine.gsmHook txdialbuf txsig).2 = some info) :
    (commandDial <+: info → machine.phase = .idle) ∧
      (info = commandAnswer → machine.phase = .ringing) := by
  have answer : ∀ {info}, machine.answer.2 = some info →
      info = commandAnswer ∧ machine.phase = .ringing := by
    unfold Machine.answer
    split_ifs with ringing
    · exact fun sent => ⟨(Option.some.inj sent).symm, ringing⟩
    · intro sent
      cases sent
  have answers : machine.answer.2 = some info →
      (commandDial <+: info → machine.phase = .idle) ∧
        (info = commandAnswer → machine.phase = .ringing) := by
    intro sent
    obtain ⟨rfl, ringing⟩ := answer sent
    exact ⟨fun dials => absurd dials (by decide), fun _ => ringing⟩
  cases txsig with
  | start =>
    simp only [gsmHook] at sends
    split_ifs at sends with dial idle
    · refine ⟨fun _ => idle, fun same => ?_⟩
      rw [← Option.some.inj sends, gsmCallString, List.append_assoc] at same
      have dials : commandDial <+: commandAnswer := ⟨_, same⟩
      exact absurd dials (by decide)
    · exact answers sends
  | offhook => exact answers sends
  | onhook =>
    simp only [gsmHook] at sends
    split_ifs at sends
    obtain rfl := Option.some.inj sends
    exact ⟨fun dials => absurd dials (by decide), fun same => absurd same (by decide)⟩
  | kewl => cases sends

/-- On an FXS channel the modem is only ever told to hang up. -/
theorem fxsHook_sends {info : List UInt8} {txsig : TxSig}
    (sends : (machine.fxsHook txsig).2 = some info) : info = commandHangup := by
  cases txsig with
  | onhook =>
    simp only [fxsHook] at sends
    split_ifs at sends
    exact (Option.some.inj sends).symm
  | _ => cases sends

end Machine

section Laws

variable {params : Params} {cage : Cage} {σ : Type} {env : Env σ} {machine next : Machine}
  {events : List Event} {world after : World σ}

/-! ### Consistency -/

/-- The call variables fit together. -/
structure Consistent (world : World σ) : Prop where
  exclusive : world.cell .outgoingCallState = 0 ∨ world.cell .incommingCallState = 0
  outgoing : world.cell .outgoingCallState ∈ [0, 1, 2]
  incomming : world.cell .incommingCallState ∈ [0, 1, 2]
  count : world.cell .interruptCount ∈ [0, 1]

theorem Tracks.consistent (tracks : Tracks machine world) : Consistent world := by
  obtain ⟨outgoing, incomming, count⟩ := tracks
  obtain ⟨phase, pending⟩ := machine
  refine ⟨?_, ?_, ?_, ?_⟩
  · rw [outgoing, incomming]
    cases phase <;> simp [Machine.outgoing, Machine.incomming]
  · rw [outgoing]
    cases phase <;> simp [Machine.outgoing]
  · rw [incomming]
    cases phase <;> simp [Machine.incomming]
  · rw [count]
    cases pending <;> simp [Machine.count]

/-- A call state goes from non-zero to zero. -/
def Drops (world after : World σ) : Prop :=
  (world.cell .outgoingCallState ≠ 0 ∧ after.cell .outgoingCallState = 0) ∨
    (world.cell .incommingCallState ≠ 0 ∧ after.cell .incommingCallState = 0)

/-- An interrupt reports an ONHOOK on the GSM channel exactly when it ends a call. -/
theorem interrupt_onhook (tracks : Tracks machine world)
    (stepped : Stimulus.interrupt.run params cage env world = some after) :
    .signalled cage.gsm .onhook ∈ since world after ↔ Drops world after := by
  by_cases polls : Polls world cage.gsm
  · obtain ⟨final, also, moves⟩ := tick_run tracks polls
    obtain rfl := Option.some.inj (also.symm.trans stepped)
    rw [moves.signalled_iff, Drops, tracks.outgoing, tracks.incomming, moves.tracks.outgoing,
      moves.tracks.incomming, ← Machine.tick_drops, ← Machine.tick_onhook]
    simp [eq_comm]
  · have moves := (interrupt_aside polls (Stimulus.run_eq stepped)).moves tracks
    rw [moves.signalled_iff, Drops, tracks.outgoing, tracks.incomming, moves.tracks.outgoing,
      moves.tracks.incomming]
    simp

/-- Commands to the modem are transitions of the machine. -/
theorem Transition.sends (transition : Transition cage machine events next) {card : Card}
    {info : List UInt8} (sent : .sent card info ∈ events) :
    (commandDial <+: info → machine.phase = .idle) ∧
      (info = commandAnswer → machine.phase = .ringing) := by
  cases transition with
  | none => cases sent
  | tick line => simp at sent
  | gsmHook txdialbuf txsig =>
    obtain ⟨command, sends, same⟩ := List.mem_map.mp sent
    cases same
    exact machine.gsmHook_sends (Option.mem_toList.mp sends)
  | fxsHook channel txsig =>
    obtain ⟨command, sends, same⟩ := List.mem_map.mp sent
    cases same
    obtain rfl := machine.fxsHook_sends (Option.mem_toList.mp sends)
    exact ⟨fun dials => absurd dials (by decide), fun same => absurd same (by decide)⟩

/-- **Call consistency.** In every reachable state the call states exclude each other and stay in
range; an interrupt reports an ONHOOK exactly when it takes a call state from non-zero to zero; and
`"atd…"` is sent only from idle, `"ata"` only from ringing. -/
theorem consistent_calls (reached : Reached params cage env world) :
    Consistent world ∧
      (∀ after, Stimulus.interrupt.run params cage env world = some after →
        (.signalled cage.gsm .onhook ∈ since world after ↔ Drops world after)) ∧
      ∀ stimulus after card info, Stimulus.run params cage env stimulus world = some after →
        .sent card info ∈ since world after →
        (commandDial <+: info →
          world.cell .outgoingCallState = 0 ∧ world.cell .incommingCallState = 0) ∧
        (info = commandAnswer → world.cell .incommingCallState = 1) := by
  obtain ⟨machine, tracks⟩ := reached.tracks
  refine ⟨tracks.consistent, fun after stepped => interrupt_onhook tracks stepped, ?_⟩
  intro stimulus after card info stepped sent
  obtain ⟨next, events, transition, moves⟩ := Stimulus.run_machine tracks stepped
  obtain ⟨dials, answers⟩ := transition.sends (moves.sent_iff.mp sent)
  rw [tracks.outgoing, tracks.incomming]
  exact ⟨fun dial => machine.idle_iff.mp (dials dial),
    fun answer => machine.incomming_eq_one.mpr (answers answer)⟩

/-- In a driver that has seen a RING. -/
theorem consistent_calls_ring : ∃ world,
    runStimuli Params.default soloCage script gsmRound (idleDriver [codeRing]) = some world ∧
      world.cell .interruptCount = 1 ∧ Consistent world := by
  obtain ⟨world, ran, count⟩ : ∃ world,
      runStimuli Params.default soloCage script gsmRound (idleDriver [codeRing]) = some world ∧
        world.cell .interruptCount = 1 := computed (by decide)
  exact ⟨world, ran, count, (consistent_calls ⟨_, gsmRound, idleDriver_fresh [codeRing], ran⟩).1⟩

/-! ### Hanging up -/

/-- What hanging up the GSM channel is for: no call is left, and the modem has been told. -/
structure HangsUp (gsm : Card) (world after : World σ) : Prop where
  outgoing : after.cell .outgoingCallState = 0
  incomming : after.cell .incommingCallState ≠ 2
  told : world.cell .outgoingCallState = 1 ∨ world.cell .outgoingCallState = 2 ∨
    world.cell .incommingCallState = 2 → .sent gsm commandHangup ∈ since world after

/-- **An ONHOOK on the GSM channel** hangs up unless a dialled number is still to be acknowledged or
an incoming call has been answered. -/
theorem onhook_hangs_up_iff (reached : Reached params cage env world) (sig : Signalling)
    (txdialbuf : List UInt8) :
    ∃ after, (Stimulus.hooksig cage.gsm .onhook sig txdialbuf).run params cage env world = some after ∧
      (HangsUp cage.gsm world after ↔
        world.cell .outgoingCallState ≠ 1 ∧ world.cell .incommingCallState ≠ 2) := by
  obtain ⟨machine, tracks⟩ := reached.tracks
  obtain ⟨after, stepped, moves⟩ := gsmHook_run tracks .onhook sig txdialbuf
  refine ⟨after, stepped, ?_⟩
  have hangsUp : HangsUp cage.gsm world after ↔
      (machine.gsmHook txdialbuf .onhook).1.outgoing = 0 ∧
        (machine.gsmHook txdialbuf .onhook).1.incomming ≠ 2 ∧
        (machine.outgoing = 1 ∨ machine.outgoing = 2 ∨ machine.incomming = 2 →
          (machine.gsmHook txdialbuf .onhook).2 = some commandHangup) := by
    constructor
    · rintro ⟨outgoing, incomming, told⟩
      rw [moves.sent_iff, tracks.outgoing, tracks.incomming] at told
      rw [moves.tracks.outgoing] at outgoing
      rw [moves.tracks.incomming] at incomming
      exact ⟨outgoing, incomming, fun up => by simpa using told up⟩
    · rintro ⟨outgoing, incomming, told⟩
      refine ⟨moves.tracks.outgoing.trans outgoing, moves.tracks.incomming.symm ▸ incomming, ?_⟩
      rw [moves.sent_iff, tracks.outgoing, tracks.incomming]
      exact fun up => by simpa using told up
  rw [hangsUp, tracks.outgoing, tracks.incomming]
  cases phase : machine.phase <;>
    simp [Machine.gsmHook, Machine.outgoing, Machine.incomming, phase]

/-- From an outgoing conversation. -/
theorem onhook_hangs_up_talking : ∃ world after,
    runStimuli Params.default soloCage script [dialOne, .interrupt] (idleDriver [codeOk]) =
      some world ∧
    (Stimulus.hooksig firstSlot .onhook .fxoks []).run Params.default soloCage script world = some after ∧
    world.cell .outgoingCallState = 2 ∧ HangsUp firstSlot world after := by
  obtain ⟨world, ran, talking, incomming⟩ : ∃ world,
      runStimuli Params.default soloCage script [dialOne, .interrupt] (idleDriver [codeOk]) =
        some world ∧
      world.cell .outgoingCallState = 2 ∧ world.cell .incommingCallState = 0 := computed (by decide)
  obtain ⟨after, stepped, hangsUp⟩ := onhook_hangs_up_iff
    ⟨_, [dialOne, .interrupt], idleDriver_fresh [codeOk], ran⟩ .fxoks []
  refine ⟨world, after, ran, stepped, talking, hangsUp.mpr ⟨?_, ?_⟩⟩
  · rw [talking]
    decide
  · rw [incomming]
    decide

/-- A number is dialled and the channel hung up before the modem's OK: the call stays up, and the
modem is not told. -/
theorem dialled_call_left_up : ∃ world after,
    Reached Params.default soloCage script world ∧ world.cell .outgoingCallState = 1 ∧
    (Stimulus.hooksig firstSlot .onhook .fxoks []).run Params.default soloCage script world = some after ∧
    after.cell .outgoingCallState = 1 ∧ .sent firstSlot commandHangup ∉ since world after ∧
    ¬ HangsUp firstSlot world after := by
  obtain ⟨world, ran, dialled, stays⟩ : ∃ world,
      runStimuli Params.default soloCage script [dialOne] (idleDriver []) = some world ∧
      world.cell .outgoingCallState = 1 ∧
      ((Stimulus.hooksig firstSlot .onhook .fxoks []).run Params.default soloCage script world).map
        (fun after => decide (after.cell .outgoingCallState = 1 ∧
          .sent firstSlot commandHangup ∉ since world after)) = some true := computed (by decide)
  obtain ⟨after, stepped, up, untold⟩ := computed stays
  refine ⟨world, after, ⟨_, [dialOne], idleDriver_fresh [], ran⟩, dialled, stepped, up, untold, ?_⟩
  exact fun hangsUp => untold (hangsUp.told (.inl dialled))

/-! ### Nothing incoming -/

/-- No incoming call, and no OFFHOOK due for a RING. -/
structure Machine.Quiet (machine : Machine) : Prop where
  pending : machine.pending = false
  incomming : machine.incomming = 0

theorem Machine.tick_quiet {line : List UInt8} (quiet : machine.Quiet) (noRing : line ≠ codeRing) :
    (machine.tick line).1.Quiet ∧ ∀ sig ∈ (machine.tick line).2, sig = .onhook := by
  obtain ⟨pending, incomming⟩ := quiet
  obtain ⟨phase, _⟩ := machine
  obtain rfl := pending
  cases phase with
  | idle => exact ⟨by simp [Machine.tick, noRing]; exact ⟨rfl, rfl⟩, by simp [Machine.tick, noRing]⟩
  | dialling =>
    simp only [Machine.tick]
    split_ifs
    · exact ⟨⟨rfl, rfl⟩, by simp⟩
    · exact ⟨⟨rfl, rfl⟩, by simp⟩
    · exact ⟨⟨rfl, rfl⟩, by simp⟩
  | talking =>
    simp only [Machine.tick]
    split_ifs
    · exact ⟨⟨rfl, rfl⟩, by simp⟩
    · exact ⟨⟨rfl, rfl⟩, by simp⟩
  | ringing => cases incomming
  | answered => cases incomming

theorem Machine.gsmHook_quiet (quiet : machine.Quiet) (txdialbuf : List UInt8) (txsig : TxSig) :
    (machine.gsmHook txdialbuf txsig).1.Quiet := by
  obtain ⟨pending, incomming⟩ := quiet
  obtain ⟨phase, _⟩ := machine
  obtain rfl := pending
  have noAnswer : (Machine.answer ⟨phase, false⟩).1.Quiet := by
    cases phase with
    | ringing => cases incomming
    | _ => exact ⟨rfl, incomming⟩
  cases txsig with
  | start =>
    simp only [Machine.gsmHook]
    split_ifs
    · exact ⟨rfl, rfl⟩
    · exact ⟨rfl, incomming⟩
    · exact noAnswer
  | offhook => exact noAnswer
  | onhook =>
    simp only [Machine.gsmHook]
    split_ifs
    · exact ⟨rfl, rfl⟩
    · exact ⟨rfl, incomming⟩
  | kewl => exact ⟨rfl, incomming⟩

theorem Machine.fxsHook_quiet (quiet : machine.Quiet) (txsig : TxSig) :
    (machine.fxsHook txsig).1.Quiet := by
  obtain ⟨pending, incomming⟩ := quiet
  cases txsig with
  | onhook =>
    simp only [Machine.fxsHook]
    split_ifs
    · exact ⟨pending, rfl⟩
    · exact ⟨pending, incomming⟩
  | _ => exact ⟨pending, incomming⟩

/-- Without a RING the machine stays quiet, and ONHOOK is all it signals. -/
theorem Transition.quiet (transition : Transition cage machine events next) (quiet : machine.Quiet)
    (noRing : ∀ event ∈ events, event ≠ .received cage.gsm codeRing) :
    next.Quiet ∧ ∀ event ∈ events, ∀ sig, event = .signalled cage.gsm sig → sig = .onhook := by
  cases transition with
  | none => exact ⟨quiet, by simp⟩
  | tick line =>
    have other : line ≠ codeRing := fun same => noRing _ List.mem_cons_self (same ▸ rfl)
    obtain ⟨kept, signals⟩ := machine.tick_quiet quiet other
    refine ⟨kept, fun event member sig same => ?_⟩
    subst same
    exact signals sig (by simpa using member)
  | gsmHook txdialbuf txsig =>
    refine ⟨machine.gsmHook_quiet quiet txdialbuf txsig, fun event member sig same => ?_⟩
    subst same
    simp at member
  | fxsHook card txsig =>
    refine ⟨machine.fxsHook_quiet quiet txsig, fun event member sig same => ?_⟩
    subst same
    simp at member

/-- **Without a RING nothing incoming is signalled**: the run lemma. -/
theorem runStimuli_quiet {stimuli : List Stimulus} (tracks : Tracks machine world)
    (quiet : machine.Quiet) (ran : runStimuli params cage env stimuli world = some after)
    (noRing : .received cage.gsm codeRing ∉ since world after) :
    after.cell .incommingCallState = 0 ∧
      ∀ sig, .signalled cage.gsm sig ∈ since world after → sig = .onhook := by
  obtain ⟨final, finalTracks, finalQuiet, signals⟩ := runStimuli_rule Transition.quiet tracks quiet
    ran fun event member _ same => noRing (same ▸ member)
  refine ⟨finalTracks.incomming.trans finalQuiet.incomming, fun sig member => ?_⟩
  exact signals _ member (decide_eq_true rfl) sig rfl

/-- With no RING and no command, an idle machine stays idle. -/
theorem Transition.idle (transition : Transition cage machine events next)
    (idle : machine = ⟨.idle, false⟩)
    (nothing : ∀ event ∈ events, event ≠ .received cage.gsm codeRing ∧
      ∀ card info, event ≠ .sent card info) :
    next = ⟨.idle, false⟩ ∧ ∀ event ∈ events, True := by
  subst idle
  refine ⟨?_, fun _ _ => trivial⟩
  cases transition with
  | none => rfl
  | tick line =>
    have other : line ≠ codeRing := fun same => (nothing _ List.mem_cons_self).1 (same ▸ rfl)
    simp [Machine.tick, other]
  | gsmHook txdialbuf txsig =>
    cases txsig with
    | start =>
      by_cases dial : txdialbuf = []
      · simp [Machine.gsmHook, Machine.answer, dial]
      · have sent := (nothing (.sent cage.gsm (gsmCallString txdialbuf))
          (by simp [Machine.gsmHook, dial])).2 cage.gsm (gsmCallString txdialbuf)
        exact absurd rfl sent
    | _ => rfl
  | fxsHook card txsig => cases txsig <;> rfl

/-! ### NO CARRIER -/

/-- What a NO CARRIER is for: no call and no ring is left, a dial string is accepted until something
else happens, and nothing more is signalled about a ring until another one. -/
structure ReturnsToIdle (params : Params) (cage : Cage) (env : Env σ) (world : World σ) : Prop where
  fresh : Fresh world
  accepts : ∀ stimuli later, runStimuli params cage env stimuli world = some later →
    .received cage.gsm codeRing ∉ since world later →
    (∀ card info, .sent card info ∉ since world later) →
    ∀ sig txdialbuf, txdialbuf ≠ [] → ∃ placed,
      (Stimulus.hooksig cage.gsm .start sig txdialbuf).run params cage env later = some placed ∧
      placed.cell .outgoingCallState = 1 ∧
      .sent cage.gsm (gsmCallString txdialbuf) ∈ since later placed
  quiet : ∀ stimuli later, runStimuli params cage env stimuli world = some later →
    .received cage.gsm codeRing ∉ since world later →
    ∀ sig, .signalled cage.gsm sig ∈ since world later → sig = .onhook

/-- From an idle machine everything a NO CARRIER promises follows. -/
theorem Fresh.returnsToIdle (fresh : Fresh world) : ReturnsToIdle params cage env world := by
  refine ⟨fresh, ?_, ?_⟩
  · intro stimuli later ran noRing noCommand sig txdialbuf dial
    obtain ⟨final, tracks, idle, -⟩ := runStimuli_rule Transition.idle fresh.tracks rfl ran
      fun event member _ => ⟨fun same => noRing (same ▸ member),
        fun card info same => noCommand card info (same ▸ member)⟩
    subst idle
    obtain ⟨placed, stepped, moves⟩ := gsmHook_run tracks .start sig txdialbuf
    simp only [Machine.gsmHook, ne_eq, dial, not_false_eq_true, if_true] at moves
    exact ⟨placed, stepped, moves.tracks.outgoing, moves.sent_iff.mpr (by simp)⟩
  · intro stimuli later ran noRing
    exact (runStimuli_quiet fresh.tracks ⟨rfl, rfl⟩ ran noRing).2

theorem Tracks.fresh_iff (tracks : Tracks machine world) : Fresh world ↔ machine = ⟨.idle, false⟩ := by
  constructor
  · rintro ⟨outgoing, incomming, count⟩
    rw [tracks.outgoing] at outgoing
    rw [tracks.incomming] at incomming
    rw [tracks.count, machine.count_eq_zero] at count
    obtain ⟨phase, pending⟩ := machine
    rw [(Machine.idle_iff ⟨phase, pending⟩).mpr ⟨outgoing, incomming⟩ |>.symm]
    exact count ▸ rfl
  · rintro rfl
    exact ⟨tracks.outgoing, tracks.incomming, tracks.count⟩

theorem Machine.tick_noCarrier (machine : Machine) :
    (machine.tick codeNoCarrier).1 = ⟨.idle, false⟩ ↔
      machine.pending = false ∨ machine.phase = .ringing := by
  obtain ⟨phase, pending⟩ := machine
  cases phase <;> cases pending <;> decide

/-- **A NO CARRIER** returns the machine to idle unless an OFFHOOK is due and the phone is not
ringing. -/
theorem no_carrier_returns_to_idle_iff (reached : Reached params cage env world)
    (polls : Polls world cage.gsm)
    (noCarrier : (env.gsmReceive cage.gsm world.hw).1 = codeNoCarrier) :
    ∃ after, Stimulus.interrupt.run params cage env world = some after ∧
      (ReturnsToIdle params cage env after ↔
        world.cell .interruptCount = 0 ∨ world.cell .incommingCallState = 1) := by
  obtain ⟨machine, tracks⟩ := reached.tracks
  obtain ⟨after, stepped, moves⟩ := tick_run tracks polls
  refine ⟨after, stepped, ?_⟩
  rw [noCarrier] at moves
  rw [tracks.count, tracks.incomming, machine.count_eq_zero, machine.incomming_eq_one,
    ← machine.tick_noCarrier, ← moves.tracks.fresh_iff]
  exact ⟨ReturnsToIdle.fresh, Fresh.returnsToIdle⟩

/-- A NO CARRIER while the phone rings. -/
theorem no_carrier_ringing : ∃ world after,
    runStimuli Params.default soloCage script (gsmRound ++ gsmRound)
      (idleDriver [codeRing, codeNothing, codeNoCarrier]) = some world ∧
    Stimulus.interrupt.run Params.default soloCage script world = some after ∧
    world.cell .incommingCallState = 1 ∧ ReturnsToIdle Params.default soloCage script after := by
  obtain ⟨world, ran, ringing, turn, up, installed, noCarrier⟩ : ∃ world,
      runStimuli Params.default soloCage script (gsmRound ++ gsmRound)
        (idleDriver [codeRing, codeNothing, codeNoCarrier]) = some world ∧
      world.cell .incommingCallState = 1 ∧ nextTurn world = firstSlot ∧ world.cell .initOk ≠ 0 ∧
      world.cell (.cardflag firstSlot) ≠ 0 ∧ world.hw.headD codeNothing = codeNoCarrier :=
    computed (by decide)
  obtain ⟨after, stepped, returns⟩ := no_carrier_returns_to_idle_iff
    ⟨_, _, idleDriver_fresh _, ran⟩ ⟨turn, up, installed⟩ noCarrier
  exact ⟨world, after, ran, stepped, ringing, returns.mpr (.inr ringing)⟩

/-- A NO CARRIER on the tick after a RING: the OFFHOOK is reported all the same, and the phone is
taken for ringing. -/
theorem no_carrier_after_ring : ∃ world after,
    Reached Params.default soloCage script world ∧ Polls world firstSlot ∧
    (script.gsmReceive firstSlot world.hw).1 = codeNoCarrier ∧
    Stimulus.interrupt.run Params.default soloCage script world = some after ∧
    after.cell .incommingCallState = 1 ∧ .signalled firstSlot .offhook ∈ since world after ∧
    ¬ ReturnsToIdle Params.default soloCage script after := by
  obtain ⟨world, ran, turn, up, installed, noCarrier, rings⟩ : ∃ world,
      runStimuli Params.default soloCage script gsmRound (idleDriver [codeRing, codeNoCarrier]) =
        some world ∧
      nextTurn world = firstSlot ∧ world.cell .initOk ≠ 0 ∧ world.cell (.cardflag firstSlot) ≠ 0 ∧
      world.hw.headD codeNothing = codeNoCarrier ∧
      (Stimulus.interrupt.run Params.default soloCage script world).map (fun after => decide
        (after.cell .incommingCallState = 1 ∧ .signalled firstSlot .offhook ∈ since world after)) =
          some true := computed (by decide)
  obtain ⟨after, stepped, ringing, offhook⟩ := computed rings
  refine ⟨world, after, ⟨_, _, idleDriver_fresh _, ran⟩, ⟨turn, up, installed⟩, noCarrier, stepped,
    ringing, offhook, fun returns => ?_⟩
  rw [returns.fresh.incomming] at ringing
  contradiction

/-! ### Outgoing calls -/

/-- A run of an outgoing call: the call is up before every stimulus. -/
inductive Calling (params : Params) (cage : Cage) (env : Env σ) : World σ → World σ → Prop
  | refl (world : World σ) : Calling params cage env world world
  | step {world middle after : World σ} {stimulus : Stimulus}
      (up : world.cell .outgoingCallState ≠ 0)
      (stepped : stimulus.run params cage env world = some middle)
      (rest : Calling params cage env middle after) : Calling params cage env world after

/-- During an outgoing call nothing incoming happens, and an OFFHOOK that is due stays due. -/
theorem Transition.calling (transition : Transition cage machine events next)
    (up : machine.outgoing ≠ 0) : next.pending = machine.pending ∧ next.incomming = 0 := by
  have phase : machine.phase = .dialling ∨ machine.phase = .talking := by
    by_contra neither
    exact up (machine.outgoing_eq_zero.mpr (not_or.mp neither))
  cases transition with
  | none => rcases phase with phase | phase <;> simp [Machine.incomming, phase]
  | tick line =>
    rcases phase with phase | phase <;> simp only [Machine.tick, phase] <;> split_ifs <;>
      simp [Machine.incomming, phase]
  | gsmHook txdialbuf txsig =>
    cases txsig with
    | start =>
      by_cases dial : txdialbuf = [] <;> rcases phase with phase | phase <;>
        simp [Machine.gsmHook, Machine.answer, Machine.incomming, dial, phase]
    | _ =>
      rcases phase with phase | phase <;>
        simp [Machine.gsmHook, Machine.answer, Machine.incomming, phase]
  | fxsHook card txsig =>
    rcases phase with phase | phase <;> cases txsig <;>
      simp [Machine.fxsHook, Machine.incomming, phase]

/-- The run lemma for an outgoing call. -/
theorem Calling.tracks (calling : Calling params cage env world after)
    (tracks : Tracks machine world) (incomming : machine.incomming = 0) :
    ∃ final, Tracks final after ∧ final.pending = machine.pending ∧ final.incomming = 0 := by
  induction calling generalizing machine with
  | refl world => exact ⟨machine, tracks, rfl, incomming⟩
  | step up stepped rest ih =>
    obtain ⟨next, events, transition, moves⟩ := Stimulus.run_machine tracks stepped
    obtain ⟨pending, incomming⟩ := transition.calling (tracks.outgoing ▸ up)
    obtain ⟨final, finalTracks, finalPending, finalIncomming⟩ := ih moves.tracks incomming
    exact ⟨final, finalTracks, finalPending.trans pending, finalIncomming⟩

/-- A START that places a call keeps an OFFHOOK that is due. -/
theorem started_tracks (tracks : Tracks machine world) {sig : Signalling} {txdialbuf : List UInt8}
    (started : (Stimulus.hooksig cage.gsm .start sig txdialbuf).run params cage env world =
      some after)
    (idle : world.cell .outgoingCallState = 0) (up : after.cell .outgoingCallState = 1) :
    ∃ next, Tracks next after ∧ next.pending = machine.pending ∧ next.incomming = 0 := by
  obtain ⟨final, also, moves⟩ := gsmHook_run tracks .start sig txdialbuf
  obtain rfl := Option.some.inj (also.symm.trans started)
  refine ⟨_, moves.tracks, ?_⟩
  rw [tracks.outgoing] at idle
  rw [moves.tracks.outgoing] at up
  simp only [Machine.gsmHook, Machine.answer] at up ⊢
  split_ifs at up ⊢
  · exact ⟨rfl, rfl⟩
  · rw [idle] at up
    contradiction
  · cases up
  · rw [idle] at up
    contradiction

/-- An OFFHOOK that is due is reported on the next tick without a RING. -/
theorem Machine.tick_due (machine : Machine) {line : List UInt8} (idle : machine.phase = .idle)
    (due : machine.pending = true) (noRing : line ≠ codeRing) :
    machine.tick line = (⟨.ringing, false⟩, some .offhook) := by
  simp [Machine.tick, idle, due, noRing]

/-- Until another RING no incoming call is kept or reported. -/
def LeavesNothing (params : Params) (cage : Cage) (env : Env σ) (world : World σ) : Prop :=
  ∀ stimuli later, runStimuli params cage env stimuli world = some later →
    .received cage.gsm codeRing ∉ since world later →
    later.cell .incommingCallState = 0 ∧
      ∀ sig, .signalled cage.gsm sig ∈ since world later → sig = .onhook

/-- **An outgoing call** leaves nothing behind if no OFFHOOK was due when it was placed. If one was,
the first tick after the call reports it and takes the phone for ringing. -/
theorem outgoing_call_leaves (reached : Reached params cage env world) {sig : Signalling}
    {txdialbuf : List UInt8} {placed ended : World σ}
    (idle : world.cell .outgoingCallState = 0)
    (started : (Stimulus.hooksig cage.gsm .start sig txdialbuf).run params cage env world =
      some placed)
    (up : placed.cell .outgoingCallState = 1)
    (calling : Calling params cage env placed ended)
    (ended' : ended.cell .outgoingCallState = 0) :
    (world.cell .interruptCount = 0 → LeavesNothing params cage env ended) ∧
      (world.cell .interruptCount ≠ 0 → Polls ended cage.gsm →
        (env.gsmReceive cage.gsm ended.hw).1 ≠ codeRing →
        ∃ after, Stimulus.interrupt.run params cage env ended = some after ∧
          after.cell .incommingCallState = 1 ∧
          .signalled cage.gsm .offhook ∈ since ended after) := by
  obtain ⟨machine, tracks⟩ := reached.tracks
  obtain ⟨placedMachine, placedTracks, pending, incomming⟩ := started_tracks tracks started idle up
  obtain ⟨final, finalTracks, finalPending, finalIncomming⟩ := calling.tracks placedTracks incomming
  have finalIdle : final.phase = .idle :=
    final.idle_iff.mpr ⟨finalTracks.outgoing ▸ ended', finalIncomming⟩
  rw [tracks.count, ne_eq, machine.count_eq_zero, ← pending, ← finalPending]
  constructor
  · intro quiet stimuli later ran noRing
    exact runStimuli_quiet finalTracks ⟨quiet, finalIncomming⟩ ran noRing
  · intro due polls noRing
    obtain ⟨after, stepped, moves⟩ := tick_run finalTracks polls
    rw [final.tick_due finalIdle (by simpa using due) noRing] at moves
    exact ⟨after, stepped, moves.tracks.incomming, moves.signalled_iff.mpr (by simp)⟩

/-- A call that ends with BUSY. -/
theorem outgoing_call_leaves_busy : ∃ placed ended,
    dialOne.run Params.default soloCage script (idleDriver [codeBusy]) = some placed ∧
    Stimulus.interrupt.run Params.default soloCage script placed = some ended ∧
    placed.cell .outgoingCallState = 1 ∧ ended.cell .outgoingCallState = 0 ∧
    LeavesNothing Params.default soloCage script ended := by
  obtain ⟨placed, started, up, rest⟩ : ∃ placed,
      dialOne.run Params.default soloCage script (idleDriver [codeBusy]) = some placed ∧
      placed.cell .outgoingCallState = 1 ∧
      (Stimulus.interrupt.run Params.default soloCage script placed).map (fun ended => decide
        (ended.cell .outgoingCallState = 0)) = some true := computed (by decide)
  obtain ⟨ended, stepped, down⟩ := computed rest
  have calling : Calling Params.default soloCage script placed ended :=
    .step (by rw [up]; decide) stepped (.refl ended)
  have leaves := outgoing_call_leaves ⟨_, [], idleDriver_fresh [codeBusy], rfl⟩ rfl started up calling down
  exact ⟨placed, ended, started, stepped, up, down, leaves.1 rfl⟩

/-- A RING, a number dialled before the next tick, BUSY: the tick after reports an OFFHOOK. -/
theorem phantom_call : ∃ world placed ended later,
    Reached Params.default soloCage script world ∧ world.cell .outgoingCallState = 0 ∧
    dialOne.run Params.default soloCage script world = some placed ∧
    placed.cell .outgoingCallState = 1 ∧
    Stimulus.interrupt.run Params.default soloCage script placed = some ended ∧
    ended.cell .outgoingCallState = 0 ∧
    runStimuli Params.default soloCage script gsmRound ended = some later ∧
    .received firstSlot codeRing ∉ since ended later ∧ .signalled firstSlot .offhook ∈ since ended later ∧
    later.cell .incommingCallState = 1 ∧
    ¬ LeavesNothing Params.default soloCage script ended := by
  obtain ⟨world, ran, idle, places⟩ : ∃ world,
      runStimuli Params.default soloCage script gsmRound (idleDriver [codeRing, codeBusy]) =
        some world ∧
      world.cell .outgoingCallState = 0 ∧
      (dialOne.run Params.default soloCage script world).map (fun placed => decide
        (placed.cell .outgoingCallState = 1 ∧
          (Stimulus.interrupt.run Params.default soloCage script placed).map (fun ended => decide
            (ended.cell .outgoingCallState = 0 ∧
              (runStimuli Params.default soloCage script gsmRound ended).map (fun later => decide
                (.received firstSlot codeRing ∉ since ended later ∧
                  .signalled firstSlot .offhook ∈ since ended later ∧
                  later.cell .incommingCallState = 1)) = some true)) = some true)) = some true :=
    computed (by decide)
  obtain ⟨placed, started, up, ends⟩ := computed places
  obtain ⟨ended, stepped, down, goesOn⟩ := computed ends
  obtain ⟨later, ran', noRing, offhook, ringing⟩ := computed goesOn
  refine ⟨world, placed, ended, later, ⟨_, _, idleDriver_fresh _, ran⟩, idle, started, up, stepped,
    down, ran', noRing, offhook, ringing, fun nothing => ?_⟩
  rw [(nothing gsmRound later ran' noRing).1] at ringing
  contradiction

end Laws

end Baps.Gsm
