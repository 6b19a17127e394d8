/-
**The call machine of the GSM driver.**

The three call variables only ever hold ten combinations: one of five phases of a call, and whether
the second tick of a RING is still to come. `Machine` is this view of them, with a transition for a
tick, for a hook signal on the GSM channel and for an ONHOOK on an FXS channel.

* `Stimulus.run_machine` — **the driver follows the machine**: every stimulus makes one transition of
  the machine, or none, with the signals and commands the machine says.
* `Reached.tracks` — so every reachable state of the driver is a state of the machine.
-/

import Baps.Gsm.Control

namespace Baps.Gsm

open Interaction Wcfxs Memory

/-! ### The machine -/

/-- The phases of a call. -/
inductive Phase
  | idle
  | dialling
  | talking
  | ringing
  | answered
  deriving DecidableEq, Repr

/-- A phase, and whether an OFFHOOK is due for the last RING. -/
structure Machine where
  phase : Phase
  pending : Bool
  deriving DecidableEq, Repr

namespace Machine

/-- `outgoing_call_state`. -/
def outgoing (machine : Machine) : Int :=
  match machine.phase with
  | .dialling => 1
  | .talking => 2
  | _ => 0

/-- `incomming_call_state`. -/
def incomming (machine : Machine) : Int :=
  match machine.phase with
  | .ringing => 1
  | .answered => 2
  | _ => 0

/-- `interrupt_count` between ticks. -/
def count (machine : Machine) : Int := if machine.pending then 1 else 0

/-- A tick that receives a line: the machine after it, and the signal to zaptel. -/
def tick (line : List UInt8) (machine : Machine) : Machine × Option RxSig :=
  match machine.phase with
  | .dialling =>
      if line = codeNothing then (machine, none)
      else if line = codeOk then ({ machine with phase := .talking }, none)
      else ({ machine with phase := .idle }, some .onhook)
  | .talking =>
      if line = codeNoCarrier ∨ line = codeBusy ∨ line = codeNoAnswer then
        ({ machine with phase := .idle }, some .onhook)
      else (machine, none)
  | .idle =>
      if line = codeRing then ({ machine with pending := true }, some .ring)
      else if machine.pending then (⟨.ringing, false⟩, some .offhook)
      else (machine, none)
  | .ringing =>
      if line = codeNoCarrier then (⟨.idle, false⟩, some .onhook)
      else if line = codeRing then ({ machine with pending := true }, some .ring)
      else if machine.pending then ({ machine with pending := false }, some .offhook)
      else (machine, none)
  | .answered =>
      if line = codeNoCarrier then ({ machine with phase := .idle }, some .onhook)
      else (machine, none)

/-- Answer a ringing call. -/
def answer (machine : Machine) : Machine × Option (List UInt8) :=
  if machine.phase = .ringing then ({ machine with phase := .answered }, some commandAnswer)
  else (machine, none)

/-- A hook signal on the GSM channel: the machine after it, and the command to the modem. -/
def gsmHook (txdialbuf : List UInt8) (machine : Machine) : TxSig → Machine × Option (List UInt8)
  | .start =>
      if txdialbuf ≠ [] then
        if machine.phase = .idle then
          ({ machine with phase := .dialling }, some (gsmCallString txdialbuf))
        else (machine, none)
      else machine.answer
  | .offhook => machine.answer
  | .onhook =>
      if machine.phase = .talking then ({ machine with phase := .idle }, some commandHangup)
      else (machine, none)
  | .kewl => (machine, none)

/-- A hook signal on an FXS channel. -/
def fxsHook (machine : Machine) : TxSig → Machine × Option (List UInt8)
  | .onhook =>
      if machine.phase = .answered then ({ machine with phase := .idle }, some commandHangup)
      else (machine, none)
  | _ => (machine, none)

section Variables

variable (machine : Machine)

theorem outgoing_eq_zero :
    machine.outgoing = 0 ↔ machine.phase ≠ .dialling ∧ machine.phase ≠ .talking := by
  unfold outgoing
  cases machine.phase <;> simp

theorem incomming_eq_one : machine.incomming = 1 ↔ machine.phase = .ringing := by
  unfold incomming
  cases machine.phase <;> simp

theorem incomming_eq_two : machine.incomming = 2 ↔ machine.phase = .answered := by
  unfold incomming
  cases machine.phase <;> simp

theorem count_eq_zero : machine.count = 0 ↔ machine.pending = false := by
  unfold count
  cases machine.pending <;> simp

theorem idle_iff : machine.phase = .idle ↔ machine.outgoing = 0 ∧ machine.incomming = 0 := by
  unfold outgoing incomming
  cases machine.phase <;> simp

end Variables

end Machine

/-- The call variables are those of the machine. -/
structure Tracks (machine : Machine) {σ : Type} (world : World σ) : Prop where
  outgoing : world.cell .outgoingCallState = machine.outgoing
  incomming : world.cell .incommingCallState = machine.incomming
  count : world.cell .interruptCount = machine.count

/-! ### The interrupt follows the machine -/

/-- The exchanges of a tick. -/
def tickEvents (card : Card) (machine : Machine) (line : List UInt8) : List Event :=
  .received card line :: (if machine.phase = .ringing then [.txstate card 1] else []) ++
    (machine.tick line).2.toList.map (.signalled card)

/-- The exchanges the call machine is about: modem traffic, and signals on the GSM channel. -/
def concerns (gsm : Card) : Event → Bool
  | .sent _ _ => true
  | .received _ _ => true
  | .signalled card _ => card = gsm
  | _ => false

theorem concerns_signalled (gsm : Card) (signal : Option RxSig) :
    (signal.toList.map (Event.signalled gsm)).filter (concerns gsm) =
      signal.toList.map (Event.signalled gsm) := by
  cases signal <;> simp [concerns]

/-- The exchanges of a tick that the machine is about. -/
theorem tickEvents_concerns (card : Card) (machine : Machine) (line : List UInt8) :
    (tickEvents card machine line).filter (concerns card) =
      .received card line :: (machine.tick line).2.toList.map (.signalled card) := by
  rw [tickEvents, List.filter_append, concerns_signalled]
  split <;> rfl

section Tick

variable {σ : Type} {env : Env σ} {machine : Machine} {world : World σ} (card : Card)

/-- What a tick does: one transition of the machine and its exchanges, and nothing else. -/
structure Ticks (env : Env σ) (machine : Machine) (card : Card) (world after : World σ) : Prop where
  tracks : Tracks (machine.tick (env.gsmReceive card world.hw).1).1 after
  log : after.log = world.log ++ tickEvents card machine (env.gsmReceive card world.hw).1
  hw : after.hw = (env.gsmReceive card world.hw).2

variable {card}

/-- A tick, by the transition it makes. -/
theorem Ticks.of_tick {after : World σ} {next : Machine} {signal : Option RxSig}
    (tick : machine.tick (env.gsmReceive card world.hw).1 = (next, signal))
    (tracks : Tracks next after)
    (log : after.log = world.log ++ (.received card (env.gsmReceive card world.hw).1 ::
      (if machine.phase = .ringing then [.txstate card 1] else []) ++
        signal.toList.map (.signalled card)))
    (hw : after.hw = (env.gsmReceive card world.hw).2) : Ticks env machine card world after where
  tracks := by
    rw [tick]
    exact tracks
  log := by
    rw [log, tickEvents, tick]
  hw := hw

variable (card)

theorem gsmDialling_ends (phase : machine.phase = .dialling) (tracks : Tracks machine world) :
    Program.Ends (handler env) (gsmDialling card) world fun _ after =>
      Ticks env machine card world after := by
  obtain ⟨outgoing, incomming, count⟩ := tracks
  obtain ⟨_, pending⟩ := machine
  obtain rfl := phase
  simp only [gsmDialling, endOutgoing, Program.ends_bind, ends_gsmReceive, Program.ends_ite,
    Program.ends_pure, ends_set, ends_ztHooksig]
  split_ifs with nothing ok
  · exact .of_tick (if_pos nothing) ⟨outgoing, incomming, count⟩ rfl rfl
  · exact .of_tick ((if_neg nothing).trans (if_pos ok)) ⟨rfl, incomming, count⟩ rfl rfl
  · refine .of_tick ((if_neg nothing).trans (if_neg ok)) ⟨rfl, incomming, count⟩ ?_ rfl
    exact List.append_assoc _ _ _

theorem gsmTalking_ends (phase : machine.phase = .talking) (tracks : Tracks machine world) :
    Program.Ends (handler env) (gsmTalking card) world fun _ after =>
      Ticks env machine card world after := by
  obtain ⟨outgoing, incomming, count⟩ := tracks
  obtain ⟨_, pending⟩ := machine
  obtain rfl := phase
  have ended {line : List UInt8}
      (last : line = codeNoCarrier ∨ line = codeBusy ∨ line = codeNoAnswer) :
      Machine.tick line ⟨.talking, pending⟩ = (⟨.idle, pending⟩, some .onhook) := if_pos last
  have goesOn {line : List UInt8}
      (others : ¬ (line = codeNoCarrier ∨ line = codeBusy ∨ line = codeNoAnswer)) :
      Machine.tick line ⟨.talking, pending⟩ = (⟨.talking, pending⟩, none) := if_neg others
  simp only [gsmTalking, endOutgoing, Program.ends_bind, ends_gsmReceive, Program.ends_ite,
    Program.ends_pure, ends_set, ends_ztHooksig]
  split_ifs with nothing noCarrier busy noAnswer
  · refine .of_tick (goesOn ?_) ⟨outgoing, incomming, count⟩ rfl rfl
    rw [nothing]
    decide
  · exact .of_tick (ended (.inl noCarrier)) ⟨rfl, incomming, count⟩ (List.append_assoc _ _ _) rfl
  · exact .of_tick (ended (.inr (.inl busy))) ⟨rfl, incomming, count⟩ (List.append_assoc _ _ _) rfl
  · exact .of_tick (ended (.inr (.inr noAnswer))) ⟨rfl, incomming, count⟩
      (List.append_assoc _ _ _) rfl
  · refine .of_tick (goesOn ?_) ⟨outgoing, incomming, count⟩ rfl rfl
    simp only [noCarrier, busy, noAnswer, or_self, not_false_eq_true]

/-- The stretched RING: a RING begins, the OFFHOOK of the last one is due, or neither. -/
theorem ends_ringStretch {then_ : Prog Unit} {Q : Unit → World σ → Prop} {line : List UInt8}
    (pending : Bool) (count : world.cell .interruptCount = if pending then 1 else 0) :
    Program.Ends (handler env) (ringStretch card line then_) world Q ↔
      if line = codeRing then
        Q () { world with
          cell := Function.update (Function.update world.cell .interruptCount 2) .interruptCount 1
          log := world.log ++ [.signalled card .ring] }
      else if pending then
        Program.Ends (handler env) then_ { world with
          cell := Function.update world.cell .interruptCount 0
          log := world.log ++ [.signalled card .offhook] } Q
      else Q () world := by
  simp only [ringStretch, Program.ends_bind, Program.ends_when, Program.ends_ite, ends_get,
    ends_set, ends_ztHooksig]
  by_cases ring : line = codeRing
  · simp only [if_pos ring, Function.update_self, if_true]
  · simp only [if_neg ring, count]
    cases pending <;> simp

theorem gsmWaiting_ends (phase : machine.phase = .idle) (tracks : Tracks machine world) :
    Program.Ends (handler env) (gsmWaiting card) world fun _ after =>
      Ticks env machine card world after := by
  obtain ⟨outgoing, incomming, count⟩ := tracks
  obtain ⟨_, pending⟩ := machine
  obtain rfl := phase
  simp only [gsmWaiting, Program.ends_bind, ends_gsmReceive]
  refine (ends_ringStretch card pending ?_).mpr ?_
  · exact count
  simp only [ends_set]
  split_ifs with ring due
  · exact .of_tick (if_pos ring) ⟨outgoing, incomming, rfl⟩ (List.append_assoc _ _ _) rfl
  · exact .of_tick ((if_neg ring).trans (if_pos due)) ⟨outgoing, rfl, rfl⟩
      (List.append_assoc _ _ _) rfl
  · exact .of_tick ((if_neg ring).trans (if_neg due)) ⟨outgoing, incomming, count⟩ rfl rfl

theorem gsmRinging_ends (phase : machine.phase = .ringing) (tracks : Tracks machine world) :
    Program.Ends (handler env) (gsmRinging card) world fun _ after =>
      Ticks env machine card world after := by
  obtain ⟨outgoing, incomming, count⟩ := tracks
  obtain ⟨_, pending⟩ := machine
  obtain rfl := phase
  have joined (log : List Event) (first second : Event) (rest : List Event) :
      log ++ [first] ++ [second] ++ rest = log ++ (first :: [second] ++ rest) := by
    simp only [List.append_assoc, List.cons_append, List.nil_append]
  simp only [gsmRinging, Program.ends_bind, ends_gsmReceive, ends_setTxstate, Program.ends_ite,
    ends_set, ends_ztHooksig]
  split_ifs with noCarrier
  · exact .of_tick (if_pos noCarrier) ⟨outgoing, rfl, rfl⟩ (joined _ _ _ _) rfl
  refine (ends_ringStretch card pending ?_).mpr ?_
  · exact count
  simp only [Program.ends_pure]
  split_ifs with ring due
  · exact .of_tick ((if_neg noCarrier).trans (if_pos ring)) ⟨outgoing, incomming, rfl⟩
      (joined _ _ _ _) rfl
  · exact .of_tick ((if_neg noCarrier).trans ((if_neg ring).trans (if_pos due)))
      ⟨outgoing, incomming, rfl⟩ (joined _ _ _ _) rfl
  · exact .of_tick ((if_neg noCarrier).trans ((if_neg ring).trans (if_neg due)))
      ⟨outgoing, incomming, count⟩ (List.append_assoc _ _ _) rfl

theorem gsmAnswered_ends (phase : machine.phase = .answered) (tracks : Tracks machine world) :
    Program.Ends (handler env) (gsmAnswered card) world fun _ after =>
      Ticks env machine card world after := by
  obtain ⟨outgoing, incomming, count⟩ := tracks
  obtain ⟨_, pending⟩ := machine
  obtain rfl := phase
  simp only [gsmAnswered, Program.ends_bind, ends_gsmReceive, Program.ends_ite, Program.ends_when,
    Program.ends_pure, ends_set, ends_ztHooksig]
  split_ifs with nothing noCarrier
  · refine .of_tick (if_neg ?_) ⟨outgoing, incomming, count⟩ rfl rfl
    rw [nothing]
    decide
  · exact .of_tick (if_pos noCarrier) ⟨outgoing, rfl, count⟩ (List.append_assoc _ _ _) rfl
  · exact .of_tick (if_neg noCarrier) ⟨outgoing, incomming, count⟩ rfl rfl

/-- **A tick is a transition of the machine.** -/
theorem gsmControl_ends (tracks : Tracks machine world) :
    Program.Ends (handler env) (wcfxsGsmControl card) world fun _ after =>
      Ticks env machine card world after := by
  have outgoing := tracks.outgoing
  have incomming := tracks.incomming
  simp only [wcfxsGsmControl, Program.ends_bind, ends_get, Program.ends_ite, Program.ends_when,
    outgoing, incomming]
  cases phase : machine.phase <;>
    simp only [Machine.outgoing, Machine.incomming, phase, Int.reduceEq, if_true, if_false]
  · exact gsmWaiting_ends card phase tracks
  · exact gsmDialling_ends card phase tracks
  · exact gsmTalking_ends card phase tracks
  · exact gsmRinging_ends card phase tracks
  · exact gsmAnswered_ends card phase tracks

end Tick

/-! ### What else the driver does -/

section Moves

variable {σ : Type} {env : Env σ} {gsm : Card} {machine : Machine} {events : List Event}
  {first world after : World σ}

/-- The machine moves to a state, with the given modem traffic and signals. -/
structure Moves (gsm : Card) (machine : Machine) (events : List Event) (world after : World σ) :
    Prop where
  tracks : Tracks machine after
  log : ∃ log, after.log = world.log ++ log ∧ log.filter (concerns gsm) = events

/-- A move that sends one command. -/
theorem Moves.sent {card : Card} {info : List UInt8} (tracks : Tracks machine after)
    (log : after.log = world.log ++ [.sent card info]) :
    Moves gsm machine [.sent card info] world after :=
  ⟨tracks, [.sent card info], log, rfl⟩

/-- A move without exchanges. -/
theorem Moves.silent (tracks : Tracks machine after) (log : after.log = world.log) :
    Moves gsm machine [] world after :=
  ⟨tracks, [], log.trans (List.append_nil _).symm, rfl⟩

/-- The exchanges of a move. -/
theorem Moves.mem_since (moves : Moves gsm machine events world after) {event : Event} :
    event ∈ events ↔ event ∈ since world after ∧ concerns gsm event := by
  obtain ⟨log, logEq, rfl⟩ := moves.log
  rw [since_eq logEq, List.mem_filter]

theorem Moves.sent_iff (moves : Moves gsm machine events world after) {card : Card}
    {info : List UInt8} : .sent card info ∈ since world after ↔ .sent card info ∈ events := by
  rw [moves.mem_since]
  exact (and_iff_left rfl).symm

theorem Moves.signalled_iff (moves : Moves gsm machine events world after) {sig : RxSig} :
    .signalled gsm sig ∈ since world after ↔ .signalled gsm sig ∈ events := by
  rw [moves.mem_since]
  exact (and_iff_left (decide_eq_true rfl)).symm

/-- The machine does not move. -/
structure Aside (gsm : Card) (world after : World σ) : Prop where
  outgoing : after.cell .outgoingCallState = world.cell .outgoingCallState
  incomming : after.cell .incommingCallState = world.cell .incommingCallState
  count : after.cell .interruptCount = world.cell .interruptCount
  log : ∃ log, after.log = world.log ++ log ∧ log.filter (concerns gsm) = []

theorem Aside.refl (gsm : Card) (world : World σ) : Aside gsm world world :=
  ⟨rfl, rfl, rfl, [], by simp, rfl⟩

theorem Aside.trans (start : Aside gsm first world) (finish : Aside gsm world after) :
    Aside gsm first after := by
  obtain ⟨log, logEq, none⟩ := start.log
  obtain ⟨more, moreEq, noMore⟩ := finish.log
  refine ⟨finish.outgoing.trans start.outgoing, finish.incomming.trans start.incomming,
    finish.count.trans start.count, log ++ more, ?_, ?_⟩
  · rw [moreEq, logEq, List.append_assoc]
  · rw [List.filter_append, none, noMore, List.append_nil]

theorem Tracks.aside (tracks : Tracks machine world) (aside : Aside gsm world after) :
    Tracks machine after :=
  ⟨aside.outgoing.trans tracks.outgoing, aside.incomming.trans tracks.incomming,
    aside.count.trans tracks.count⟩

theorem Aside.moves (aside : Aside gsm world after) (tracks : Tracks machine world) :
    Moves gsm machine [] world after :=
  ⟨tracks.aside aside, aside.log⟩

theorem Moves.aside (moves : Moves gsm machine events first world) (aside : Aside gsm world after) :
    Moves gsm machine events first after := by
  obtain ⟨log, logEq, said⟩ := moves.log
  obtain ⟨more, moreEq, none⟩ := aside.log
  refine ⟨moves.tracks.aside aside, log ++ more, ?_, ?_⟩
  · rw [moreEq, logEq, List.append_assoc]
  · rw [List.filter_append, said, none, List.append_nil]

/-- A request that the call machine does not notice. -/
def Apart (gsm : Card) : Op → Prop
  | .set cell _ => cell ≠ .outgoingCallState ∧ cell ≠ .incommingCallState ∧ cell ≠ .interruptCount
  | .gsmSend _ _ => False
  | .gsmReceive _ => False
  | .ztHooksig card _ => card ≠ gsm
  | _ => True

theorem Apart.aside {op : Op} (apart : Apart gsm op) {answer : op.Ans}
    (answered : handler env op world = some (answer, after)) : Aside gsm world after := by
  obtain ⟨-, cell, log⟩ := handler_some answered
  refine ⟨?_, ?_, ?_, _, log, ?_⟩
  · rw [cell]
    cases op with
    | set cell value => exact Function.update_of_ne apart.1.symm _ _
    | _ => rfl
  · rw [cell]
    cases op with
    | set cell value => exact Function.update_of_ne apart.2.1.symm _ _
    | _ => rfl
  · rw [cell]
    cases op with
    | set cell value => exact Function.update_of_ne apart.2.2.symm _ _
    | _ => rfl
  · cases op with
    | gsmSend card info => exact apart.elim
    | gsmReceive card => exact apart.elim
    | ztHooksig card sig =>
      have other : card ≠ gsm := apart
      simp [Op.events, concerns, other]
    | _ => rfl

theorem Apart.of_local {type : ModType} {card : Card} (other : card ≠ gsm) (op : Op)
    (stays : Local type card op) : Apart gsm op := by
  cases op with
  | set cell value =>
    rcases stays with rfl | rfl
    · exact ⟨nofun, nofun, nofun⟩
    · exact ⟨nofun, nofun, nofun⟩
  | gsmSend card info => exact stays
  | gsmReceive card => exact stays
  | ztHooksig c sig =>
    obtain rfl : c = card := stays
    exact other
  | _ => trivial

theorem Aside.of_every {α : Type} {program : Prog α} (every : program.Every (Apart gsm)) :
    Program.Respects (handler env) (Aside gsm) program := fun _ _ _ ran =>
  every.run_rel (Aside.refl gsm) Aside.trans (fun _ apart _ _ _ answered => apart.aside answered) ran

end Moves

/-! ### Every stimulus moves the machine at most once -/

section Stimuli

variable {params : Params} {cage : Cage} {σ : Type} {env : Env σ} {machine : Machine}
  {world after : World σ}

/-- Polling another card is none of the machine's business. -/
theorem checkGsmCard_aside {card : Card} (other : card ≠ cage.gsm) :
    Program.Respects (handler env) (Aside cage.gsm) (checkGsmCard params cage card) := by
  rw [checkGsmCard]
  cases cage.modtype card with
  | fxs =>
    refine proslicCheckHook_respects params (Aside.refl _) Aside.trans ?_ (Aside.of_every ?_)
    · exact fun op plain _ _ _ answered =>
        (Apart.of_local other op (plain.local op)).aside answered
    · exact .step trivial fun slot =>
        (initProslic_local params card _ true true).mono (Apart.of_local other)
  | fxo =>
    have port : cage.port card ≠ .gsm := fun gsm => other ((cage.port_gsm card).mp gsm)
    simp only [port, ne_eq, not_false_eq_true, if_true]
    exact Aside.of_every ((voicedaaCheckHook_local card).mono (Apart.of_local other))

/-- Setting the line feed is none of its business either. -/
theorem applyLinefeed_aside (debugRead : Bool) (card gsm : Card) (world : World σ) :
    Program.Ends (handler env) (applyLinefeed debugRead card) world fun _ final =>
      Aside gsm world final := by
  have apart : (applyLinefeed debugRead card).Every fun op => Apart gsm op ∧ op ≠ .hang :=
    .bind (.when fun _ => .step ⟨trivial, nofun⟩ fun _ => trivial) fun _ =>
      .step ⟨trivial, nofun⟩ fun _ => .call ⟨trivial, nofun⟩
  obtain ⟨value, final, ran, -⟩ := apart.ends (handler env)
    (fun op request => handler_answers op request.2) world
  exact ⟨value, final, ran, Aside.of_every (apart.mono fun _ request => request.1) _ _ _ ran⟩

/-- A hook signal on another FXO channel changes only that line. -/
theorem fxoHooksig_aside (card gsm : Card) (txsig : TxSig) :
    Program.Respects (handler env) (Aside gsm) (fxoHooksig card txsig) := by
  refine Aside.of_every ?_
  cases txsig <;> first | exact .step trivial fun _ => .call trivial | trivial

/-- The `switch` on the GSM channel makes the machine's transition. -/
theorem gsmSwitch_ends (tracks : Tracks machine world) (card : Card) (txdialbuf : List UInt8)
    (txsig : TxSig) :
    Program.Ends (handler env) (gsmSwitch card txdialbuf txsig) world fun _ final =>
      Moves card (machine.gsmHook txdialbuf txsig).1
        ((machine.gsmHook txdialbuf txsig).2.toList.map (.sent card)) world final := by
  obtain ⟨outgoing, incomming, count⟩ := tracks
  obtain ⟨phase, pending⟩ := machine
  have offhook : Program.Ends (handler env) (gsmOffhook card) world fun _ final =>
      Moves card (Machine.answer ⟨phase, pending⟩).1
        ((Machine.answer ⟨phase, pending⟩).2.toList.map (.sent card)) world final := by
    simp only [gsmOffhook, Program.ends_bind, ends_get, Program.ends_when, ends_set, ends_gsmSend,
      ends_storeInt, incomming]
    cases phase <;> simp only [Machine.incomming, Machine.answer, Int.reduceEq, reduceCtorEq,
      if_true, if_false]
    case ringing => exact .sent ⟨outgoing, rfl, count⟩ rfl
    all_goals exact .silent ⟨outgoing, incomming, count⟩ rfl
  cases txsig with
  | offhook => exact offhook
  | kewl => exact Program.ends_pure.mpr (.silent ⟨outgoing, incomming, count⟩ rfl)
  | onhook =>
    simp only [gsmSwitch, Program.ends_bind, ends_get, Program.ends_when, ends_set, ends_gsmSend,
      ends_storeInt, outgoing]
    cases phase <;> simp only [Machine.outgoing, Machine.gsmHook, Int.reduceEq, reduceCtorEq,
      if_true, if_false]
    case talking => exact .sent ⟨rfl, incomming, count⟩ rfl
    all_goals exact .silent ⟨outgoing, incomming, count⟩ rfl
  | start =>
    simp only [gsmSwitch, Machine.gsmHook, Program.ends_ite]
    split_ifs with dial idle
    · simp only [Program.ends_bind, ends_setRxhooksig, ends_get, Program.ends_when, ends_gsmSend,
        ends_set, outgoing, incomming]
      subst idle
      rw [if_pos ⟨rfl, rfl⟩]
      exact ⟨⟨rfl, incomming, count⟩, [.rxhooksig card .offhook, .sent card _],
        List.append_assoc _ _ _, rfl⟩
    · simp only [Program.ends_bind, ends_setRxhooksig, ends_get, Program.ends_when, ends_gsmSend,
        ends_set, outgoing, incomming]
      cases phase <;> simp only [Machine.outgoing, Machine.incomming, Int.reduceEq, and_false,
        false_and, if_false]
      · exact absurd rfl idle
      all_goals exact ⟨⟨outgoing, incomming, count⟩, [.rxhooksig card .offhook], rfl, rfl⟩
    · exact offhook

/-- **A hook signal on the GSM channel** always ends, with the machine's transition. -/
theorem gsmHook_run (tracks : Tracks machine world) (txsig : TxSig) (sig : Signalling)
    (txdialbuf : List UInt8) :
    ∃ final, (Stimulus.hooksig cage.gsm txsig sig txdialbuf).run params cage env world = some final ∧
      Moves cage.gsm (machine.gsmHook txdialbuf txsig).1
        ((machine.gsmHook txdialbuf txsig).2.toList.map (.sent cage.gsm)) world final := by
  have port : cage.port cage.gsm = .gsm := (cage.port_gsm cage.gsm).mpr rfl
  have ends : Program.Ends (handler env) (hooksig params cage cage.gsm txsig sig txdialbuf) world
      fun _ final => Moves cage.gsm (machine.gsmHook txdialbuf txsig).1
        ((machine.gsmHook txdialbuf txsig).2.toList.map (.sent cage.gsm)) world final := by
    simp only [hooksig, cage.modtype_gsm, port, ne_eq, not_true_eq_false, if_false,
      Program.ends_bind]
    refine (gsmSwitch_ends tracks cage.gsm txdialbuf txsig).mono fun _ middle moves => ?_
    exact (applyLinefeed_aside _ cage.gsm cage.gsm middle).mono fun _ _ aside => moves.aside aside
  obtain ⟨_, final, ran, moves⟩ := ends
  exact ⟨final, by rw [Stimulus.run, Stimulus.prog, ran]; rfl, moves⟩

theorem Tracks.counted (tracks : Tracks machine world) : Tracks machine (counted world) :=
  ⟨tracks.outgoing, tracks.incomming, tracks.count⟩

/-- **The interrupt that polls the GSM card** always ends, with the machine's transition on the line
received. -/
theorem tick_run (tracks : Tracks machine world) (polls : Polls world cage.gsm) :
    ∃ final, Stimulus.interrupt.run params cage env world = some final ∧
      Moves cage.gsm (machine.tick (env.gsmReceive cage.gsm world.hw).1).1
        (.received cage.gsm (env.gsmReceive cage.gsm world.hw).1 ::
          (machine.tick (env.gsmReceive cage.gsm world.hw).1).2.toList.map (.signalled cage.gsm))
        world final := by
  obtain ⟨turn, up, installed⟩ := polls
  have port : cage.port cage.gsm = .gsm := (cage.port_gsm cage.gsm).mpr rfl
  have ends : Program.Ends (handler env) (pollNext (checkGsmCard params cage)) world
      fun _ final => Moves cage.gsm (machine.tick (env.gsmReceive cage.gsm world.hw).1).1
        (.received cage.gsm (env.gsmReceive cage.gsm world.hw).1 ::
          (machine.tick (env.gsmReceive cage.gsm world.hw).1).2.toList.map (.signalled cage.gsm))
        world final := by
    rw [ends_pollNext, turn, if_pos ⟨up, installed⟩]
    simp only [checkGsmCard, cage.modtype_gsm, port, ne_eq, not_true_eq_false, if_false]
    exact (gsmControl_ends cage.gsm tracks.counted).mono fun _ final ticks =>
      ⟨ticks.tracks, _, ticks.log, tickEvents_concerns _ _ _⟩
  obtain ⟨_, final, ran, moves⟩ := ends
  exact ⟨final, by rw [Stimulus.run, Stimulus.prog, ran]; rfl, moves⟩

/-! ### The driver follows the machine -/

/-- The transitions of the machine, with the modem traffic and signals of each. -/
inductive Transition (cage : Cage) : Machine → List Event → Machine → Prop
  | none (machine : Machine) : Transition cage machine [] machine
  | tick (machine : Machine) (line : List UInt8) : Transition cage machine
      (.received cage.gsm line :: (machine.tick line).2.toList.map (.signalled cage.gsm))
      (machine.tick line).1
  | gsmHook (machine : Machine) (txdialbuf : List UInt8) (txsig : TxSig) : Transition cage machine
      ((machine.gsmHook txdialbuf txsig).2.toList.map (.sent cage.gsm))
      (machine.gsmHook txdialbuf txsig).1
  | fxsHook (machine : Machine) (card : Card) (txsig : TxSig) : Transition cage machine
      ((machine.fxsHook txsig).2.toList.map (.sent card)) (machine.fxsHook txsig).1

theorem Stimulus.run_eq {stimulus : Stimulus}
    (stepped : stimulus.run params cage env world = some after) :
    (stimulus.prog params cage).run (handler env) world = some ((), after) := by
  obtain ⟨⟨_, _⟩, ran, rfl⟩ := Option.map_eq_some_iff.mp stepped
  exact ran

/-- An interrupt that does not poll the GSM card leaves the machine where it is. -/
theorem interrupt_aside (other : ¬ Polls world cage.gsm)
    (ran : (pollNext (checkGsmCard params cage)).run (handler env) world = some ((), after)) :
    Aside cage.gsm world after := by
  have start : Aside cage.gsm world (counted world) := ⟨rfl, rfl, rfl, [], by simp [counted], rfl⟩
  have ends : Program.Ends (handler env) (pollNext (checkGsmCard params cage)) world
      fun _ final => final = after := ⟨(), after, ran, rfl⟩
  rw [ends_pollNext] at ends
  split at ends
  · rename_i installed
    obtain ⟨_, final, checked, rfl⟩ := ends
    have different : nextTurn world ≠ cage.gsm := by
      intro same
      rw [same] at installed
      exact other ⟨same, installed⟩
    exact start.trans (checkGsmCard_aside different _ _ _ checked)
  · rw [← ends]
    exact start

/-- A hook signal on an FXS channel: it may end an answered call, and sets the line feed. -/
theorem fxsHook_moves (tracks : Tracks machine world) {card : Card}
    (fxs : cage.modtype card = .fxs) {txsig : TxSig} {sig : Signalling} {txdialbuf : List UInt8}
    (ran : (hooksig params cage card txsig sig txdialbuf).run (handler env) world =
      some ((), after)) :
    Moves cage.gsm (machine.fxsHook txsig).1 ((machine.fxsHook txsig).2.toList.map (.sent card))
      world after := by
  have other : card ≠ cage.gsm := by
    rintro rfl
    rw [cage.modtype_gsm] at fxs
    contradiction
  rw [hooksig, fxs] at ran
  obtain ⟨_, middle, first, rest⟩ := (Program.run_bind_some _).mp ran
  have ends : Program.Ends (handler env) (Program.when (txsig = .onhook) (fxsHangup card)) world
      fun _ final => Moves cage.gsm (machine.fxsHook txsig).1
        ((machine.fxsHook txsig).2.toList.map (.sent card)) world final := by
    obtain ⟨outgoing, incomming, count⟩ := tracks
    obtain ⟨phase, pending⟩ := machine
    simp only [Program.ends_when, fxsHangup, Program.ends_bind, ends_get, ends_gsmSend, ends_set,
      incomming]
    cases txsig <;> cases phase <;>
      simp only [Machine.incomming, Machine.fxsHook, Int.reduceEq, reduceCtorEq, if_true, if_false]
    case onhook.answered => exact .sent ⟨outgoing, rfl, count⟩ rfl
    all_goals exact .silent ⟨outgoing, incomming, count⟩ rfl
  obtain ⟨_, fed, second, third⟩ := (Program.run_bind_some _).mp rest
  have fedAside : Aside cage.gsm middle fed :=
    Aside.of_every (((fxsLinefeed_plain card sig txsig).mono Plain.local).mono
      (Apart.of_local other)) _ _ _ second
  exact ((ends.of_run first).aside fedAside).aside ((applyLinefeed_aside false card cage.gsm fed).of_run third)

/-- **The driver follows the machine.** -/
theorem Stimulus.run_machine (tracks : Tracks machine world) {stimulus : Stimulus}
    (stepped : stimulus.run params cage env world = some after) :
    ∃ next events, Transition cage machine events next ∧
      Moves cage.gsm next events world after := by
  have ran := Stimulus.run_eq stepped
  cases stimulus with
  | interrupt =>
    by_cases polls : Polls world cage.gsm
    · obtain ⟨final, also, moves⟩ := tick_run tracks polls
      obtain rfl := Option.some.inj (also.symm.trans stepped)
      exact ⟨_, _, .tick machine _, moves⟩
    · exact ⟨machine, [], .none machine, (interrupt_aside polls ran).moves tracks⟩
  | hooksig card txsig sig txdialbuf =>
    by_cases own : card = cage.gsm
    · subst own
      obtain ⟨final, also, moves⟩ := gsmHook_run tracks txsig sig txdialbuf
      obtain rfl := Option.some.inj (also.symm.trans stepped)
      exact ⟨_, _, .gsmHook machine txdialbuf txsig, moves⟩
    · cases type : cage.modtype card with
      | fxs => exact ⟨_, _, .fxsHook machine card txsig, fxsHook_moves tracks type ran⟩
      | fxo =>
        refine ⟨machine, [], .none machine, Aside.moves ?_ tracks⟩
        have port : cage.port card ≠ .gsm := fun gsm => own ((cage.port_gsm card).mp gsm)
        rw [Stimulus.prog, Gsm.hooksig, type] at ran
        simp only [port, ne_eq, not_false_eq_true, if_true] at ran
        exact fxoHooksig_aside card cage.gsm txsig _ _ _ ran

theorem runStimuli_log {stimuli : List Stimulus}
    (ran : runStimuli params cage env stimuli world = some after) :
    ∃ log, after.log = world.log ++ log := by
  induction stimuli generalizing world with
  | nil =>
    obtain rfl : world = after := by simpa [runStimuli] using ran
    exact ⟨[], by simp⟩
  | cons stimulus rest ih =>
    obtain ⟨middle, stepped, rest⟩ := Option.bind_eq_some_iff.mp ran
    obtain ⟨log, start⟩ := run_log (Stimulus.run_eq stepped)
    obtain ⟨more, finish⟩ := ih rest
    exact ⟨log ++ more, by rw [finish, start, List.append_assoc]⟩

theorem Fresh.tracks (fresh : Fresh world) : Tracks ⟨.idle, false⟩ world :=
  ⟨fresh.outgoing, fresh.incomming, fresh.count⟩

/-- **The rule for runs**: an invariant `I` that every transition keeps while its exchanges are as
assumed in `A`, with exchanges as guaranteed in `G`, is kept by every run with such exchanges. -/
theorem runStimuli_rule {I : Machine → Prop} {A G : Event → Prop}
    (step : ∀ {machine events next}, Transition cage machine events next → I machine →
      (∀ event ∈ events, A event) → I next ∧ ∀ event ∈ events, G event)
    {stimuli : List Stimulus} (tracks : Tracks machine world) (holds : I machine)
    (ran : runStimuli params cage env stimuli world = some after)
    (assumed : ∀ event ∈ since world after, concerns cage.gsm event → A event) :
    ∃ final, Tracks final after ∧ I final ∧
      ∀ event ∈ since world after, concerns cage.gsm event → G event := by
  induction stimuli generalizing machine world with
  | nil =>
    obtain rfl : world = after := by simpa [runStimuli] using ran
    exact ⟨machine, tracks, holds, by simp [since]⟩
  | cons stimulus rest ih =>
    obtain ⟨middle, stepped, restRan⟩ := Option.bind_eq_some_iff.mp ran
    obtain ⟨next, events, transition, moves⟩ := Stimulus.run_machine tracks stepped
    rw [since_trans (run_log (Stimulus.run_eq stepped)) (runStimuli_log restRan)] at assumed ⊢
    obtain ⟨kept, ensured⟩ := step transition holds fun event member =>
      assumed event (List.mem_append_left _ (moves.mem_since.mp member).1) (moves.mem_since.mp member).2
    obtain ⟨final, finalTracks, finalKept, finalEnsured⟩ := ih moves.tracks kept restRan
      fun event member => assumed event (List.mem_append_right _ member)
    refine ⟨final, finalTracks, finalKept, fun event member concern => ?_⟩
    rcases List.mem_append.mp member with inFirst | inRest
    · exact ensured event (moves.mem_since.mpr ⟨inFirst, concern⟩)
    · exact finalEnsured event inRest concern

theorem runStimuli_tracks {stimuli : List Stimulus} (tracks : Tracks machine world)
    (ran : runStimuli params cage env stimuli world = some after) :
    ∃ final, Tracks final after := by
  obtain ⟨final, finalTracks, -⟩ := runStimuli_rule (I := fun _ => True) (A := fun _ => True)
    (G := fun _ => True) (fun _ _ _ => ⟨trivial, fun _ _ => trivial⟩) tracks trivial ran
    fun _ _ _ => trivial
  exact ⟨final, finalTracks⟩

/-- **Every reachable state of the driver is a state of the machine.** -/
theorem Reached.tracks (reached : Reached params cage env world) : ∃ machine, Tracks machine world := by
  obtain ⟨start, stimuli, fresh, ran⟩ := reached
  exact runStimuli_tracks fresh.tracks ran

end Stimuli

/-! ### A scripted modem -/

/-- A cage with only the GSM module, in the first slot. -/
def soloCage : Cage where
  port := fun card => if card = firstSlot then .gsm else .none
  modtype := fun _ => .fxo
  gsm := firstSlot
  port_gsm := by decide
  modtype_gsm := rfl

/-- A modem that says the given lines, one at a time, and then nothing. -/
def script : Env (List (List UInt8)) where
  setreg := fun _ _ _ => id
  getreg := fun _ _ => (0, ·)
  setLed := fun _ _ => id
  forgetCard := id
  gsmSend := fun _ _ => id
  gsmReceive := fun _ lines => (lines.headD codeNothing, lines.tail)
  uart := fun _ _ => (0, ·)
  jiffies := (0, ·)
  waitJustABit := fun _ => id
  copyToUser := fun _ => (false, ·)

/-- The idle driver, about to poll the GSM card. -/
def idleDriver (lines : List (List UInt8)) : World (List (List UInt8)) where
  mod := fun _ => 0
  cell := fun cell => match cell with
    | .cardflag card => if card = firstSlot then 1 else 0
    | .initOk => 1
    | .intcount => 7
    | _ => 0
  hw := lines
  log := []

theorem idleDriver_fresh (lines : List (List UInt8)) : Fresh (idleDriver lines) := ⟨rfl, rfl, rfl⟩

/-- The interrupts between two polls of the GSM card. -/
def gsmRound : List Stimulus := List.replicate 8 .interrupt

/-- A START with the dial string `"1w"`. -/
def dialOne : Stimulus := .hooksig firstSlot .start .fxoks [0x31, 0x77]

end Baps.Gsm
