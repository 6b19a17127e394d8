/-
**Pulse digits, as they are received.**

A phone dials a digit by opening its loop so many times. `pickedUp` counts an opening that was neither too
short nor too long, `pulseTick` reports the digit once `ZT_PULSETIMEOUT` has passed behind the last one.

* `Listening.waits`, `Broken.waits` — so many ticks, while no digit is due;
* `Broken.closed` — **an opening of the right length is counted**;
* `Listening.digit` — **the digit is reported**, once, with as many pulses as were counted.
-/

import Baps.Zaptel.Signalling

namespace Baps.Zaptel

/-- The phone of an FXO channel is off hook or on hook; its channel has answered it, is neither frozen nor
busy with its own hook state, and has counted some pulses. -/
structure Attends (flash : Nat) (rxsig : Bits) (line : Line) (hook : RxHook) (pulses timer : Nat) : Prop where
  fxo : line.sig.isFxo = true
  thawed : line.sigfreeze = false
  settled : line.txstate ≠ .start ∧ line.txstate ≠ .debounce ∧ line.txstate ≠ .kewl ∧
    line.txstate ≠ .afterkewl
  gotgs : line.gotgs = true
  flash_eq : line.times.rxflashtime = flash
  rxsig_eq : line.rxsig = rxsig
  hook_eq : line.rxhooksig = hook
  pulsecount_eq : line.pulsecount = pulses
  pulsetimer_eq : line.pulsetimer = timer

/-- The loop is closed. -/
structure Listening (flash : Nat) (rxsig : Bits) (line : Line) (pulses timer : Nat) : Prop where
  attends : Attends flash rxsig line .offhook pulses timer
  itimer_eq : line.itimer = 0

/-- The loop has been open for some ticks. -/
structure Broken (config : Config) (flash : Nat) (rxsig : Bits) (line : Line)
    (pulses timer elapsed : Nat) : Prop where
  attends : Attends flash rxsig line .onhook pulses timer
  itimerset_eq : line.itimerset = (flash : Int) * config.chunksize
  itimer_eq : line.itimer = ((flash : Int) - elapsed) * config.chunksize

/-- What a channel says of a digit with so many pulses. -/
def digitSaid (pulses : Nat) : List Signal :=
  (Line.pulsedigit pulses).toList.map fun digit => .event (.pulsedigit digit)

/-- The timer for hook states does not move. -/
structure SameItimer (line next : Line) : Prop where
  itimer : next.itimer = line.itimer
  itimerset : next.itimerset = line.itimerset

section

variable {config : Config} {flash pulses timer elapsed : Nat} {rxsig : Bits} {hook : RxHook} {line : Line}

theorem Sig.isFxs_of_isFxo {sig : Sig} (fxo : sig.isFxo = true) : sig.isFxs = false := by
  cases sig <;> first | rfl | exact absurd fxo Bool.false_ne_true

/-! ### Ticks -/

theorem Attends.ringTick (config : Config) (attends : Attends flash rxsig line hook pulses timer) :
    Attends flash rxsig (line.ringTick config) hook pulses timer ∧
      (line.ringTick config).said = line.said ∧ SameItimer line (line.ringTick config) := by
  have fxo := Sig.isFxs_of_isFxo attends.fxo
  unfold Line.ringTick
  by_cases debounced : line.ringdebtimer = 0
  · rw [if_pos debounced]
    dsimp only
    rw [fxo, if_neg Bool.false_ne_true]
    exact ⟨attends, rfl, rfl, rfl⟩
  · rw [if_neg debounced]
    dsimp only
    rw [fxo, if_neg Bool.false_ne_true]
    exact ⟨{ attends with }, rfl, rfl, rfl⟩

/-- No digit is due. -/
theorem Attends.pulseTick_early (attends : Attends flash rxsig line hook pulses timer)
    (early : pulses = 0 ∨ timer ≠ 1) :
    Attends flash rxsig line.pulseTick hook pulses (timer - 1) ∧ line.pulseTick.said = line.said ∧
      SameItimer line line.pulseTick := by
  have timer_eq := attends.pulsetimer_eq
  have pulses_eq := attends.pulsecount_eq
  unfold Line.pulseTick
  by_cases stopped : line.pulsetimer = 0
  · rw [if_pos stopped, show timer - 1 = timer by omega]
    exact ⟨attends, rfl, rfl, rfl⟩
  · have later : ¬ (line.pulsetimer - 1 ≤ 0 ∧ line.pulsecount ≠ 0) := by omega
    rw [if_neg stopped]
    dsimp only
    rw [if_neg later]
    refine ⟨{ attends with pulsetimer_eq := ?_ }, rfl, rfl, rfl⟩
    show line.pulsetimer - 1 = _
    omega

/-- A digit is due. -/
theorem Attends.pulseTick_due (attends : Attends flash rxsig line hook pulses 1) (some : pulses ≠ 0) :
    Attends flash rxsig line.pulseTick hook 0 0 ∧ line.pulseTick.said = line.said ++ digitSaid pulses ∧
      SameItimer line line.pulseTick := by
  have timer_eq := attends.pulsetimer_eq
  have pulses_eq := attends.pulsecount_eq
  have running : ¬ line.pulsetimer = 0 := by omega
  have due : line.pulsetimer - 1 ≤ 0 ∧ line.pulsecount ≠ 0 := by omega
  have stopped : line.pulsetimer - 1 = (0 : Nat) := by omega
  unfold Line.pulseTick digitSaid
  rw [if_neg running]
  dsimp only
  rw [if_pos due, pulses_eq]
  cases Line.pulsedigit pulses with
  | some digit =>
    exact ⟨{ attends with pulsecount_eq := rfl, pulsetimer_eq := stopped }, rfl, rfl, rfl⟩
  | none =>
    exact ⟨{ attends with pulsecount_eq := rfl, pulsetimer_eq := stopped },
      (List.append_nil _).symm, rfl, rfl⟩

/-- A tick while the loop is closed. -/
theorem Listening.receiveTick_eq (listening : Listening flash rxsig line pulses timer) :
    line.receiveTick config = (line.ringTick config).pulseTick := by
  unfold Line.receiveTick Line.itimerTick
  rw [if_pos listening.itimer_eq]

theorem Listening.early (config : Config) (listening : Listening flash rxsig line pulses timer)
    (early : pulses = 0 ∨ timer ≠ 1) :
    Listening flash rxsig (line.receiveTick config) pulses (timer - 1) ∧
      (line.receiveTick config).said = line.said := by
  obtain ⟨rung, said, same⟩ := listening.attends.ringTick config
  obtain ⟨after, still, fixed⟩ := rung.pulseTick_early early
  rw [listening.receiveTick_eq]
  exact ⟨⟨after, fixed.itimer.trans (same.itimer.trans listening.itimer_eq)⟩, still.trans said⟩

theorem Listening.due (config : Config) (listening : Listening flash rxsig line pulses 1) (some : pulses ≠ 0) :
    Listening flash rxsig (line.receiveTick config) 0 0 ∧
      (line.receiveTick config).said = line.said ++ digitSaid pulses := by
  obtain ⟨rung, said, same⟩ := listening.attends.ringTick config
  obtain ⟨after, reported, fixed⟩ := rung.pulseTick_due some
  rw [listening.receiveTick_eq]
  exact ⟨⟨after, fixed.itimer.trans (same.itimer.trans listening.itimer_eq)⟩, by rw [reported, said]⟩

/-- A tick while the loop is open, before that is an event. -/
theorem Broken.early (broken : Broken config flash rxsig line pulses timer elapsed)
    (early : pulses = 0 ∨ timer ≠ 1) (soon : elapsed + 1 < flash) :
    Broken config flash rxsig (line.receiveTick config) pulses (timer - 1) (elapsed + 1) ∧
      (line.receiveTick config).said = line.said := by
  have positive := config.chunksize_pos
  have itimer : line.itimer = ((flash : Int) - elapsed) * config.chunksize := broken.itimer_eq
  have less : line.itimer - config.chunksize = ((flash : Int) - (elapsed + 1 : Nat)) * config.chunksize := by
    rw [itimer]
    push_cast
    ring
  have remains : 0 < ((flash : Int) - (elapsed + 1 : Nat)) * config.chunksize :=
    mul_pos (by omega) (by omega)
  have ticked : line.itimerTick config = { line with itimer := line.itimer - config.chunksize } := by
    unfold Line.itimerTick
    rw [if_neg (by omega)]
    dsimp only
    rw [if_neg (by omega)]
  have attends : Attends flash rxsig { line with itimer := line.itimer - config.chunksize } .onhook pulses
      timer := { broken.attends with }
  obtain ⟨rung, said, same⟩ := attends.ringTick config
  obtain ⟨after, still, fixed⟩ := rung.pulseTick_early early
  unfold Line.receiveTick
  rw [ticked]
  exact ⟨⟨after, fixed.itimerset.trans (same.itimerset.trans broken.itimerset_eq),
    fixed.itimer.trans (same.itimer.trans less)⟩, still.trans said⟩

/-- So many ticks while the loop is closed. -/
theorem Listening.waits (config : Config) (listening : Listening flash rxsig line pulses timer)
    {ticks : Nat}
    (early : pulses = 0 ∨ ticks < timer) :
    Listening flash rxsig ((Line.receiveTick config)^[ticks] line) pulses (timer - ticks) ∧
      ((Line.receiveTick config)^[ticks] line).said = line.said := by
  induction ticks with
  | zero => exact ⟨listening, rfl⟩
  | succ ticks ih =>
    obtain ⟨waits, said⟩ := ih (by omega)
    obtain ⟨after, still⟩ := waits.early config (by omega)
    rw [Function.iterate_succ_apply', Nat.sub_succ]
    exact ⟨after, still.trans said⟩

/-- So many ticks while the loop is open. -/
theorem Broken.waits (broken : Broken config flash rxsig line pulses timer 0) {ticks : Nat}
    (early : pulses = 0 ∨ ticks < timer) (soon : ticks < flash) :
    Broken config flash rxsig ((Line.receiveTick config)^[ticks] line) pulses (timer - ticks) ticks ∧
      ((Line.receiveTick config)^[ticks] line).said = line.said := by
  induction ticks with
  | zero => exact ⟨broken, rfl⟩
  | succ ticks ih =>
    obtain ⟨waits, said⟩ := ih (by omega) (by omega)
    obtain ⟨after, still⟩ := waits.early (by omega) soon
    rw [Function.iterate_succ_apply', Nat.sub_succ]
    exact ⟨after, still.trans said⟩

/-- **The digit is reported** once the timer has run out, and nothing else is said however long the loop
stays closed. -/
theorem Listening.digit (config : Config) (listening : Listening flash rxsig line pulses timer) (some : pulses ≠ 0)
    (running : 0 < timer) {ticks : Nat} (late : timer ≤ ticks) :
    Listening flash rxsig ((Line.receiveTick config)^[ticks] line) 0 0 ∧
      ((Line.receiveTick config)^[ticks] line).said = line.said ++ digitSaid pulses := by
  obtain ⟨more, rfl⟩ := Nat.exists_eq_add_of_le late
  have early : pulses = 0 ∨ timer - 1 < timer := .inr (by omega)
  obtain ⟨waits, said⟩ := listening.waits config early
  rw [show timer - (timer - 1) = 1 by omega] at waits
  obtain ⟨reported, told⟩ := waits.due config some
  obtain ⟨after, still⟩ := @Listening.waits _ _ _ _ _ config reported more (.inl rfl)
  rw [show timer + more = more + (timer - 1 + 1) by omega, Function.iterate_add_apply,
    Function.iterate_succ_apply']
  rw [Nat.zero_sub] at after
  exact ⟨after, by rw [still, told, said]⟩

/-! ### The loop opens and closes -/

theorem Attends.hooksig_eq {next : RxHook} (attends : Attends flash rxsig line hook pulses timer)
    (changed : hook ≠ next) (known : next ≠ .start) :
    line.hooksig config next = { line with rxhooksig := next }.fxoHooksig config next := by
  have fxo := attends.fxo
  have fxs := Sig.isFxs_of_isFxo fxo
  have thawed : ¬ line.sigfreeze = true := by
    rw [attends.thawed]
    exact Bool.false_ne_true
  have quiet : ¬ (config.ringbegin ∧ line.sig.isFxs ∧ next = .ring ∧ line.ringdebtimer = 0) :=
    fun all => Bool.false_ne_true (fxs.symm.trans all.2.1)
  have ground : Line.groundStart next { line with rxhooksig := next }
      = { line with rxhooksig := next } := if_neg fun both => known both.1
  unfold Line.hooksig
  rw [if_neg (attends.hook_eq.trans_ne changed), if_neg thawed]
  dsimp only
  rw [if_neg quiet, ground]
  revert fxo
  cases line.sig <;> first | exact fun _ => rfl | exact fun bad => absurd bad Bool.false_ne_true

theorem Line.putDown_eq (debounce : line.txstate ≠ .debounce) (kewl : line.txstate ≠ .kewl)
    (afterkewl : line.txstate ≠ .afterkewl) :
    line.putDown config = { line with
      itimer := line.times.rxflashtime * config.chunksize
      itimerset := line.times.rxflashtime * config.chunksize } := by
  have calm : line.txstate ≠ .debounce ∧ line.txstate ≠ .kewl ∧ line.txstate ≠ .afterkewl :=
    ⟨debounce, kewl, afterkewl⟩
  unfold Line.putDown
  rw [if_pos calm]
  exact if_neg kewl

theorem Line.countPulse_eq (config : Config) (line : Line) :
    line.countPulse config = { line with
      pulsecount := line.pulsecount + 1
      pulsetimer := config.pulsetimeout
      said := line.said ++ if line.pulsecount = 0 then [.event .pulseStart] else [] } := by
  unfold Line.countPulse
  by_cases first : line.pulsecount = 0
  · have one : line.pulsecount + 1 = 1 := by rw [first]
    rw [if_pos first]
    exact if_pos one
  · have more : ¬ line.pulsecount + 1 = 1 := by omega
    rw [if_neg first, List.append_nil]
    exact if_neg more

/-- An opening that counts. -/
theorem Line.pickedUp_pulse (settled : line.txstate ≠ .start) (running : line.itimer ≠ 0)
    (most : line.itimerset - line.itimer ≤ config.maxPulsetime)
    (least : line.itimerset - line.itimer ≥ config.minPulsetime) :
    line.pickedUp config = { line with
      kewlonhook := false
      pulsecount := line.pulsecount + 1
      pulsetimer := config.pulsetimeout
      itimer := 0
      itimerset := 0
      said := line.said ++ if line.pulsecount = 0 then [.event .pulseStart] else [] } := by
  have counted : Line.loopClosed config { line with kewlonhook := false }
      = Line.countPulse config { line with kewlonhook := false } :=
    (if_pos running).trans ((if_pos most).trans (if_pos least))
  unfold Line.pickedUp
  rw [if_neg settled]
  dsimp only
  rw [counted, Line.countPulse_eq]

/-- **The loop opens.** -/
theorem Listening.opened (config : Config) (listening : Listening flash rxsig line pulses timer) :
    Broken config flash rxsig (line.hooksig config .onhook) pulses timer 0 ∧
      (line.hooksig config .onhook).said = line.said := by
  have attends := listening.attends
  obtain ⟨-, debounce, kewl, afterkewl⟩ := attends.settled
  have down : line.hooksig config .onhook = { line with
      rxhooksig := .onhook
      itimer := line.times.rxflashtime * config.chunksize
      itimerset := line.times.rxflashtime * config.chunksize } := by
    rw [attends.hooksig_eq (by decide) (by decide)]
    exact Line.putDown_eq debounce kewl afterkewl
  rw [down]
  refine ⟨⟨{ attends with hook_eq := rfl }, ?_, ?_⟩, rfl⟩
  · show line.times.rxflashtime * _ = _
    rw [attends.flash_eq]
  · show line.times.rxflashtime * _ = _
    rw [attends.flash_eq, Int.natCast_zero, Int.sub_zero]

/-- **An opening of the right length is counted,** and the first one is an event. -/
theorem Broken.closed (broken : Broken config flash rxsig line pulses timer elapsed)
    (least : config.minPulsetime ≤ elapsed * config.chunksize)
    (most : elapsed * config.chunksize ≤ config.maxPulsetime) (soon : elapsed < flash) :
    Listening flash rxsig (line.hooksig config .offhook) (pulses + 1) config.pulsetimeout ∧
      (line.hooksig config .offhook).said
        = line.said ++ if pulses = 0 then [.event .pulseStart] else [] := by
  have attends := broken.attends
  have positive := config.chunksize_pos
  have remains : 0 < ((flash : Int) - elapsed) * config.chunksize := mul_pos (by omega) (by omega)
  have running : line.itimer ≠ 0 := by
    rw [broken.itimer_eq]
    exact remains.ne'
  have plen : line.itimerset - line.itimer = ((elapsed * config.chunksize : Nat) : Int) := by
    rw [broken.itimerset_eq, broken.itimer_eq]
    push_cast
    ring
  have up : line.hooksig config .offhook = { line with
      rxhooksig := .offhook
      kewlonhook := false
      pulsecount := line.pulsecount + 1
      pulsetimer := config.pulsetimeout
      itimer := 0
      itimerset := 0
      said := line.said ++ if line.pulsecount = 0 then [.event .pulseStart] else [] } := by
    rw [attends.hooksig_eq (by decide) (by decide)]
    apply Line.pickedUp_pulse
    · exact attends.settled.1
    · exact running
    · show line.itimerset - line.itimer ≤ _
      rw [plen]
      exact_mod_cast most
    · show line.itimerset - line.itimer ≥ _
      rw [plen]
      exact_mod_cast least
  rw [up, attends.pulsecount_eq]
  exact ⟨⟨{ attends with hook_eq := rfl, pulsecount_eq := rfl, pulsetimer_eq := rfl }, rfl⟩, rfl⟩

end

end Baps.Zaptel
