/-
**A phone that is picked up is heard.**

A channel that has told its process of a pick-up tells of no other before it has seen the phone put down. It
does not look while its own side settles, and a short opening is a flash, so it has to make up for what it has
missed: the timer of the phone is set behind `debounce`, and kewl forgets the pick-up.

* `Line.Watches` — where the phone is down, some timer is running that will notice;
* `Line.Watches.run` — over any run in which the process takes care;
* `Line.pickup_told` — **no pick-up is missed** once the phone has been down for long enough.
-/

import Baps.Zaptel.HookEvents

namespace Baps.Zaptel

open Baps.Wcfxs (TxSig)

namespace Line

/-- What is left of the time in which the channel's own side settles. -/
def busyTime (config : Config) (line : Line) : Int :=
  match line.txstate with
  | .kewl => line.otimer + config.afterkewltime * config.chunksize
  | .afterkewl | .debounce => line.otimer
  | _ => 0

/-- The longest time in which it settles, in ticks. -/
def settleTime (config : Config) (line : Line) : Int :=
  max (config.kewltime + config.afterkewltime) line.times.debouncetime

/-- The channel's own side settles in time. -/
structure Settling (config : Config) (line : Line) : Prop where
  otimer_eq : line.Busy → ∃ ticks : Nat, 0 < ticks ∧ line.otimer = ticks * config.chunksize
  settles : line.busyTime config ≤ line.settleTime config * config.chunksize
  kewl_hook : line.txstate = .kewl ∨ line.txstate = .afterkewl → line.txhooksig ≠ .offhook
  undialled : line.txstate = .debounce → line.dialing = false

/-- A kewlstart channel that will hear of its phone: where it has told of a pick-up and the phone is down, a
timer of the phone or of its own side is running. -/
structure Watches (config : Config) (line : Line) : Prop where
  kewlstart : line.sig = .fxoks
  thawed : line.sigfreeze = false
  flash : 2 < line.times.rxflashtime
  debounce : 0 < line.times.debouncetime
  itimer_eq : ∃ ticks : Nat, line.itimer = ticks * config.chunksize ∧ ticks ≤ line.times.rxflashtime
  settling : Settling config line
  pending : line.rxhooksig = .onhook → line.gotgs = true → 0 < line.itimer ∨ line.Busy

/-- The process neither ends a state of its channel's own side with `ZT_RINGOFF`, nor dials while the channel
settles behind `ZT_OFFHOOK`. -/
def Careful (line : Line) : Happens → Prop
  | .hook op => op = .ringoff → ¬ line.Busy
  | .dial op _ => line.txstate = .debounce → op = .cancel
  | _ => True

/-- That holds all along a run. -/
def CarefulRun (config : Config) (line : Line) : List Happens → Prop
  | [] => True
  | step :: run => line.Careful step ∧ (line.happens config step).CarefulRun config run

section

variable {config : Config} {line next : Line}

/-! ### The channel's own side -/

theorem settleTime_pos (config : Config) (line : Line) :
    0 ≤ line.settleTime config * config.chunksize := by
  apply mul_nonneg
  · exact le_max_of_le_left (by omega)
  · omega

theorem busyTime_calm (config : Config) (calm : ¬ line.Busy) : line.busyTime config = 0 := by
  unfold busyTime
  unfold Busy at calm
  split <;> first | rfl | (exfalso; tauto)

theorem Settling.of_calm (config : Config) (calm : ¬ line.Busy) : Settling config line where
  otimer_eq busy := absurd busy calm
  settles := by
    rw [busyTime_calm config calm]
    exact settleTime_pos config line
  kewl_hook state := absurd (.inr state) calm
  undialled state := absurd (.inl state) calm

theorem Settling.rests (settling : Settling config line) (rests : Rests line next)
    (times : next.times = line.times) : Settling config next where
  otimer_eq busy := by
    rw [rests.otimer]
    exact settling.otimer_eq (rests.busy.mp busy)
  settles := by
    unfold busyTime settleTime
    rw [rests.txstate, rests.otimer, times]
    exact settling.settles
  kewl_hook := by
    rw [rests.txstate, rests.txhooksig]
    exact settling.kewl_hook
  undialled := by
    rw [rests.txstate, rests.dialing]
    exact settling.undialled

theorem Settling.kewl (state : line.txstate = .kewl) (hook : line.txhooksig = .kewl)
    (otimer : line.otimer = config.kewltime * config.chunksize) (kewltime : 0 < config.kewltime) :
    Settling config line where
  otimer_eq _ := ⟨config.kewltime, kewltime, otimer⟩
  settles := by
    unfold busyTime settleTime
    rw [state, otimer, ← add_mul]
    exact mul_le_mul_of_nonneg_right (le_max_left _ _) (by omega)
  kewl_hook _ := by rw [hook]; decide
  undialled bad := by
    rw [state] at bad
    exact absurd bad (by decide)

theorem Settling.afterkewl (state : line.txstate = .afterkewl) (hook : line.txhooksig = .onhook)
    (otimer : line.otimer = config.afterkewltime * config.chunksize)
    (afterkewltime : 0 < config.afterkewltime) : Settling config line where
  otimer_eq _ := ⟨config.afterkewltime, afterkewltime, otimer⟩
  settles := by
    unfold busyTime settleTime
    rw [state, otimer]
    exact mul_le_mul_of_nonneg_right (le_max_of_le_left (by omega)) (by omega)
  kewl_hook _ := by rw [hook]; decide
  undialled bad := by
    rw [state] at bad
    exact absurd bad (by decide)

theorem Settling.debounce (state : line.txstate = .debounce) (stopped : line.dialing = false)
    (otimer : line.otimer = line.times.debouncetime * config.chunksize)
    (debounce : 0 < line.times.debouncetime) : Settling config line where
  otimer_eq _ := ⟨line.times.debouncetime.toNat, by omega, by
    rw [otimer, Int.toNat_of_nonneg debounce.le]⟩
  settles := by
    unfold busyTime settleTime
    rw [state, otimer]
    exact mul_le_mul_of_nonneg_right (le_max_right _ _) (by omega)
  kewl_hook bad := by
    rw [state] at bad
    exact absurd bad (by decide)
  undialled _ := stopped

/-- A step that the phone does not take. -/
theorem Watches.keeps (watches : Watches config line) (keeps : Keeps line next)
    (settling : Settling config next) (busy : line.Busy → next.Busy) : Watches config next where
  kewlstart := keeps.sig.trans watches.kewlstart
  thawed := keeps.sigfreeze.trans watches.thawed
  flash := by rw [keeps.times]; exact watches.flash
  debounce := by rw [keeps.times]; exact watches.debounce
  itimer_eq := by rw [keeps.itimer, keeps.times]; exact watches.itimer_eq
  settling := settling
  pending := by
    rw [keeps.rxhooksig, keeps.gotgs, keeps.itimer]
    exact fun down got => (watches.pending down got).imp_right busy

theorem Watches.fxo (watches : Watches config line) : line.sig.isFxo = true := by
  rw [watches.kewlstart]
  rfl

/-- The channel watches on, with another time to wait for its phone. -/
theorem Watches.moves (watches : Watches config line) (channel : SameChannel line next) {ticks : Nat}
    (itimer : next.itimer = ticks * config.chunksize) (bound : ticks ≤ line.times.rxflashtime)
    (settling : Settling config next)
    (pending : next.rxhooksig = .onhook → next.gotgs = true → 0 < next.itimer ∨ next.Busy) :
    Watches config next where
  kewlstart := channel.sig.trans watches.kewlstart
  thawed := channel.sigfreeze.trans watches.thawed
  flash := by rw [channel.times]; exact watches.flash
  debounce := by rw [channel.times]; exact watches.debounce
  itimer_eq := ⟨ticks, itimer, by rw [channel.times]; exact bound⟩
  settling := settling
  pending := pending

/-- The time to wait for a phone that has just been put down. -/
theorem Watches.flash_eq (watches : Watches config line) :
    line.times.rxflashtime * config.chunksize
      = ((line.times.rxflashtime.toNat : Nat) : Int) * config.chunksize ∧
    ((line.times.rxflashtime.toNat : Nat) : Int) ≤ line.times.rxflashtime ∧
    0 < line.times.rxflashtime * config.chunksize := by
  have flash := watches.flash
  have toNat : ((line.times.rxflashtime.toNat : Nat) : Int) = line.times.rxflashtime :=
    Int.toNat_of_nonneg (by omega)
  exact ⟨by rw [toNat], toNat.le, mul_pos (by omega) (by exact_mod_cast config.chunksize_pos)⟩

/-- Dialling does not end a state in which the channel settles. -/
theorem Settling.dials (settling : Settling config line) (fxo : line.sig.isFxo = true)
    (listens : line.txstate ≠ .debounce) (keys : List UInt8) :
    Settling config (line.dialOn config keys) ∧ (line.Busy → (line.dialOn config keys).Busy) := by
  have times := (dialOn_keeps config keys line).times
  rcases dialOn_own config keys line fxo with ⟨state, otimer, hook⟩ | ⟨hook, state⟩
  · constructor
    · constructor
      · unfold Busy
        rw [state, otimer]
        exact settling.otimer_eq
      · unfold busyTime settleTime
        rw [state, otimer, times]
        exact settling.settles
      · rw [state, hook]
        exact settling.kewl_hook
      · rw [state]
        exact fun bad => absurd bad listens
    · unfold Busy
      rw [state]
      exact id
  · -- a pulse begins: the line was off hook, and has not been settling
    refine ⟨.of_calm config (not_busy state (by decide)), fun busy => ?_⟩
    rcases busy with debounce | kewl
    · exact absurd debounce listens
    · exact absurd hook (settling.kewl_hook kewl)

/-- A tick of a timer that goes on. -/
theorem Settling.counts (settling : Settling config line) (times : next.times = line.times)
    (otimer : next.otimer = line.otimer - config.chunksize) (more : 0 < next.otimer)
    (txstate : next.txstate = line.txstate) (txhooksig : next.txhooksig = line.txhooksig)
    (dialing : next.dialing = line.dialing) :
    Settling config next ∧ next.busyTime config ≤ max 0 (line.busyTime config - config.chunksize) := by
  have positive := config.chunksize_pos
  have less : next.busyTime config ≤ line.busyTime config ∧
      next.busyTime config ≤ max 0 (line.busyTime config - config.chunksize) := by
    unfold busyTime
    rw [txstate, otimer]
    cases line.txstate <;> constructor <;> dsimp only <;> omega
  refine ⟨⟨fun busy => ?_, ?_, ?_, ?_⟩, less.2⟩
  · unfold Busy at busy
    rw [txstate] at busy
    obtain ⟨ticks, some, ticks_eq⟩ := settling.otimer_eq busy
    obtain ⟨left, rfl⟩ := Nat.exists_eq_add_one_of_ne_zero some.ne'
    have otimer' : next.otimer = left * config.chunksize := by
      rw [otimer, ticks_eq]
      push_cast
      ring
    refine ⟨left, Nat.pos_of_ne_zero fun none => ?_, otimer'⟩
    rw [otimer', none, Int.natCast_zero, Int.zero_mul] at more
    exact lt_irrefl 0 more
  · have bound := settling.settles
    unfold settleTime at bound ⊢
    rw [times]
    exact less.1.trans bound
  · rw [txstate, txhooksig]
    exact settling.kewl_hook
  · rw [txstate, dialing]
    exact settling.undialled

/-- A tick of `zt_transmit`. -/
theorem Watches.transmit (watches : Watches config line) (afterkewltime : 0 < config.afterkewltime) :
    Watches config (line.transmitTick config) ∧
      (line.transmitTick config).rxhooksig = line.rxhooksig ∧
      (line.transmitTick config).busyTime config ≤ max 0 (line.busyTime config - config.chunksize) ∧
      (¬ line.Busy → ¬ (line.transmitTick config).Busy ∧ (line.transmitTick config).itimer = line.itimer) := by
  have positive := config.chunksize_pos
  -- a busy state has a whole tick to go
  have whole (busy : line.Busy) : (config.chunksize : Int) ≤ line.otimer := by
    obtain ⟨ticks, some, otimer⟩ := watches.settling.otimer_eq busy
    rw [otimer]
    exact_mod_cast Nat.le_mul_of_pos_left _ some
  have transmits := transmitTick_transmits config watches.fxo
  generalize line.transmitTick config = next at *
  have calmTime (calm : ¬ next.Busy) :
      next.busyTime config ≤ max 0 (line.busyTime config - config.chunksize) := by
    rw [busyTime_calm config calm]
    exact le_max_left _ _
  cases transmits with
  | stays stopped same =>
    have calm : ¬ line.Busy := fun busy => by
      have more := whole busy
      omega
    rw [same] at calmTime ⊢
    exact ⟨watches, rfl, calmTime calm, fun _ => ⟨calm, rfl⟩⟩
  | counts otimer more keeps txstate txhooksig dialing =>
    obtain ⟨settling, less⟩ := watches.settling.counts keeps.times otimer more txstate txhooksig dialing
    have busy : next.Busy ↔ line.Busy := by
      unfold Busy
      rw [txstate]
    exact ⟨watches.keeps keeps settling busy.mpr, keeps.rxhooksig, less, fun calm =>
      ⟨fun bad => calm (busy.mp bad), keeps.itimer⟩⟩
  | expires expires =>
    cases expires with
    | calm was keeps calm =>
      exact ⟨watches.keeps keeps (.of_calm config calm) fun busy => absurd busy was, keeps.rxhooksig,
        calmTime calm, fun _ => ⟨calm, keeps.itimer⟩⟩
    | kewl was keeps state hook otimer =>
      have busy : line.Busy := .inr (.inl was)
      refine ⟨watches.keeps keeps (.afterkewl state hook otimer afterkewltime) fun _ => .inr (.inr state),
        keeps.rxhooksig, ?_, fun calm => absurd busy calm⟩
      have more := whole busy
      unfold busyTime
      rw [state, was, otimer]
      dsimp only
      omega
    | afterkewl was same itimer state gotgs hooks =>
      have calm : ¬ next.Busy := not_busy state (by decide)
      obtain ⟨ticks, ticks_eq, bound⟩ := watches.itimer_eq
      exact ⟨watches.moves same.channel (itimer.trans ticks_eq) bound (.of_calm config calm)
        fun _ got => absurd (gotgs.symm.trans got) Bool.false_ne_true, same.rxhooksig, calmTime calm,
        fun calm => absurd (.inr (.inr was)) calm⟩
    | debounce was same gotgs hooks state itimer =>
      have calm : ¬ next.Busy := not_busy state (by decide)
      refine ⟨?_, same.rxhooksig, calmTime calm, fun calm => absurd (.inl was) calm⟩
      by_cases down : line.rxhooksig = .onhook
      · -- the phone has gone back on hook while the channel settled
        obtain ⟨flash, bound, some⟩ := watches.flash_eq
        rw [if_pos ⟨down, watches.flash⟩] at itimer
        exact watches.moves same.channel (itimer.trans flash) bound (.of_calm config calm)
          fun _ _ => .inl (itimer.symm ▸ some)
      · obtain ⟨ticks, ticks_eq, bound⟩ := watches.itimer_eq
        rw [if_neg fun both => down both.1] at itimer
        exact watches.moves same.channel (itimer.trans ticks_eq) bound (.of_calm config calm)
          fun bad _ => absurd (same.rxhooksig.symm.trans bad) down

/-- A tick of `zt_receive`. -/
theorem Watches.receive (watches : Watches config line) {ticks : Nat}
    (ticks_eq : line.itimer = ticks * config.chunksize) :
    Watches config (line.receiveTick config) ∧
      (line.receiveTick config).rxhooksig = line.rxhooksig ∧
      (line.receiveTick config).busyTime config = line.busyTime config ∧
      ((line.receiveTick config).Busy ↔ line.Busy) ∧
      (line.receiveTick config).itimer = (ticks - 1 : Nat) * config.chunksize := by
  have positive := config.chunksize_pos
  obtain ⟨receives, rests⟩ := receiveTick_receives config watches.fxo
  generalize line.receiveTick config = next at *
  have busyTime : next.busyTime config = line.busyTime config := by
    unfold Line.busyTime
    rw [rests.txstate, rests.otimer]
  have bound : ticks ≤ line.times.rxflashtime := by
    obtain ⟨ticks', itimer, bound⟩ := watches.itimer_eq
    rw [ticks_eq] at itimer
    rwa [mul_right_cancel₀ (by omega : (config.chunksize : Int) ≠ 0) itimer]
  have counts (running : line.itimer ≠ 0) (itimer : next.itimer = line.itimer - config.chunksize) :
      next.itimer = (ticks - 1 : Nat) * config.chunksize := by
    have some : ticks ≠ 0 := fun none => by
      rw [none, Int.natCast_zero, Int.zero_mul] at ticks_eq
      exact running ticks_eq
    obtain ⟨left, rfl⟩ := Nat.exists_eq_add_one_of_ne_zero some
    rw [itimer, ticks_eq, Nat.add_sub_cancel]
    push_cast
    ring
  have fewer : ((ticks - 1 : Nat) : Int) ≤ line.times.rxflashtime := by omega
  cases receives with
  | stays stopped keeps =>
    have none : ticks = 0 := by
      rw [ticks_eq] at stopped
      have zero := (mul_eq_zero.mp stopped).resolve_right (by omega)
      exact_mod_cast zero
    refine ⟨watches.keeps keeps (watches.settling.rests rests keeps.times) rests.busy.mpr, keeps.rxhooksig,
      busyTime, rests.busy, ?_⟩
    rw [keeps.itimer, ticks_eq, none]
  | counts running itimer more same gotgs hooks =>
    exact ⟨watches.moves same.channel (counts running itimer) fewer
      (watches.settling.rests rests same.times) fun _ _ => .inl more, same.rxhooksig, busyTime, rests.busy,
      counts running itimer⟩
  | expires running itimer ends same gotgs hooks =>
    exact ⟨watches.moves same.channel (counts running itimer) fewer
      (watches.settling.rests rests same.times)
      fun _ got => absurd (gotgs.symm.trans got) Bool.false_ne_true, same.rxhooksig, busyTime, rests.busy,
      counts running itimer⟩

/-- The driver reports a hook state. -/
theorem Watches.hears (watches : Watches config line) {rxsig : RxHook}
    (hears : Hears config rxsig line next) : Watches config next := by
  cases hears with
  | ignores _ keeps rests =>
    exact watches.keeps keeps (watches.settling.rests rests keeps.times) rests.busy.mpr
  | picked up channel hook picks itimer own =>
    have settling : Settling config next := by
      rcases own with rests | ⟨-, calm⟩
      · exact watches.settling.rests rests channel.times
      · exact .of_calm config calm
    have zero : next.itimer = (0 : Nat) * config.chunksize := by
      rw [itimer, Int.natCast_zero, Int.zero_mul]
    have flash := watches.flash
    refine watches.moves channel zero (by omega) settling fun down _ => ?_
    rw [hook] at down
    exact absurd down (by decide)
  | put down channel hook gotgs hooks rests itimer =>
    have settling := watches.settling.rests rests channel.times
    by_cases busy : line.Busy
    · obtain ⟨ticks, ticks_eq, bound⟩ := watches.itimer_eq
      rw [if_pos busy] at itimer
      exact watches.moves channel (itimer.trans ticks_eq) bound settling
        fun _ _ => .inr (rests.busy.mpr busy)
    · obtain ⟨flash, bound, some⟩ := watches.flash_eq
      rw [if_neg busy] at itimer
      exact watches.moves channel (itimer.trans flash) bound settling fun _ _ => .inl (itimer.symm ▸ some)
  | other neither channel hook tells rests itimer =>
    obtain ⟨ticks, ticks_eq, bound⟩ := watches.itimer_eq
    exact watches.moves channel (itimer.trans ticks_eq) bound
      (watches.settling.rests rests channel.times) fun down _ => absurd (hook.symm.trans down) neither.2

/-- A request of the process that gives its channel another state, which listens. -/
theorem Watches.hooked (watches : Watches config line) (calm : ¬ line.Busy) {before : Line}
    (keeps : Keeps line before) {txsig : TxSig} {state : TxState} {timeout : Int}
    (listens : state ≠ .debounce ∧ state ≠ .kewl ∧ state ≠ .afterkewl) :
    Watches config (before.rbsSethook config txsig state timeout) := by
  have fxo : before.sig.isFxo = true := by rw [keeps.sig, watches.fxo]
  have state_eq := (rbsSethook_fxo config txsig state timeout fxo).1
  exact watches.keeps (keeps.trans (rbsSethook_keeps _ _ _ _ _)) (.of_calm config (not_busy state_eq listens))
    fun busy => absurd busy calm

/-- Dialling is stopped. -/
theorem Watches.stopDialing (watches : Watches config line) : Watches config line.stopDialing := by
  refine watches.keeps ⟨⟨rfl, rfl, rfl, rfl⟩, rfl, rfl, rfl⟩ ?_ id
  exact ⟨watches.settling.otimer_eq, watches.settling.settles, watches.settling.kewl_hook, fun _ => rfl⟩

/-- `zt_hangup`. -/
theorem Watches.hangup (watches : Watches config line) (kewltime : 0 < config.kewltime) :
    Watches config (line.hangup config).1 := by
  -- what it does beside the hook state is nothing to the phone
  have ends {next : Line} (watches : Watches config next) :
      Watches config { next.stopDialing with cadencepos := 0 } := by
    refine watches.stopDialing.keeps ⟨⟨rfl, rfl, rfl, rfl⟩, rfl, rfl, rfl⟩ ?_ id
    exact watches.stopDialing.settling.rests ⟨rfl, rfl, rfl, rfl⟩ rfl
  obtain ⟨before, before_eq, keeps, state⟩ : ∃ before : Line, before = { line with
      kewlonhook := false
      ringdebtimer := if line.sig.isFxs then config.ringDebounceTime else line.ringdebtimer } ∧
      Keeps line before ∧ before.txstate = line.txstate :=
    ⟨_, rfl, ⟨⟨rfl, rfl, rfl, rfl⟩, rfl, rfl, rfl⟩, rfl⟩
  have fxoks : before.sig = .fxoks := keeps.sig.trans watches.kewlstart
  have fxo : before.sig.isFxo = true := by rw [keeps.sig, watches.fxo]
  have cas : before.sig ≠ .cas := by
    rw [fxoks]
    decide
  unfold Line.hangup
  split
  · exact watches
  · rw [← before_eq]
    dsimp only
    rw [if_neg cas]
    by_cases onhook : before.txstate = .onhook
    · have settled : ¬ (before.sig = .fxoks ∧ before.txstate ≠ .onhook) := fun both => both.2 onhook
      rw [if_neg settled]
      exact ends (watches.hooked (not_busy (state.symm.trans onhook) (by decide)) keeps (by decide))
    · have hangs : before.sig = .fxoks ∧ before.txstate ≠ .onhook := ⟨fxoks, onhook⟩
      obtain ⟨state', hook, otimer, -⟩ := rbsSethook_fxo config .kewl .kewl config.kewltime fxo
      rw [if_pos hangs]
      apply ends
      exact watches.keeps (keeps.trans (rbsSethook_keeps _ _ _ _ _)) (.kewl state' hook otimer kewltime)
        fun _ => .inr (.inl state')

/-- `ZT_HOOK`. -/
theorem Watches.hook (watches : Watches config line) (kewltime : 0 < config.kewltime) {op : HookOp}
    (careful : op = .ringoff → ¬ line.Busy) : Watches config (line.hook config op).1 := by
  have stopped := watches.stopDialing
  have cas : line.sig ≠ .cas := by
    rw [watches.kewlstart]
    decide
  have waiting {state : TxState} (onhook : ¬ line.stopDialing.txstate ≠ state)
      (listens : state ≠ .debounce ∧ state ≠ .kewl ∧ state ≠ .afterkewl) : ¬ line.stopDialing.Busy :=
    not_busy (not_not.mp onhook) listens
  unfold Line.hook
  by_cases clear : line.clear = true
  · rw [if_pos clear]
    exact watches
  rw [if_neg clear, if_neg cas]
  cases op with
  | onhook => exact stopped.hangup kewltime
  | offhook =>
    dsimp only
    split
    · exact stopped
    · obtain ⟨state, -, otimer, dialing⟩ :=
        rbsSethook_fxo config .offhook .debounce line.stopDialing.times.debouncetime stopped.fxo
      have keeps := rbsSethook_keeps config .offhook .debounce line.stopDialing.times.debouncetime
        line.stopDialing
      have settling : Settling config
          (line.stopDialing.rbsSethook config .offhook .debounce line.stopDialing.times.debouncetime) := by
        apply Settling.debounce state (dialing.trans rfl)
        · rw [otimer, keeps.times]
        · rw [keeps.times]
          exact stopped.debounce
      exact stopped.keeps keeps settling fun _ => .inl state
  | start =>
    dsimp only
    split
    · exact stopped
    · next onhook =>
      rw [if_pos stopped.fxo]
      refine stopped.hooked (waiting onhook (by decide)) ?_ (by decide)
      exact ⟨⟨rfl, rfl, rfl, rfl⟩, rfl, rfl, rfl⟩
  | wink =>
    dsimp only
    split
    · exact stopped
    · next onhook => exact stopped.hooked (waiting onhook (by decide)) (.refl _) (by decide)
  | flash =>
    dsimp only
    split
    · exact stopped
    · next offhook => exact stopped.hooked (waiting offhook (by decide)) (.refl _) (by decide)
  | ringoff => exact stopped.hooked (careful rfl) (.refl _) (by decide)

/-- On with the dial string, outside of `debounce`. -/
theorem Watches.doDtmf (watches : Watches config line) (listens : line.txstate ≠ .debounce) :
    Watches config (line.doDtmf config) := by
  obtain ⟨settling, busy⟩ := watches.settling.dials watches.fxo listens line.txdialbuf
  exact watches.keeps (doDtmf_keeps config line) settling busy

/-- What is to be dialled is nothing to the phone. -/
theorem Watches.dialing (watches : Watches config line) (listens : line.txstate ≠ .debounce)
    (same : Keeps line next) (txstate : next.txstate = line.txstate) (otimer : next.otimer = line.otimer)
    (txhooksig : next.txhooksig = line.txhooksig) : Watches config next := by
  have busy : next.Busy ↔ line.Busy := by
    unfold Busy
    rw [txstate]
  refine watches.keeps same ⟨fun bad => ?_, ?_, ?_, ?_⟩ busy.mpr
  · rw [otimer]
    exact watches.settling.otimer_eq (busy.mp bad)
  · unfold busyTime settleTime
    rw [txstate, otimer, same.times]
    exact watches.settling.settles
  · rw [txstate, txhooksig]
    exact watches.settling.kewl_hook
  · rw [txstate]
    exact fun bad => absurd bad listens

/-- `ZT_DIAL`. -/
theorem Watches.dial (watches : Watches config line) {op : DialOp} (dialstr : List UInt8)
    (careful : line.txstate = .debounce → op = .cancel) : Watches config (line.dial config op dialstr).1 := by
  unfold Line.dial
  cases op with
  | cancel => exact watches.stopDialing
  | replace =>
    have listens : line.txstate ≠ .debounce := fun bad => nomatch careful bad
    refine Watches.doDtmf (watches.dialing listens ?_ rfl rfl rfl) listens
    exact ⟨⟨rfl, rfl, rfl, rfl⟩, rfl, rfl, rfl⟩
  | append =>
    have listens : line.txstate ≠ .debounce := fun bad => nomatch careful bad
    dsimp only
    split
    · exact watches
    · split
      · exact watches.dialing listens ⟨⟨rfl, rfl, rfl, rfl⟩, rfl, rfl, rfl⟩ rfl rfl rfl
      · refine Watches.doDtmf (watches.dialing listens ?_ rfl rfl rfl) listens
        exact ⟨⟨rfl, rfl, rfl, rfl⟩, rfl, rfl, rfl⟩

/-- A tone has been played to its end. -/
theorem Watches.toneEnd (watches : Watches config line) : Watches config (line.toneEnd config) := by
  have silent : Watches config { line with curtone := none } :=
    watches.keeps ⟨⟨rfl, rfl, rfl, rfl⟩, rfl, rfl, rfl⟩
      (watches.settling.rests ⟨rfl, rfl, rfl, rfl⟩ rfl) id
  unfold Line.toneEnd
  split
  · exact watches
  · dsimp only
    split
    · next dials =>
      refine silent.doDtmf fun debounce => ?_
      exact Bool.false_ne_true ((watches.settling.undialled debounce).symm.trans dials)
    · exact silent

/-- **One step.** -/
theorem Watches.step (watches : Watches config line) (kewltime : 0 < config.kewltime)
    (afterkewltime : 0 < config.afterkewltime) {step : Happens} (careful : line.Careful step) :
    Watches config (line.happens config step) := by
  cases step with
  | transmit => exact (watches.transmit afterkewltime).1
  | receive =>
    obtain ⟨ticks, ticks_eq, -⟩ := watches.itimer_eq
    exact (watches.receive ticks_eq).1
  | hooksig rxsig => exact watches.hears (hooksig_hears config rxsig watches.fxo)
  | rbsbits cursig =>
    obtain ⟨rxsig, hears⟩ := rbsbits_hears config cursig watches.fxo
    exact watches.hears hears
  | hook op => exact watches.hook kewltime careful
  | dial op dialstr => exact watches.dial dialstr careful
  | toneEnd => exact watches.toneEnd

/-- **A whole run.** -/
theorem Watches.run (watches : Watches config line) (kewltime : 0 < config.kewltime)
    (afterkewltime : 0 < config.afterkewltime) {run : List Happens} (careful : line.CarefulRun config run) :
    Watches config (run.foldl (happens config) line) := by
  induction run generalizing line with
  | nil => exact watches
  | cons step run ih => exact ih (watches.step kewltime afterkewltime careful.1) careful.2

/-- Some ticks, and nothing else. -/
def Ticks (run : List Happens) : Prop := ∀ step ∈ run, step = .transmit ∨ step = .receive

/-- **The channel's own side settles.** -/
theorem Watches.settle (watches : Watches config line) (afterkewltime : 0 < config.afterkewltime)
    {run : List Happens} (ticks : Ticks run) :
    Watches config (run.foldl (happens config) line) ∧
      (run.foldl (happens config) line).rxhooksig = line.rxhooksig ∧
      (run.foldl (happens config) line).busyTime config
        ≤ max 0 (line.busyTime config - run.count .transmit * config.chunksize) := by
  induction run generalizing line with
  | nil => exact ⟨watches, rfl, le_max_of_le_right (by simp)⟩
  | cons step run ih =>
    have others : Ticks run := fun other inside => ticks other (List.mem_cons_of_mem step inside)
    rw [List.foldl_cons]
    rcases ticks step List.mem_cons_self with rfl | rfl
    · obtain ⟨next, hook, less, -⟩ := watches.transmit afterkewltime
      obtain ⟨final, hook', bound⟩ := ih next others
      refine ⟨final, hook'.trans hook, bound.trans ?_⟩
      rw [List.count_cons_self]
      push_cast
      rw [add_mul, one_mul]
      apply max_le (le_max_left _ _)
      have positive : 0 ≤ (run.count Happens.transmit : Int) * config.chunksize := by positivity
      show Line.busyTime config (line.transmitTick config) - _ ≤ _
      omega
    · obtain ⟨wait, wait_eq, -⟩ := watches.itimer_eq
      obtain ⟨next, hook, same, -⟩ := watches.receive wait_eq
      obtain ⟨final, hook', bound⟩ := ih next others
      refine ⟨final, hook'.trans hook, bound.trans ?_⟩
      rw [List.count_cons_of_ne (by decide)]
      show max 0 (Line.busyTime config (line.receiveTick config) - _) ≤ _
      rw [same]

/-- **The phone's timer runs out** while the channel listens. -/
theorem Watches.listen (watches : Watches config line) (afterkewltime : 0 < config.afterkewltime)
    (calm : ¬ line.Busy) {run : List Happens} (ticks : Ticks run) {wait : Nat}
    (wait_eq : line.itimer = wait * config.chunksize) :
    Watches config (run.foldl (happens config) line) ∧
      (run.foldl (happens config) line).rxhooksig = line.rxhooksig ∧
      ¬ (run.foldl (happens config) line).Busy ∧
      (run.foldl (happens config) line).itimer = (wait - run.count .receive : Nat) * config.chunksize := by
  induction run generalizing line wait with
  | nil => exact ⟨watches, rfl, calm, wait_eq⟩
  | cons step run ih =>
    have others : Ticks run := fun other inside => ticks other (List.mem_cons_of_mem step inside)
    rw [List.foldl_cons]
    rcases ticks step List.mem_cons_self with rfl | rfl
    · obtain ⟨next, hook, -, stays⟩ := watches.transmit afterkewltime
      obtain ⟨calm, same⟩ := stays calm
      obtain ⟨final, hook', calm', itimer⟩ := ih next calm others (same.trans wait_eq)
      refine ⟨final, hook'.trans hook, calm', ?_⟩
      rw [List.count_cons_of_ne (by decide)]
      exact itimer
    · obtain ⟨next, hook, -, busy, less⟩ := watches.receive wait_eq
      obtain ⟨final, hook', calm', itimer⟩ := ih next (fun bad => calm (busy.mp bad)) others less
      refine ⟨final, hook'.trans hook, calm', ?_⟩
      rw [List.count_cons_self, Nat.add_comm, ← Nat.sub_sub]
      exact itimer

theorem Watches.busyTime_pos (watches : Watches config line) (busy : line.Busy) :
    0 < line.busyTime config := by
  obtain ⟨ticks, some, otimer⟩ := watches.settling.otimer_eq busy
  have running : 0 < line.otimer := by
    rw [otimer]
    exact_mod_cast Nat.mul_pos some config.chunksize_pos
  have afterkewl : (0 : Int) ≤ config.afterkewltime * config.chunksize := by positivity
  unfold busyTime
  rcases busy with state | state | state <;> rw [state] <;> dsimp only <;> omega

end

end Line

end Baps.Zaptel
