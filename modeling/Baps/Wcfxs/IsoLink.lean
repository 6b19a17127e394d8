/-
**The wait for the ISO link of an FXO card.**

`wcfxs_init_voicedaa` waits at most `2*HZ` ticks for register 11 to show the link. Its deadline is a value
of `jiffies`, compared as a number, and `jiffies` wraps; the other waits of the driver compare the
difference `jiffies - origjiffies` instead. After the wait the register is read once more, and that last
reading decides.

* `spinReg_late` — a wait on the difference ends late only when the ticks have gone by.
* `waitIsoLink_stops`, `waitIsoLink_ends` — **where the wait for the link ends**.
* `gives_up_iff` — **when the initialisation gives up only for want of a link**.
* `gives_up_at_once` — it does not just before the wrap.
-/

import Mathlib.Order.Monotone.Basic
import Baps.Wcfxs.Voicedaa

namespace Baps.Wcfxs

open Interaction Memory

/-! ### Readings -/

/-- What `jiffies` and register 11 say at each of their readings, and the other registers. The clock
counts on where `jiffies` wraps. -/
structure Bench where
  clock : Nat → Nat
  forward : Monotone clock
  link : Nat → UInt8
  other : UInt8 → UInt8

/-- How often the clock and the link have been read. -/
structure Readings where
  clocks : Nat
  links : Nat
  deriving DecidableEq, Repr

namespace Bench

variable (bench : Bench)

/-- `jiffies` at a reading of the clock. -/
def ticks (i : Nat) : UInt32 := UInt32.ofNat (bench.clock i)

/-- The card and the kernel on the bench. -/
def env : Env Readings where
  setreg _ _ _ state := state
  getreg _ reg state :=
    if reg = 11 then (bench.link state.links, { state with links := state.links + 1 })
    else (bench.other reg, state)
  setLed _ _ state := state
  forgetCard state := state
  gsmSend _ _ state := state
  gsmReceive _ state := ([], state)
  uart _ _ state := (0, state)
  jiffies state := (bench.ticks state.clocks, { state with clocks := state.clocks + 1 })
  waitJustABit _ state := state
  copyToUser _ state := (true, state)

/-- The link is up at a reading of register 11. -/
def Up (j : Nat) : Prop := bench.link j &&& 0xf0 ≠ 0

instance (j : Nat) : Decidable (bench.Up j) := inferInstanceAs (Decidable (_ ≠ _))

/-- The value of `newjiffies`. -/
def newjiffies (hz : UInt32) : UInt32 := bench.ticks 0 + 2 * hz

section Calls

variable {bench : Bench} {card : Card} {world : World Readings}

theorem ends_jiffies {Q : UInt32 → World Readings → Prop} :
    Program.Ends (handler bench.env) jiffies world Q ↔
      Q (bench.ticks world.hw.clocks) { world with hw := ⟨world.hw.clocks + 1, world.hw.links⟩ } :=
  Program.ends_call rfl

theorem ends_link {Q : UInt8 → World Readings → Prop} :
    Program.Ends (handler bench.env) (wcfxsGetreg card 11) world Q ↔
      Q (bench.link world.hw.links) { world with
        hw := ⟨world.hw.clocks, world.hw.links + 1⟩
        log := world.log ++ [.read card 11 (bench.link world.hw.links)] } :=
  Program.ends_call rfl

theorem finally_jiffies {Q : UInt32 → World Readings → Prop} :
    Program.Finally (handler bench.env) jiffies world Q ↔
      Q (bench.ticks world.hw.clocks) { world with hw := ⟨world.hw.clocks + 1, world.hw.links⟩ } :=
  Program.finally_call rfl

theorem finally_link {Q : UInt8 → World Readings → Prop} :
    Program.Finally (handler bench.env) (wcfxsGetreg card 11) world Q ↔
      Q (bench.link world.hw.links) { world with
        hw := ⟨world.hw.clocks, world.hw.links + 1⟩
        log := world.log ++ [.read card 11 (bench.link world.hw.links)] } :=
  Program.finally_call rfl

/-- Waiting and writing a register leave the readings where they are. -/
theorem ends_wait {ticks : Nat} {Q : Unit → World Readings → Prop} :
    Program.Ends (handler bench.env) (waitJustABit ticks) world Q ↔ Q () world :=
  Program.ends_call rfl

theorem finally_wait {ticks : Nat} {Q : Unit → World Readings → Prop} :
    Program.Finally (handler bench.env) (waitJustABit ticks) world Q ↔ Q () world :=
  Program.finally_call rfl

theorem ends_write {reg value : UInt8} {Q : Unit → World Readings → Prop} :
    Program.Ends (handler bench.env) (wcfxsSetreg card reg value) world Q ↔
      Q () { world with log := world.log ++ [.wrote card reg value] } :=
  Program.ends_call rfl

theorem finally_write {reg value : UInt8} {Q : Unit → World Readings → Prop} :
    Program.Finally (handler bench.env) (wcfxsSetreg card reg value) world Q ↔
      Q () { world with log := world.log ++ [.wrote card reg value] } :=
  Program.finally_call rfl

end Calls

end Bench

section Wait

variable {bench : Bench} {params : Params} {card : Card} {newjiffies : UInt32}

/-! ### A wait on the difference -/

theorem ticks_sub {now origin : Nat} (order : origin ≤ now) :
    (UInt32.ofNat now - UInt32.ofNat origin).toNat = (now - origin) % 4294967296 := by
  rw [UInt32.toNat_sub]
  simp only [UInt32.toNat_ofNat']
  omega

/-- **A wait on `jiffies - origjiffies`** that the clock ends has lasted: more than `limit` ticks have gone
by between its first reading of the clock and its last, wherever `jiffies` wraps. -/
theorem spinReg_late {reg : UInt8} {keep : UInt8 → Bool} {limit : UInt32} {first : Nat} (fuel : Nat)
    (world : World Readings) (later : first ≤ world.hw.clocks) :
    Program.Finally (handler bench.env)
      (spinReg card reg (bench.ticks first) keep (fun gone => gone > limit) fuel) world
      fun result after => result.2 = true →
        bench.clock first + limit.toNat < bench.clock (after.hw.clocks - 1) := by
  induction fuel generalizing world with
  | zero => exact fun _ _ ran => nomatch ran
  | succ fuel ih =>
    have same : (bench.env.getreg card reg world.hw).2.clocks = world.hw.clocks := by
      show (if reg = 11 then _ else _ : UInt8 × Readings).2.clocks = _
      split <;> rfl
    refine (Program.finally_call_bind rfl).mpr ?_
    rw [Program.finally_ite]
    split
    · refine (Program.finally_call_bind rfl).mpr ?_
      rw [Program.finally_ite]
      split
      · rename_i late
        refine Program.finally_pure.mpr fun _ => ?_
        show _ < bench.clock ((bench.env.getreg card reg world.hw).2.clocks + 1 - 1)
        replace late : limit < bench.ticks (bench.env.getreg card reg world.hw).2.clocks -
          bench.ticks first := of_decide_eq_true late
        rw [same] at late ⊢
        have gone : limit.toNat < (bench.clock world.hw.clocks - bench.clock first) % 4294967296 := by
          rw [← ticks_sub (bench.forward later)]
          exact UInt32.lt_iff_toNat_lt.mp late
        have := Nat.mod_le (bench.clock world.hw.clocks - bench.clock first) 4294967296
        rw [Nat.add_sub_cancel]
        omega
      · exact ih _ (by show first ≤ _ + 1; rw [same]; omega)
    · exact Program.finally_pure.mpr fun late => nomatch late

/-! ### The wait for the link -/

/-- The wait goes on for `rounds` rounds, and then ends with the deadline or with the link. -/
def Bench.Stops (bench : Bench) (newjiffies : UInt32) (start : Readings) (rounds : Nat) (stop : Readings) :
    Prop :=
  (∀ t < rounds, bench.ticks (start.clocks + t) < newjiffies ∧ ¬ bench.Up (start.links + t)) ∧
    ((¬ bench.ticks (start.clocks + rounds) < newjiffies ∧
        stop = ⟨start.clocks + rounds + 1, start.links + rounds⟩) ∨
      (bench.ticks (start.clocks + rounds) < newjiffies ∧ bench.Up (start.links + rounds) ∧
        stop = ⟨start.clocks + rounds + 1, start.links + rounds + 1⟩))

/-- A first round, and the rest. -/
theorem stops_succ {start stop : Readings} {rounds : Nat} :
    bench.Stops newjiffies start (rounds + 1) stop ↔
      (bench.ticks start.clocks < newjiffies ∧ ¬ bench.Up start.links) ∧
        bench.Stops newjiffies ⟨start.clocks + 1, start.links + 1⟩ rounds stop := by
  unfold Bench.Stops
  rw [Nat.forall_lt_succ_left, and_assoc]
  simp only [Nat.add_zero, ← Nat.add_assoc, Nat.add_right_comm]

theorem waitIsoLink_stops (fuel : Nat) (world : World Readings) :
    Program.Finally (handler bench.env) (waitIsoLink params card newjiffies fuel) world
      fun _ after => ∃ rounds, bench.Stops newjiffies world.hw rounds after.hw := by
  induction fuel generalizing world with
  | zero => exact fun _ _ ran => nomatch ran
  | succ fuel ih =>
    rw [waitIsoLink, Program.finally_bind, Bench.finally_jiffies, Program.finally_ite]
    split
    · rename_i before
      rw [Program.finally_bind, Bench.finally_link, Program.finally_ite]
      split
      · rename_i down
        rw [Program.finally_bind, Bench.finally_wait]
        refine (ih _).mono ?_
        rintro _ after ⟨rounds, stops⟩
        exact ⟨rounds + 1, stops_succ.mpr ⟨⟨before, not_not.mpr down⟩, stops⟩⟩
      · rename_i up
        exact Program.finally_pure.mpr ⟨0, by simp, .inr ⟨before, up, rfl⟩⟩
    · rename_i late
      exact Program.finally_pure.mpr ⟨0, by simp, .inl ⟨late, rfl⟩⟩

theorem waitIsoLink_ends {rounds : Nat} {start stop : Readings} {world : World Readings} {fuel : Nat}
    (stops : bench.Stops newjiffies start rounds stop) (begins : world.hw = start)
    (enough : rounds < fuel) :
    Program.Ends (handler bench.env) (waitIsoLink params card newjiffies fuel) world
      fun _ after => after.hw = stop := by
  subst begins
  obtain ⟨fuel, rfl⟩ : ∃ n, fuel = n + 1 := ⟨fuel - 1, by omega⟩
  induction rounds generalizing world fuel with
  | zero =>
    rw [waitIsoLink, Program.ends_bind, Bench.ends_jiffies, Program.ends_ite]
    obtain ⟨-, ⟨late, rfl⟩ | ⟨before, up, rfl⟩⟩ := stops
    · rw [if_neg (by simpa using late)]
      exact Program.ends_pure.mpr rfl
    · rw [if_pos (by simpa using before), Program.ends_bind, Bench.ends_link, Program.ends_ite,
        if_neg (by simpa [Bench.Up] using up)]
      exact Program.ends_pure.mpr rfl
  | succ rounds ih =>
    obtain ⟨⟨before, down⟩, rest⟩ := stops_succ.mp stops
    rw [waitIsoLink, Program.ends_bind, Bench.ends_jiffies, Program.ends_ite, if_pos before,
      Program.ends_bind, Bench.ends_link, Program.ends_ite, if_pos (not_not.mp down),
      Program.ends_bind, Bench.ends_wait]
    obtain ⟨fuel, rfl⟩ : ∃ n, fuel = n + 1 := ⟨fuel - 1, by omega⟩
    refine ih ?_ fuel ?_
    · exact rest
    · omega

end Wait

/-! ### The initialisation -/

section Initialisation

variable {bench : Bench} {params : Params} {card : Card} {timeslot : UInt8} {sane : Bool}

/-- What is left of `wcfxs_init_voicedaa` once the wait has ended gives up if the link is down then. -/
theorem initVoicedaaLink_ends (params : Params) (card : Card) (world : World Readings) {rounds : Nat}
    {stop : Readings}
    (stops : bench.Stops (bench.ticks world.hw.clocks + 2 * params.hz)
      ⟨world.hw.clocks + 1, world.hw.links⟩ rounds stop)
    (enough : rounds < params.fuel) (down : ¬ bench.Up stop.links) :
    Program.Ends (handler bench.env) (initVoicedaaLink params card) world
      fun result after => result = -1 ∧ after.hw = ⟨stop.clocks, stop.links + 1⟩ := by
  rw [initVoicedaaLink, Program.ends_bind, Bench.ends_write, Program.ends_bind, Bench.ends_jiffies,
    Program.ends_bind]
  refine (waitIsoLink_ends stops ?_ enough).mono ?_
  · rfl
  rintro _ middle rfl
  rw [Program.ends_bind, Bench.ends_link, Program.ends_ite, if_pos (not_not.mp down)]
  exact Program.ends_pure.mpr ⟨rfl, rfl⟩

/-- It gives up only then. -/
theorem initVoicedaaLink_finally (params : Params) (card : Card) (world : World Readings) :
    Program.Finally (handler bench.env) (initVoicedaaLink params card) world
      fun result after => result = -1 → ∃ rounds stop,
        bench.Stops (bench.ticks world.hw.clocks + 2 * params.hz)
          ⟨world.hw.clocks + 1, world.hw.links⟩ rounds stop ∧
        ¬ bench.Up stop.links ∧ after.hw = ⟨stop.clocks, stop.links + 1⟩ := by
  rw [initVoicedaaLink, Program.finally_bind, Bench.finally_write, Program.finally_bind,
    Bench.finally_jiffies, Program.finally_bind]
  refine (waitIsoLink_stops params.fuel _).mono ?_
  rintro _ middle ⟨rounds, stops⟩
  rw [Program.finally_bind, Bench.finally_link, Program.finally_ite]
  split
  · rename_i down
    exact Program.finally_pure.mpr fun _ => ⟨rounds, middle.hw, stops, not_not.mpr down, rfl⟩
  · refine Program.finally_bind.mpr fun _ _ _ => Program.finally_bind.mpr fun _ _ _ => ?_
    exact Program.finally_bind.mpr fun _ _ _ => Program.finally_pure.mpr fun failed => by simp at failed

theorem setregs_stays (row : List (UInt8 × UInt8)) (world : World Readings) :
    Program.Ends (handler bench.env) (setregs card row) world fun _ after => after.hw = world.hw := by
  induction row generalizing world with
  | nil => exact Program.ends_pure.mpr rfl
  | cons entry rest ih =>
    refine Program.ends_bind.mpr (Bench.ends_write.mpr ?_)
    exact ih _

/-- How often the sanity check reads the link. -/
def checkReads (sane : Bool) : Nat := if sane then 0 else 1

/-- The card is not checked, or is the right chip. -/
def Bench.Accepted (bench : Bench) (sane : Bool) : Prop := sane = true ∨ bench.other 2 = 3

instance (sane : Bool) : Decidable (bench.Accepted sane) := inferInstanceAs (Decidable (_ ∨ _))

theorem check_accepted (card : Card) (accepted : bench.Accepted sane) (world : World Readings) :
    Program.Ends (handler bench.env) (if sane then pure 0 else wcfxsVoicedaaInsane card) world
      fun code after =>
        code = 0 ∧ after.hw = ⟨world.hw.clocks, world.hw.links + checkReads sane⟩ := by
  cases sane with
  | true => exact Program.ends_pure.mpr ⟨rfl, rfl⟩
  | false =>
    have part : (bench.env.getreg card 2 world.hw).1 = 3 := accepted.resolve_left Bool.false_ne_true
    rw [if_neg Bool.false_ne_true, wcfxsVoicedaaInsane, Program.ends_bind, ends_getreg,
      Program.ends_ite, if_neg (not_not.mpr part), Program.ends_bind]
    refine Program.ends_bind.mpr (Program.ends_bind.mpr (Bench.ends_link.mpr ?_))
    exact Program.ends_pure.mpr (Program.ends_pure.mpr (Program.ends_pure.mpr ⟨rfl, rfl⟩))

/-- **A chip that is accepted** is programmed, and then the link is waited for. -/
theorem reaches_link (params : Params) (card : Card) (timeslot : UInt8) (accepted : bench.Accepted sane)
    (world : World Readings) :
    ∃ middle : World Readings, middle.hw = ⟨world.hw.clocks, world.hw.links + checkReads sane⟩ ∧
      (wcfxsInitVoicedaa params card timeslot sane).run (handler bench.env) world =
        (initVoicedaaLink params card).run (handler bench.env) middle := by
  obtain ⟨_, checked, ranCheck, rfl, hwCheck⟩ := check_accepted card accepted world
  let rows : Prog Unit := do
    wcfxsSetreg card 1 0x80
    waitJustABit (params.hz.toNat / 10)
    setregs card (daaModeRow params.opermode)
    setregs card (daaTimeslotRow timeslot)
  have stays : Program.Ends (handler bench.env) rows checked fun _ after => after.hw = checked.hw := by
    refine Program.ends_bind.mpr (Bench.ends_write.mpr ?_)
    refine Program.ends_bind.mpr (Bench.ends_wait.mpr ?_)
    refine Program.ends_bind.mpr ((setregs_stays _ _).mono fun _ middle same => ?_)
    refine (setregs_stays _ _).mono fun _ after still => ?_
    rw [still, same]
  obtain ⟨_, middle, ranRows, hwRows⟩ := stays
  refine ⟨middle, by rw [hwRows, hwCheck], ?_⟩
  calc (wcfxsInitVoicedaa params card timeslot sane).run (handler bench.env) world
      = (rows >>= fun _ => initVoicedaaLink params card).run (handler bench.env) checked := by
        rw [wcfxsInitVoicedaa, Program.run_bind, ranCheck, Option.bind_some, if_neg (not_not.mpr rfl)]
        simp only [rows, bind_assoc]
    _ = (initVoicedaaLink params card).run (handler bench.env) middle := by
        rw [Program.run_bind, ranRows, Option.bind_some]

/-- A chip that is not accepted is reported with -2. -/
theorem rejected (not_accepted : ¬ bench.Accepted sane) (world : World Readings) :
    Program.Finally (handler bench.env) (wcfxsInitVoicedaa params card timeslot sane) world
      fun result _ => result = -2 := by
  obtain ⟨checked, other⟩ := not_or.mp not_accepted
  have part : (bench.env.getreg card 2 world.hw).1 ≠ 3 := other
  rw [wcfxsInitVoicedaa, if_neg checked, wcfxsVoicedaaInsane, Program.finally_bind]
  refine (Program.finally_call_bind rfl).mpr ?_
  rw [Program.finally_ite, if_pos part]
  exact Program.finally_pure.mpr (Program.finally_pure.mpr rfl)

/-! ### Giving up -/

/-- A result of -1 is for want of a link: it was down at every reading from the `first` on, and `2*HZ`
ticks have gone by since the clock was first read. -/
def Bench.ForWantOfLink (bench : Bench) (hz : UInt32) (first : Nat) (result : Int)
    (after : World Readings) : Prop :=
  result = -1 → (∀ j, first ≤ j → j < after.hw.links → ¬ bench.Up j) ∧
    bench.clock 0 + 2 * hz.toNat ≤ bench.clock (after.hw.clocks - 1)

/-- `jiffies` does not wrap between the first reading of the clock and the deadline, or has wrapped at the
second reading, or the link is up at once. -/
def Bench.WrapSafe (bench : Bench) (hz : UInt32) (first : Nat) : Prop :=
  bench.clock 0 % 4294967296 + 2 * hz.toNat < 4294967296 ∨
    bench.clock 0 / 4294967296 < bench.clock 1 / 4294967296 ∨ bench.Up first

/-- A link that ends the wait is still up at the next reading. -/
def Bench.StaysUp (bench : Bench) (hz : UInt32) (first : Nat) : Prop :=
  ∀ rounds, (∀ t < rounds, ¬ bench.Up (first + t)) →
    (∀ t ≤ rounds, bench.ticks (1 + t) < bench.newjiffies hz) →
    bench.Up (first + rounds) → bench.Up (first + rounds + 1)

theorem ticks_lt (i : Nat) (hz : UInt32) :
    bench.ticks i < bench.newjiffies hz ↔
      bench.clock i % 4294967296 < (bench.clock 0 + 2 * hz.toNat) % 4294967296 := by
  rw [UInt32.lt_iff_toNat_lt, Bench.newjiffies, UInt32.toNat_add, UInt32.toNat_mul]
  simp only [Bench.ticks, UInt32.toNat_ofNat', UInt32.reduceToNat]
  omega

/-- With no wrap in the way, the deadline is late enough. -/
theorem late_elapsed {start second now span : Nat} (first : start ≤ second) (order : second ≤ now)
    (fits : span < 4294967296)
    (safe : start % 4294967296 + span < 4294967296 ∨ start / 4294967296 < second / 4294967296)
    (late : ¬ now % 4294967296 < (start + span) % 4294967296) : start + span ≤ now := by
  omega

/-- With a wrap before the deadline and none yet, the deadline has passed at once. -/
theorem early_late {start second span : Nat} (order : start ≤ second) (fits : span < 4294967296)
    (wraps : ¬ start % 4294967296 + span < 4294967296)
    (not_yet : ¬ start / 4294967296 < second / 4294967296) :
    ¬ second % 4294967296 < (start + span) % 4294967296 ∧ second < start + span := by
  omega

/-- The states the driver enters the function in, with nothing read yet. -/
def fresh (mod : Bytes) (cell : Cell → Int) (log : List Event) : World Readings := ⟨mod, cell, ⟨0, 0⟩, log⟩

/-- A wait that stops with the link down, and what that says if the bench is safe. -/
theorem stops_forWantOfLink {hz : UInt32} {first rounds : Nat} {stop : Readings}
    (fits : 2 * hz.toNat < 4294967296) (safe : bench.WrapSafe hz first) (stays : bench.StaysUp hz first)
    (stops : bench.Stops (bench.newjiffies hz) ⟨1, first⟩ rounds stop) (down : ¬ bench.Up stop.links) :
    (∀ j, first ≤ j → j < stop.links + 1 → ¬ bench.Up j) ∧
      bench.clock 0 + 2 * hz.toNat ≤ bench.clock (stop.clocks - 1) := by
  obtain ⟨going, ⟨late, rfl⟩ | ⟨before, up, rfl⟩⟩ := stops
  · have downs : ∀ j, first ≤ j → j < first + rounds + 1 → ¬ bench.Up j := by
      intro j lower upper
      rcases Nat.lt_succ_iff_lt_or_eq.mp upper with inside | rfl
      · obtain ⟨t, rfl⟩ := Nat.exists_eq_add_of_le lower
        exact (going t (by omega)).2
      · exact down
    refine ⟨downs, ?_⟩
    rw [ticks_lt] at late
    refine late_elapsed (bench.forward (Nat.zero_le 1)) (bench.forward (Nat.le_add_right 1 rounds)) fits ?_ late
    rcases safe with room | wrapped | up
    · exact .inl room
    · exact .inr wrapped
    · exact absurd up (downs first le_rfl (by omega))
  · refine absurd (stays rounds (fun t inside => (going t inside).2) (fun t inside => ?_) up) down
    rcases Nat.lt_or_eq_of_le inside with less | rfl
    · exact (going t less).1
    · exact before

/-- A wait that stops with the link down is given up. -/
theorem stops_gives_up (params : Params) (card : Card) (timeslot : UInt8)
    (accepted : bench.Accepted sane) {rounds : Nat} {stop : Readings}
    (stops : bench.Stops (bench.newjiffies params.hz) ⟨1, checkReads sane⟩ rounds stop)
    (down : ¬ bench.Up stop.links) (mod : Bytes) (cell : Cell → Int) (log : List Event) :
    Program.Ends (handler bench.env)
      (wcfxsInitVoicedaa { params with fuel := rounds + 1 } card timeslot sane) (fresh mod cell log)
      fun result after => result = -1 ∧ after.hw = ⟨stop.clocks, stop.links + 1⟩ := by
  obtain ⟨⟨mod', cell', hw, log'⟩, hwEq, runEq⟩ :=
    reaches_link { params with fuel := rounds + 1 } card timeslot accepted (fresh mod cell log)
  obtain rfl : hw = ⟨0, checkReads sane⟩ := by simpa [fresh] using hwEq
  obtain ⟨result, after, ran, gaveUp⟩ :=
    initVoicedaaLink_ends { params with fuel := rounds + 1 } card
      ⟨mod', cell', ⟨0, checkReads sane⟩, log'⟩ stops (Nat.lt_succ_self rounds) down
  exact ⟨result, after, runEq.trans ran, gaveUp⟩

section GivingUp

variable {mod : Bytes} {cell : Cell → Int} {log : List Event}

/-- Where the initialisation gives up for want of a link only, a wait that stops with the link down has
lasted. -/
theorem stops_of_forWantOfLink (accepted : bench.Accepted sane)
    (holds : ∀ fuel, Program.Finally (handler bench.env)
      (wcfxsInitVoicedaa { params with fuel := fuel } card timeslot sane) (fresh mod cell log)
      (bench.ForWantOfLink params.hz (checkReads sane))) {rounds : Nat} {stop : Readings}
    (stops : bench.Stops (bench.newjiffies params.hz) ⟨1, checkReads sane⟩ rounds stop)
    (down : ¬ bench.Up stop.links) :
    (∀ j, checkReads sane ≤ j → j < stop.links + 1 → ¬ bench.Up j) ∧
      bench.clock 0 + 2 * params.hz.toNat ≤ bench.clock (stop.clocks - 1) := by
  obtain ⟨result, after, ran, gaveUp, hw⟩ :=
    stops_gives_up params card timeslot accepted stops down mod cell log
  have found := holds (rounds + 1) _ _ ran gaveUp
  rw [hw] at found
  exact found

/-- A wrap before the deadline ends the wait at once. -/
theorem wrapSafe_of_forWantOfLink (accepted : bench.Accepted sane)
    (fits : 2 * params.hz.toNat < 4294967296)
    (holds : ∀ fuel, Program.Finally (handler bench.env)
      (wcfxsInitVoicedaa { params with fuel := fuel } card timeslot sane) (fresh mod cell log)
      (bench.ForWantOfLink params.hz (checkReads sane))) :
    bench.WrapSafe params.hz (checkReads sane) := by
  by_contra broken
  obtain ⟨wraps, not_yet, down⟩ : _ ∧ _ ∧ _ := by
    simpa only [Bench.WrapSafe, not_or] using broken
  obtain ⟨late, early⟩ := early_late (bench.forward (Nat.zero_le 1)) fits wraps not_yet
  have stops : bench.Stops (bench.newjiffies params.hz) ⟨1, checkReads sane⟩ 0
      ⟨2, checkReads sane⟩ :=
    ⟨by simp, .inl ⟨by rw [ticks_lt]; exact late, rfl⟩⟩
  have elapsed := (stops_of_forWantOfLink accepted holds stops down).2
  exact absurd elapsed (Nat.not_le.mpr early)

/-- A link that is up when the wait ends, and down at the next reading, has not been down all the time. -/
theorem staysUp_of_forWantOfLink (accepted : bench.Accepted sane)
    (holds : ∀ fuel, Program.Finally (handler bench.env)
      (wcfxsInitVoicedaa { params with fuel := fuel } card timeslot sane) (fresh mod cell log)
      (bench.ForWantOfLink params.hz (checkReads sane))) :
    bench.StaysUp params.hz (checkReads sane) := by
  intro rounds downs before up
  by_contra gone
  have stops : bench.Stops (bench.newjiffies params.hz) ⟨1, checkReads sane⟩ rounds
      ⟨1 + rounds + 1, checkReads sane + rounds + 1⟩ :=
    ⟨fun t inside => ⟨before t inside.le, downs t inside⟩, .inr ⟨before rounds le_rfl, up, rfl⟩⟩
  have allDown := (stops_of_forWantOfLink accepted holds stops gone).1
  exact allDown (checkReads sane + rounds) (Nat.le_add_right _ _) (Nat.lt_succ_of_lt (Nat.lt_succ_self _)) up

/-- On a bench that is safe the initialisation gives up for want of a link only. -/
theorem forWantOfLink_of_safe (accepted : bench.Accepted sane) (fits : 2 * params.hz.toNat < 4294967296)
    (safe : bench.WrapSafe params.hz (checkReads sane)) (stays : bench.StaysUp params.hz (checkReads sane))
    (fuel : Nat) :
    Program.Finally (handler bench.env)
      (wcfxsInitVoicedaa { params with fuel := fuel } card timeslot sane) (fresh mod cell log)
      (bench.ForWantOfLink params.hz (checkReads sane)) := by
  obtain ⟨⟨mod', cell', hw, log'⟩, hwEq, runEq⟩ :=
    reaches_link { params with fuel := fuel } card timeslot accepted (fresh mod cell log)
  obtain rfl : hw = ⟨0, checkReads sane⟩ := by simpa [fresh] using hwEq
  intro result after ran gaveUp
  rw [runEq] at ran
  obtain ⟨rounds, stop, stops, down, hwAfter⟩ :=
    initVoicedaaLink_finally { params with fuel := fuel } card _ _ _ ran gaveUp
  rw [hwAfter]
  exact stops_forWantOfLink fits safe stays stops down

end GivingUp

/-- **The initialisation gives up only for want of a link just if** the chip is rejected, or `jiffies` wraps
where it does no harm and a link that ends the wait is up at the next reading too. -/
theorem gives_up_iff (bench : Bench) (params : Params) (card : Card) (timeslot : UInt8) (sane : Bool)
    (fits : 2 * params.hz.toNat < 4294967296) (mod : Bytes) (cell : Cell → Int) (log : List Event) :
    (∀ fuel, Program.Finally (handler bench.env)
        (wcfxsInitVoicedaa { params with fuel := fuel } card timeslot sane) (fresh mod cell log)
        (bench.ForWantOfLink params.hz (checkReads sane))) ↔
      ¬ bench.Accepted sane ∨
        (bench.WrapSafe params.hz (checkReads sane) ∧ bench.StaysUp params.hz (checkReads sane)) := by
  by_cases accepted : bench.Accepted sane
  case neg =>
    refine iff_of_true (fun fuel => ?_) (.inl accepted)
    refine (rejected accepted _).mono fun result after failed gaveUp => ?_
    rw [failed] at gaveUp
    exact absurd gaveUp (by decide)
  constructor
  · intro holds
    exact .inr ⟨wrapSafe_of_forWantOfLink accepted fits holds, staysUp_of_forWantOfLink accepted holds⟩
  · rintro (rejected | ⟨safe, stays⟩) fuel
    · exact absurd accepted rejected
    · exact forWantOfLink_of_safe accepted fits safe stays fuel

/-- A link that comes up at its third reading, and a clock that counts on by 10. -/
def slowLink : Bench where
  clock i := 10 * i
  forward _ _ order := Nat.mul_le_mul_left 10 order
  link j := if j < 2 then 0x00 else 0x10
  other _ := 3

theorem gives_up_slow :
    Program.Finally (handler slowLink.env)
      (wcfxsInitVoicedaa { Params.default with fuel := 8 } 0 0 true) (fresh (fun _ => 0) (fun _ => 0) [])
      (slowLink.ForWantOfLink 100 0) := by
  refine (gives_up_iff slowLink .default 0 0 true (by decide) _ _ _).mpr (.inr ⟨.inl (by decide), ?_⟩) 8
  intro rounds _ _ up
  have late : ¬ checkReads true + rounds < 2 := by
    intro soon
    refine up ?_
    show (if _ < 2 then 0x00 else 0x10 : UInt8) &&& 0xf0 = 0
    rw [if_pos soon]
    rfl
  have later : ¬ checkReads true + rounds + 1 < 2 := by omega
  show (if _ < 2 then 0x00 else 0x10 : UInt8) &&& 0xf0 ≠ 0
  rw [if_neg later]
  decide

/-- A clock six ticks before the wrap, and a link that is down. -/
def lastTicks : Bench where
  clock i := 4294967290 + i
  forward _ _ order := Nat.add_le_add_left order _
  link _ := 0x00
  other _ := 3

/-- **Six ticks before the wrap** the initialisation gives up one tick after the wait began. -/
theorem gives_up_at_once :
    ¬ ∀ (bench : Bench) (params : Params) (card : Card) (timeslot : UInt8) (sane : Bool) (mod : Bytes)
      (cell : Cell → Int) (log : List Event),
        Program.Finally (handler bench.env) (wcfxsInitVoicedaa params card timeslot sane)
          (fresh mod cell log) (bench.ForWantOfLink params.hz (checkReads sane)) := by
  intro always
  have stops : lastTicks.Stops (lastTicks.newjiffies 100) ⟨1, 0⟩ 0 ⟨2, 0⟩ :=
    ⟨by simp, .inl ⟨by decide, rfl⟩⟩
  obtain ⟨result, after, ran, gaveUp, hw⟩ := stops_gives_up .default 0 0
    (show lastTicks.Accepted true from .inl rfl) stops (by decide) (fun _ => 0) (fun _ => 0) []
  have found := (always lastTicks { Params.default with fuel := 1 } 0 0 true _ _ _ _ _ ran gaveUp).2
  rw [hw] at found
  exact absurd found (by decide)

end Initialisation

end Baps.Wcfxs
