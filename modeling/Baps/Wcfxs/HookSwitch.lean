/-
**The hook switch of an FXS card is debounced over nine polls.**

`wcfxs_proslic_check_hook` keeps four variables for a card: the hook bit it read last, a timer, the
bit it trusts and the bit it has reported. A bit that differs from the last one starts the timer at
256; each further equal bit takes 32 off, and at zero the bit is trusted and, if it is news, reported.
`Follows` says that this is `hookDebouncer`, the debouncer that reports a bit after nine equal ones.

* `checkHook_follows` — **a poll is a step of the debouncer**, and signals what it reports; also
  when the poll re-initialises the card.
* `hook_debounced` — **the window rule for every run of polls**: OFFHOOK and ONHOOK are signalled
  exactly after nine equal bits that are news, and alternate.
-/

import Baps.Gsm.Control
import Baps.Signal.Debounce
import Baps.Wcfxs.LineFeed
import Baps.Wcfxs.Polls

namespace Baps.Wcfxs

open Interaction Memory Signal

/-! ### The variables -/

/-- The variables of the debouncer. -/
def hookVars : List FxsVar := [.oldrxhook, .debouncehook, .lastrxhook, .debounce]

/-- They are as before. -/
def SameHook {σ : Type} (card : Card) (world after : World σ) : Prop :=
  ∀ var ∈ hookVars, SameVar var card world after

/-- A request that stores into none of them. -/
def SparesHook (card : Card) (op : Op) : Prop := ∀ var ∈ hookVars, SparesVar var card op

section Variables

variable {σ α : Type} {env : Env σ} {card : Card} {world after : World σ}

theorem fxsInt_stored {var : FxsVar} {value : Int} (lower : -2147483648 ≤ value)
    (upper : value < 2147483648) : fxsInt var card (stored var card value world) = value :=
  readInt_writeInt lower upper

theorem fxsInt_stored_ne {var other : FxsVar} (ne : other ≠ var) (value : Int) :
    fxsInt var card (stored other card value world) = fxsInt var card world :=
  readInt_store ne world.mod value

theorem SameHook.trans {first middle last : World σ} (start : SameHook card first middle)
    (finish : SameHook card middle last) : SameHook card first last :=
  fun var member => (start var member).trans (finish var member)

theorem SameHook.of_every {program : Prog α} (every : program.Every (SparesHook card)) :
    Program.Respects (handler env) (SameHook card) program := fun world value after ran var member =>
  SameVar.of_every (every.mono fun _ spares => spares var member) world value after ran

theorem SparesHook.of_uses {c : Card} {reads writes : List UInt8} (op : Op)
    (uses : Uses c reads writes op) : SparesHook card op := fun _ _ => SparesVar.of_uses op uses

theorem SparesHook.store {other : FxsVar} (ne : ∀ var ∈ hookVars, other ≠ var) (value : Int) :
    SparesHook card (.storeInt (other.offset card) value) :=
  fun var member => SparesVar.of_ne (ne var member) value

end Variables

/-! ### What happens between two polls -/

section Between

variable {σ : Type} {env : Env σ} {card : Card} {world after : World σ} {params : Params}
  {modtype : Card → ModType}

theorem hooksig_sparesHook (fxs : modtype card = .fxs) (txsig : TxSig) (sig : Signalling) :
    (wcfxsHooksig params modtype card txsig sig).Every (SparesHook card) := by
  have store : ∀ value, (fxsStore .lasttxhook card value).Every (SparesHook card) :=
    fun value => .call (SparesHook.store (by decide) value)
  have idle : (idleLinefeed card).Every (SparesHook card) := .step (fun _ _ => trivial) fun _ => store _
  rw [wcfxsHooksig, fxs]
  refine .bind ?_ fun _ => .bind (.when fun _ => ?_) fun _ => ?_
  · cases txsig with
    | onhook =>
      refine .step (fun _ _ => trivial) fun _ => ?_
      cases sig with
      | fxogs => exact store 3
      | other => trivial
      | _ => exact idle
    | offhook =>
      refine .step (fun _ _ => trivial) fun _ => ?_
      cases sig with
      | em => exact store 5
      | _ => exact idle
    | start => exact .step (fun _ _ => trivial) fun _ => store 4
    | kewl => exact store 0
  · have uses : (getregs card [64]).Every (Uses card [64] []) := Uses.getregs fun _ member => member
    exact uses.mono SparesHook.of_uses
  · exact .step (fun _ _ => trivial) fun _ => .call fun _ _ => trivial

theorem ioctl_sparesHook (request : Ioctl) :
    (wcfxsIoctl params modtype card request).Every (SparesHook card) := by
  by_cases transfer : ∃ data, request = .onhookTransfer data
  · obtain ⟨data, rfl⟩ := transfer
    refine .ite (fun _ => trivial) fun _ => ?_
    cases data with
    | none => trivial
    | some x =>
      refine .step (SparesHook.store (by decide) _) fun _ => .bind (.when fun _ => ?_) fun _ => trivial
      refine .step (SparesHook.store (by decide) _) fun _ => .step (fun _ _ => trivial) fun _ => ?_
      refine .when fun _ => .step (SparesHook.store (by decide) _) fun _ => ?_
      exact .step (fun _ _ => trivial) fun _ => .call fun _ _ => trivial
  · rw [not_exists] at transfer
    exact ioctl_every (fun _ _ _ => trivial) SparesHook.of_uses (fun _ _ _ => trivial) transfer
      fun _ _ _ _ _ => trivial

theorem entry_sparesHook (fxs : modtype card = .fxs) {point : EntryPoint} (other : point ≠ .poll) :
    (Entry.prog params modtype ⟨card, point⟩).Every (SparesHook card) := by
  cases point with
  | poll => exact absurd rfl other
  | hooksig txsig sig => exact hooksig_sparesHook fxs txsig sig
  | ioctl request => exact .bind (ioctl_sparesHook request) fun _ => trivial
  | close =>
    refine .bind (.step (fun _ _ => trivial) fun _ => .step (fun _ _ => trivial) fun _ => ?_)
      fun _ => trivial
    exact .bind (.when fun _ => .call (SparesHook.store (by decide) 1)) fun _ => trivial

/-- **Every other call into the driver leaves the debouncer of the card alone.** -/
theorem Entry.sameHook (fxs : modtype card = .fxs) {entry : Entry}
    (other : ¬ (entry.card = card ∧ entry.point = .poll))
    (ran : entry.run params modtype env world = some after) : SameHook card world after := by
  by_cases own : entry.card = card
  · subst own
    have point : entry.point ≠ .poll := fun poll => other ⟨rfl, poll⟩
    exact SameHook.of_every (entry_sparesHook fxs point) _ _ _ (Entry.run_some ran)
  · refine Entry.elsewhere_rel (fun _ _ _ => rfl) SameHook.trans ?_ ran
    exact fun op stays _ _ _ answered var _ => (stays.spares var own op).1.same answered

end Between

/-! ### Re-initialisation, in either driver -/

/-- The two versions of the driver. -/
inductive Driver
  | base
  | gsm
  deriving DecidableEq, Repr

/-- The fast re-initialisation `wcfxs_init_proslic(wc, card, 1, 0, 1)`. -/
def Driver.reinit (params : Params) (card : Card) : Driver → Prog Int
  | .base => wcfxsInitProslic params card (cardTimeslot card) true true
  | .gsm => Gsm.reinitProslic params card

/-- `wcfxs_proslic_check_hook`. -/
def Driver.checkHook (driver : Driver) (params : Params) (card : Card) : Prog Unit :=
  wcfxsProslicCheckHook params (driver.reinit params card) card

section Reinit

variable {params : Params} {card : Card}

theorem initProslic_hook {timeslot : UInt8} (fast sane : Bool) :
    (wcfxsInitProslic params card timeslot fast sane).Every (SparesHook card) := by
  have bound := card.isLt
  refine initProslic_every params card (SparesHook.store (by decide) 1) (fun _ _ => SparesHook.of_uses)
    (fun _ _ _ => trivial) (fun x _ _ var member => ?_) timeslot fast sane
  have row : var.index < 8 := by cases var <;> decide
  simp only [SparesVar, FxsVar.offset, calregsOffset]
  omega

theorem initProslic_silent {timeslot : UInt8} (fast sane : Bool) :
    (wcfxsInitProslic params card timeslot fast sane).Every
      fun op => ∀ c sig, op ≠ .ztHooksig c sig := by
  refine initProslic_every params card (by simp) (fun reads writes op uses c sig same => ?_)
    (by simp) (by simp) timeslot fast sane
  subst same
  exact uses

/-- **A re-initialisation leaves the debouncer alone**, and signals nothing. -/
theorem Driver.reinit_quiet (driver : Driver) {σ : Type} {env : Env σ} {world after : World σ}
    {value : Int} (ran : (driver.reinit params card).run (handler env) world = some (value, after)) :
    SameHook card world after ∧ Unsignalled card world after := by
  cases driver with
  | base =>
    exact ⟨SameHook.of_every (initProslic_hook true true) _ _ _ ran,
      Unsignalled.of_every (initProslic_silent true true) _ _ _ ran⟩
  | gsm =>
    have slot : (Driver.reinit params card .gsm).Every (SparesHook card) :=
      .step (fun _ _ => trivial) fun _ => initProslic_hook true true
    have silent : (Driver.reinit params card .gsm).Every fun op => ∀ c sig, op ≠ .ztHooksig c sig :=
      .step (by simp) fun _ => initProslic_silent true true
    exact ⟨SameHook.of_every slot _ _ _ ran, Unsignalled.of_every silent _ _ _ ran⟩

end Reinit

/-! ### A poll, on the four variables -/

/-- The variables of the debouncer. -/
structure HookSwitch where
  lastrxhook : Int
  debounce : Int
  debouncehook : Int
  oldrxhook : Int

/-- The variables of a card. -/
def hookSwitch {σ : Type} (card : Card) (world : World σ) : HookSwitch where
  lastrxhook := fxsInt .lastrxhook card world
  debounce := fxsInt .debounce card world
  debouncehook := fxsInt .debouncehook card world
  oldrxhook := fxsInt .oldrxhook card world

/-- The timer counts down, and at its end the bit is trusted. -/
def HookSwitch.counted (switch : HookSwitch) (hook : Int) : HookSwitch :=
  { switch with
    debounce := switch.debounce - 32
    debouncehook := if switch.debounce = 32 then hook else switch.debouncehook }

/-- A bit that is trusted and news is reported. -/
def HookSwitch.report (switch : HookSwitch) : HookSwitch × List RxSig :=
  if switch.oldrxhook = 0 ∧ switch.debouncehook ≠ 0 then ({ switch with oldrxhook := 1 }, [.offhook])
  else if switch.oldrxhook ≠ 0 ∧ switch.debouncehook = 0 then
    ({ switch with oldrxhook := 0 }, [.onhook])
  else (switch, [])

/-- What a poll that reads `hook` does to the variables, and what it signals. -/
def HookSwitch.step (switch : HookSwitch) (hook : Int) : HookSwitch × List RxSig :=
  let next := if hook ≠ switch.lastrxhook then ({ switch with debounce := 256 }, [])
    else if switch.debounce > 0 then (switch.counted hook).report
    else (switch, [])
  ({ next.1 with lastrxhook := hook }, next.2)

namespace HookSwitch

variable {switch : HookSwitch} {hook : Int}

theorem step_moved (moved : hook ≠ switch.lastrxhook) :
    switch.step hook = ({ switch with lastrxhook := hook, debounce := 256 }, []) := by
  rw [step, if_pos moved]

theorem step_idle (still : hook = switch.lastrxhook) (idle : ¬ switch.debounce > 0) :
    switch.step hook = (switch, []) := by
  rw [step, if_neg (not_not_intro still), if_neg idle, still]

theorem step_counts (still : hook = switch.lastrxhook) (positive : switch.debounce > 0) :
    switch.step hook =
      ({ (switch.counted hook).report.1 with lastrxhook := hook }, (switch.counted hook).report.2) := by
  rw [step, if_neg (not_not_intro still), if_pos positive]

theorem report_off (old : switch.oldrxhook = 0) (trusted : switch.debouncehook ≠ 0) :
    switch.report = ({ switch with oldrxhook := 1 }, [.offhook]) := if_pos ⟨old, trusted⟩

theorem report_on (old : switch.oldrxhook ≠ 0) (trusted : switch.debouncehook = 0) :
    switch.report = ({ switch with oldrxhook := 0 }, [.onhook]) := by
  rw [report, if_neg fun off => old off.1, if_pos ⟨old, trusted⟩]

theorem report_none (notOff : ¬ (switch.oldrxhook = 0 ∧ switch.debouncehook ≠ 0))
    (notOn : ¬ (switch.oldrxhook ≠ 0 ∧ switch.debouncehook = 0)) : switch.report = (switch, []) := by
  rw [report, if_neg notOff, if_neg notOn]

end HookSwitch

section Poll

variable {σ : Type} {env : Env σ} {card : Card} {world after : World σ}

theorem hookSwitch_congr (same : SameHook card world after) :
    hookSwitch card after = hookSwitch card world := by
  have old : fxsInt .oldrxhook card after = _ := same .oldrxhook (by decide)
  have trusted : fxsInt .debouncehook card after = _ := same .debouncehook (by decide)
  have last : fxsInt .lastrxhook card after = _ := same .lastrxhook (by decide)
  have timer : fxsInt .debounce card after = _ := same .debounce (by decide)
  rw [hookSwitch, old, trusted, last, timer]
  rfl

theorem hookRead_small (env : Env σ) (card : Card) (world : World σ) :
    hookRead env card world = 0 ∨ hookRead env card world = 1 := by
  have bit : ((env.getreg card 68 world.hw).1 &&& 1).toNat =
      (env.getreg card 68 world.hw).1.toNat % 2 := by
    rw [UInt8.toNat_and]
    exact Nat.and_one_is_mod _
  unfold hookRead
  omega

theorem hookSwitch_lastrxhook {value : Int} (small : value = 0 ∨ value = 1) :
    hookSwitch card (stored .lastrxhook card value world) =
      { hookSwitch card world with lastrxhook := value } := by
  simp only [hookSwitch, fxsInt_stored_ne, ne_eq, reduceCtorEq, not_false_eq_true]
  rw [fxsInt_stored (by omega) (by omega)]

theorem hookSwitch_oldrxhook {value : Int} (small : value = 0 ∨ value = 1) :
    hookSwitch card (stored .oldrxhook card value world) =
      { hookSwitch card world with oldrxhook := value } := by
  simp only [hookSwitch, fxsInt_stored_ne, ne_eq, reduceCtorEq, not_false_eq_true]
  rw [fxsInt_stored (by omega) (by omega)]

theorem hookSwitch_debounce :
    hookSwitch card (stored .debounce card 256 world) = { hookSwitch card world with debounce := 256 } := by
  simp only [hookSwitch, fxsInt_stored_ne, ne_eq, reduceCtorEq, not_false_eq_true]
  rw [fxsInt_stored (by decide) (by decide)]

/-- The timer and the trusted bit, once the timer has counted. -/
theorem hookSwitch_polled (positive : fxsInt .debounce card world > 0) :
    hookSwitch card (polled env card world) =
      (hookSwitch card world).counted (hookRead env card world) := by
  have upper : fxsInt .debounce card world < 2147483648 := readInt_lt _ _
  have small := hookRead_small env card world
  have counted : readInt (writeInt world.mod (FxsVar.debounce.offset card)
      (fxsInt .debounce card world - 4 * 8)) (FxsVar.debounce.offset card) =
        fxsInt .debounce card world - 32 := readInt_writeInt (by omega) (by omega)
  have old : fxsInt .oldrxhook card (polled env card world) = _ :=
    readInt_countedDown env card world (by decide) (by decide)
  have last : fxsInt .lastrxhook card (polled env card world) = _ :=
    readInt_countedDown env card world (by decide) (by decide)
  have both : fxsInt .debounce card (polled env card world) = fxsInt .debounce card world - 32 ∧
      fxsInt .debouncehook card (polled env card world) =
        if fxsInt .debounce card world = 32 then hookRead env card world
        else fxsInt .debouncehook card world := by
    show readInt (countedDown env card world) _ = _ ∧ readInt (countedDown env card world) _ = _
    simp only [countedDown]
    by_cases zero : fxsInt .debounce card world = 32
    · rw [if_pos (by rw [counted]; omega), if_pos zero, readInt_store (by decide)]
      exact ⟨counted, readInt_writeInt (by omega) (by omega)⟩
    · rw [if_neg (by rw [counted]; omega), if_neg zero]
      exact ⟨counted, readInt_store (by decide) _ _⟩
  rw [hookSwitch, old, last, both.1, both.2]
  rfl

theorem hookSwitch_old (card : Card) (world : World σ) :
    (hookSwitch card world).oldrxhook = fxsInt .oldrxhook card world := rfl

theorem hookSwitch_trusted (card : Card) (world : World σ) :
    (hookSwitch card world).debouncehook = fxsInt .debouncehook card world := rfl

theorem fxsInt_polled (env : Env σ) (card : Card) (world : World σ) (var : FxsVar) :
    fxsInt var card (polled env card world) =
      readInt (countedDown env card world) (var.offset card) := rfl

theorem goesOffHook_iff : GoesOffHook env card world ↔
    hookRead env card world = fxsInt .lastrxhook card world ∧ fxsInt .debounce card world > 0 ∧
      (hookSwitch card (polled env card world)).oldrxhook = 0 ∧
      (hookSwitch card (polled env card world)).debouncehook ≠ 0 := by
  rw [hookSwitch_old, hookSwitch_trusted, fxsInt_polled, fxsInt_polled]
  rfl

theorem goesOnHook_iff : GoesOnHook env card world ↔
    hookRead env card world = fxsInt .lastrxhook card world ∧ fxsInt .debounce card world > 0 ∧
      (hookSwitch card (polled env card world)).oldrxhook ≠ 0 ∧
      (hookSwitch card (polled env card world)).debouncehook = 0 := by
  rw [hookSwitch_old, hookSwitch_trusted, fxsInt_polled, fxsInt_polled]
  rfl

theorem offHook_switch (env : Env σ) (card : Card) (world : World σ) :
    hookSwitch card (offHook env card world) = hookSwitch card (polled env card world) := rfl

theorem onHook_switch (env : Env σ) (card : Card) (world : World σ) :
    hookSwitch card (onHook env card world) = hookSwitch card (polled env card world) := rfl

/-- A poll that lets the timer run. -/
theorem step_polled (still : hookRead env card world = fxsInt .lastrxhook card world)
    (positive : fxsInt .debounce card world > 0) :
    (hookSwitch card world).step (hookRead env card world) =
      ({ (hookSwitch card (polled env card world)).report.1 with lastrxhook := hookRead env card world },
        (hookSwitch card (polled env card world)).report.2) := by
  have same : hookRead env card world = (hookSwitch card world).lastrxhook := still
  have counts : (hookSwitch card world).debounce > 0 := positive
  rw [HookSwitch.step_counts same counts, hookSwitch_polled positive]

/-- **A poll is a step of the variables.** -/
theorem checkHook_step {driver : Driver} {params : Params}
    (ran : (driver.checkHook params card).run (handler env) world = some ((), after)) :
    hookSwitch card after = ((hookSwitch card world).step (hookRead env card world)).1 ∧
      rxSigs card after.log =
        rxSigs card world.log ++ ((hookSwitch card world).step (hookRead env card world)).2 := by
  have small := hookRead_small env card world
  have seen : rxSigs card (hookSeen env card world).log = rxSigs card world.log := rxSigs_read _ _ _ _
  have counted : rxSigs card (polled env card world).log = rxSigs card world.log := rxSigs_read _ _ _ _
  have same : hookSwitch card (hookSeen env card world) = hookSwitch card world := rfl
  obtain ⟨last, rfl, cases⟩ := checkHook_run ran
  rw [hookSwitch_lastrxhook small, stored_log]
  rcases cases with ⟨changed, rfl⟩ | ⟨still, idle, rfl⟩ | ⟨goes, middle, rfl, again⟩ | ⟨goes, rfl⟩ |
    ⟨still, positive, notOff, notOn, rfl⟩
  · rw [hookSwitch_debounce, same, stored_log, seen, HookSwitch.step_moved changed]
    exact ⟨rfl, (List.append_nil _).symm⟩
  · rw [same, seen, HookSwitch.step_idle still idle, still]
    exact ⟨rfl, (List.append_nil _).symm⟩
  · have quiet : SameHook card (offHook env card world) middle ∧
        Unsignalled card (offHook env card world) middle := by
      split at again
      · obtain ⟨value, again⟩ := again
        exact driver.reinit_quiet again
      · subst again
        exact ⟨fun _ _ => rfl, rfl⟩
    obtain ⟨still, positive, old, off⟩ := goesOffHook_iff.mp goes
    rw [step_polled still positive, HookSwitch.report_off old off, hookSwitch_oldrxhook (.inr rfl),
      hookSwitch_congr quiet.1, stored_log, show rxSigs card middle.log = _ from quiet.2, offHook_switch, offHook, rxSigs_signalled, counted]
    exact ⟨rfl, rfl⟩
  · obtain ⟨still, positive, old, on⟩ := goesOnHook_iff.mp goes
    rw [step_polled still positive, HookSwitch.report_on old on, hookSwitch_oldrxhook (.inl rfl), stored_log,
      onHook_switch, onHook, rxSigs_signalled, counted]
    exact ⟨rfl, rfl⟩
  · rw [goesOffHook_iff] at notOff
    rw [goesOnHook_iff] at notOn
    rw [step_polled still positive, HookSwitch.report_none (fun off => notOff ⟨still, positive, off⟩)
      fun on => notOn ⟨still, positive, on⟩, counted]
    exact ⟨rfl, (List.append_nil _).symm⟩

end Poll

/-! ### The debouncer -/

/-- The debouncer of hook bits: nine in a row. -/
def hookDebouncer : Debouncer Bool where
  away := fun reported bit => bit ≠ reported
  threshold := 9
  decide := fun _ _ => inferInstance
  exclusive := by simp

/-- A hook state, as the variables hold it. -/
def hookBit (state : Bool) : Int := if state then 1 else 0

/-- A hook state, as zaptel is told it. -/
def hookSig : Bool → RxSig
  | true => .offhook
  | false => .onhook

/-- The variables stand for a state of the debouncer. The timer counts only while the last bit is not
the one reported. -/
structure Follows (switch : HookSwitch) (state : Debounced) : Prop where
  old : switch.oldrxhook = hookBit state.reported
  trusted : switch.debouncehook = hookBit state.reported
  timer : (switch.lastrxhook = hookBit state.reported ∧ state.streak = 0) ∨
    (switch.lastrxhook = hookBit (!state.reported) ∧ 1 ≤ state.streak ∧ state.streak ≤ 8 ∧
      switch.debounce = 288 - 32 * state.streak)

theorem hookBit_inj {first second : Bool} : hookBit first = hookBit second ↔ first = second := by
  cases first <;> cases second <;> decide

/-- A step that changes no report, and one that does. -/
theorem hookDebouncer_step (state : Debounced) (bit : Bool) :
    hookDebouncer.step state bit =
      if bit = state.reported then ⟨state.reported, 0⟩
      else if state.streak < 8 then ⟨state.reported, state.streak + 1⟩
      else ⟨bit, 0⟩ := by
  unfold Debouncer.step hookDebouncer
  by_cases agrees : bit = state.reported
  · simp [agrees]
  · have flipped : (!state.reported) = bit := (Bool.eq_not.mpr agrees).symm
    simp only [ne_eq, agrees, not_false_eq_true, if_true, if_false, flipped]
    split <;> split <;> first | rfl | omega

/-- A report of the bit that is trusted, unless it has been reported. -/
theorem report_hookBit {switch : HookSwitch} {reported trusted : Bool}
    (old : switch.oldrxhook = hookBit reported) (new : switch.debouncehook = hookBit trusted) :
    switch.report = ({ switch with oldrxhook := hookBit trusted },
      if trusted = reported then [] else [hookSig trusted]) := by
  cases reported <;> cases trusted
  · rw [HookSwitch.report_none (fun off => off.2 new) fun on => on.1 old, ← show switch.oldrxhook = _ from old]
    rfl
  · exact HookSwitch.report_off old (by rw [new]; decide)
  · exact HookSwitch.report_on (by rw [old]; decide) new
  · rw [HookSwitch.report_none (fun off => by rw [old] at off; exact absurd off.1 (by decide))
      fun on => by rw [new] at on; exact absurd on.2 (by decide), ← show switch.oldrxhook = _ from old]
    rfl

/-- **A step of the variables is a step of the debouncer.** -/
theorem Follows.step {switch : HookSwitch} {state : Debounced} (follows : Follows switch state)
    (bit : Bool) :
    Follows (switch.step (hookBit bit)).1 (hookDebouncer.step state bit) ∧
      (switch.step (hookBit bit)).2 =
        if (hookDebouncer.step state bit).reported = state.reported then []
        else [hookSig (hookDebouncer.step state bit).reported] := by
  obtain ⟨old, trusted, timer⟩ := follows
  rw [hookDebouncer_step]
  by_cases agrees : bit = state.reported
  · -- the streak is over, or there was none
    rw [if_pos agrees, if_pos rfl, ← agrees]
    rw [← agrees] at old trusted timer
    rcases timer with ⟨last, -⟩ | ⟨last, -, -, -⟩
    · by_cases positive : switch.debounce > 0
      · have still : (switch.counted (hookBit bit)).debouncehook = hookBit bit := by
          simp [HookSwitch.counted, trusted]
        have reported : (switch.counted (hookBit bit)).report = _ := report_hookBit old still
        rw [HookSwitch.step_counts last.symm positive, reported, if_pos rfl]
        exact ⟨⟨rfl, still, .inl ⟨rfl, rfl⟩⟩, rfl⟩
      · rw [HookSwitch.step_idle last.symm positive]
        exact ⟨⟨old, trusted, .inl ⟨last, rfl⟩⟩, rfl⟩
    · rw [HookSwitch.step_moved (by rw [last, Ne, hookBit_inj]; simp)]
      exact ⟨⟨old, trusted, .inl ⟨rfl, rfl⟩⟩, rfl⟩
  · have other : (!state.reported) = bit := (Bool.eq_not.mpr agrees).symm
    rw [if_neg agrees]
    rw [other] at timer
    rcases timer with ⟨last, none⟩ | ⟨last, some, few, count⟩
    · rw [HookSwitch.step_moved (by rw [last, Ne, hookBit_inj]; exact agrees), none, if_pos (by decide),
        if_pos rfl]
      exact ⟨⟨old, trusted, .inr ⟨by rw [other], by simp, by simp, rfl⟩⟩, rfl⟩
    · have positive : switch.debounce > 0 := by omega
      by_cases short : state.streak < 8
      · have still : (switch.counted (hookBit bit)).debouncehook = hookBit state.reported := by
          rw [HookSwitch.counted, if_neg (by omega)]
          exact trusted
        have reported : (switch.counted (hookBit bit)).report = _ := report_hookBit old still
        rw [HookSwitch.step_counts last.symm positive, reported, if_pos rfl, if_pos short, if_pos rfl]
        refine ⟨⟨rfl, still, .inr ⟨by rw [other], by simp, by simp only; omega, ?_⟩⟩, rfl⟩
        show switch.debounce - 32 = 288 - 32 * ((state.streak + 1 : Nat) : Int)
        omega
      · have full : state.streak = 8 := by omega
        have new : (switch.counted (hookBit bit)).debouncehook = hookBit bit := by
          rw [HookSwitch.counted, if_pos (by rw [count, full]; rfl)]
        have reported : (switch.counted (hookBit bit)).report = _ := report_hookBit old new
        rw [HookSwitch.step_counts last.symm positive, reported, if_neg short]
        exact ⟨⟨rfl, new, .inl ⟨rfl, rfl⟩⟩, rfl⟩

/-! ### Runs of polls -/

section Runs

variable {σ : Type} {env : Env σ} {params : Params} {card : Card} {driver : Driver} {count : Nat}
  (polls : PollRun env (driver.checkHook params card) (SameHook card) count)

/-- The hook bit that poll `n` reads. -/
def PollRun.hook (n : Nat) : Int := hookRead env card (polls.before n)

/-- The last nine polls up to `n` read a bit. -/
def PollRun.Held (value : Int) (n : Nat) : Prop :=
  8 ≤ n ∧ ∀ i, n - 8 ≤ i → i ≤ n → polls.hook i = value

/-- The hook state signalled last before poll `n`; at the start a card is on hook. -/
def PollRun.lastSignal (n : Nat) : RxSig := (outputs (polls.signals card) n).getLastD .onhook

/-- The debouncer before poll `n`. -/
def PollRun.debounced (n : Nat) : Debounced :=
  hookDebouncer.state ⟨false, 0⟩ (fun i => decide (polls.hook i ≠ 0)) n

theorem PollRun.hook_eq (n : Nat) : polls.hook n = hookBit (decide (polls.hook n ≠ 0)) := by
  have small : polls.hook n = 0 ∨ polls.hook n = 1 := hookRead_small env card (polls.before n)
  rcases small with low | high
  · rw [low]
    rfl
  · rw [high]
    rfl

/-- **One poll**: the variables go on following the debouncer, and the poll signals what it reports. -/
theorem PollRun.follows_step {n : Nat} (inside : n < count)
    (follows : Follows (hookSwitch card (polls.before n)) (polls.debounced n)) :
    Follows (hookSwitch card (polls.after n)) (polls.debounced (n + 1)) ∧
      AtTurns (polls.signals card) hookSig (fun n => (polls.debounced n).reported) n := by
  obtain ⟨switch, sigs⟩ := checkHook_step (polls.ran n inside)
  have read : hookRead env card (polls.before n) = hookBit (decide (polls.hook n ≠ 0)) :=
    polls.hook_eq n
  obtain ⟨next, reported⟩ := follows.step (decide (polls.hook n ≠ 0))
  rw [read] at switch sigs
  exact ⟨switch ▸ next, (rxSigs_since (run_log (polls.ran n inside)) sigs).trans reported⟩

/-- **Every poll** starts with variables that follow the debouncer. -/
theorem PollRun.follows (zero : ∀ var ∈ hookVars, fxsInt var card (polls.before 0) = 0) {n : Nat}
    (inside : n < count) : Follows (hookSwitch card (polls.before n)) (polls.debounced n) := by
  induction n with
  | zero => exact ⟨zero .oldrxhook (by decide), zero .debouncehook (by decide),
      .inl ⟨zero .lastrxhook (by decide), rfl⟩⟩
  | succ n ih =>
    rw [hookSwitch_congr (polls.between n inside)]
    exact (polls.follows_step (by omega) (ih (by omega))).1

/-- A window of the debouncer is nine polls that read the other bit. -/
theorem PollRun.window_iff {reported : Bool} {n : Nat} :
    Debouncer.Window hookDebouncer reported (fun i => decide (polls.hook i ≠ 0)) 9 n ↔
      polls.Held (hookBit (!reported)) n := by
  have other : ∀ i, hookDebouncer.away reported (decide (polls.hook i ≠ 0)) ↔
      polls.hook i = hookBit (!reported) := by
    intro i
    have read := polls.hook_eq i
    generalize decide (polls.hook i ≠ 0) = bit at read ⊢
    rw [read, hookBit_inj]
    exact Bool.eq_not.symm
  unfold Debouncer.Window PollRun.Held
  simp only [other]
  constructor
  · rintro ⟨long, all⟩
    exact ⟨by omega, fun i recent inside => all i inside (by omega)⟩
  · rintro ⟨long, all⟩
    exact ⟨by omega, fun i inside recent => all i (by omega) inside⟩

/-- **FXS hook switch debouncing.** From zeroed variables, in every run of polls: OFFHOOK is signalled
at a poll exactly if it and the eight before read 1 and the state signalled last is on hook, ONHOOK
exactly if they read 0 and it is off hook, and the signals alternate, starting with OFFHOOK. -/
theorem hook_debounced (driver : Driver) (params : Params) (card : Card) {σ : Type} (env : Env σ)
    (count : Nat) (polls : PollRun env (driver.checkHook params card) (SameHook card) count)
    (zero : ∀ var ∈ hookVars, fxsInt var card (polls.before 0) = 0) :
    (∀ n < count,
      (.offhook ∈ polls.signals card n ↔ polls.Held 1 n ∧ polls.lastSignal n = .onhook) ∧
      (.onhook ∈ polls.signals card n ↔ polls.Held 0 n ∧ polls.lastSignal n = .offhook)) ∧
    (∀ sig ∈ outputs (polls.signals card) count, sig = .offhook ∨ sig = .onhook) ∧
    (outputs (polls.signals card) count).IsChain (· ≠ ·) ∧
    ∀ first ∈ (outputs (polls.signals card) count).head?, first = .offhook := by
  have turns : ∀ n < count,
      AtTurns (polls.signals card) hookSig (fun n => (polls.debounced n).reported) n :=
    fun n inside => (polls.follows_step inside (polls.follows zero inside)).2
  have alternates : ∀ n ≤ count, Alternates hookSig false (outputs (polls.signals card) n) ∧
      polls.lastSignal n = hookSig (polls.debounced n).reported :=
    fun n inside => outputs_turns (by decide) fun i early => turns i (by omega)
  obtain ⟨named, neighbours, first⟩ := (alternates count le_rfl).1
  refine ⟨fun n inside => ?_, named, neighbours, first⟩
  have windows : hookDebouncer.Turns (polls.debounced n) (decide (polls.hook n ≠ 0)) ↔
      polls.Held (hookBit (!(polls.debounced n).reported)) n := by
    rw [← polls.window_iff]
    refine (Debouncer.turns_iff (by decide) n).trans ⟨?_, .inl⟩
    rintro (window | ⟨full, window⟩)
    · exact window
    · exact (show n + 1 = 9 from full) ▸ window
  have signalled : ∀ state, hookSig state ∈ polls.signals card n ↔
      polls.Held (hookBit state) n ∧ polls.lastSignal n = hookSig (!state) := by
    intro state
    rw [mem_out_iff (by decide) (turns n inside) state, (alternates n inside.le).2]
    show hookDebouncer.Turns (polls.debounced n) _ ∧ (polls.debounced n).reported = _ ↔ _
    rw [windows]
    cases state <;> cases (polls.debounced n).reported <;> simp [hookSig]
  exact ⟨signalled true, signalled false⟩

end Runs

/-! ### A handset that is lifted -/

open Gsm (firstSlot)

/-- Every register reads 1. -/
def lifted : Env Unit where
  setreg := fun _ _ _ => id
  getreg := fun _ _ => (1, ·)
  setLed := fun _ _ => id
  forgetCard := id
  gsmSend := fun _ _ => id
  gsmReceive := fun _ => ([], ·)
  uart := fun _ _ => (0, ·)
  jiffies := (0, ·)
  waitJustABit := fun _ => id
  copyToUser := fun _ => (false, ·)

theorem lifted_ends : ∀ n < 10,
    ((Driver.base.checkHook Params.default firstSlot).run (handler lifted)
      (PollRun.again lifted (Driver.base.checkHook Params.default firstSlot) (start () fun _ => 0)
        n)).isSome := by
  decide +kernel

/-- Ten polls of a card whose handset is off hook from the first one on. -/
def liftedPolls :
    PollRun lifted (Driver.base.checkHook Params.default firstSlot) (SameHook firstSlot) 10 :=
  PollRun.repeated lifted _ _ (fun _ _ _ => rfl) (start () fun _ => 0) 10 lifted_ends

/-- The ninth poll signals OFFHOOK. -/
theorem hook_debounced_lifted : .offhook ∈ liftedPolls.signals 0 8 := by
  have zero : ∀ var ∈ hookVars, fxsInt var firstSlot (liftedPolls.before 0) = 0 := by decide +kernel
  have silent : liftedPolls.lastSignal 8 = .onhook := by decide +kernel
  have read : ∀ n, liftedPolls.hook n = 1 := by
    intro n
    show (((1 : UInt8) &&& 1).toNat : Int) = 1
    decide
  have signalled := (hook_debounced .base Params.default firstSlot lifted 10 liftedPolls zero).1
  exact (signalled 8 (by decide)).1.mpr ⟨⟨by decide, fun i _ _ => read i⟩, silent⟩

end Baps.Wcfxs
