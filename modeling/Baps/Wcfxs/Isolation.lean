/-
**Per-card isolation of the driver's state.**

A `Call` is one driver operation on one card. The run of a call keeps, besides the world, the history
variable `saved`: the calibration bytes each card's last full initialisation read from the chip and
stored.

* `Call.run_outside` — the frame of a call: only bytes of its own card change.
* `saved_run` — along every run of calls, a card's `calregs` hold what its last full
  initialisation saved, as long as the cards keep apart.
* `isolated_iff` — **the exact condition**: calls leave the state of all other cards alone, and fast
  initialisations write the saved calibration back, just when no FXO module sits in a slot `i` while
  slot `i / 3` holds an FXS module.
-/

import Baps.Wcfxs.Hook

namespace Baps.Wcfxs

open Interaction Memory

/-! ### Calls and their runs -/

/-- A driver operation on a card. `checkHook` is `wcfxs_voicedaa_check_hook` or
`wcfxs_proslic_check_hook`, by module type. -/
inductive CardOp
  | checkHook
  | initProslic (fast sane : Bool)
  | hooksig (txsig : TxSig) (sig : Signalling)
  | onhookTransfer (data : Option Int)
  | close

/-- One driver operation on one card. -/
structure Call where
  card : Card
  op : CardOp

/-- A full initialisation, the only operation that calibrates. -/
def CardOp.full : CardOp → Bool
  | .initProslic fast _ => !fast
  | _ => false

/-- A ProSLIC is only initialised where there is one. -/
def Call.Legal (modtype : Card → ModType) (call : Call) : Prop :=
  ∀ fast sane, call.op = .initProslic fast sane → modtype call.card = .fxs

section Run

variable (params : Params) (modtype : Card → ModType)

/-- The program of a call, with its return value. -/
def Call.prog (call : Call) : Prog Int :=
  match call.op with
  | .checkHook => do
      checkCard params modtype call.card
      pure 0
  | .initProslic fast sane =>
      wcfxsInitProslic params call.card (cardTimeslot call.card) fast sane
  | .hooksig txsig sig => do
      wcfxsHooksig params modtype call.card txsig sig
      pure 0
  | .onhookTransfer data => wcfxsIoctl params modtype call.card (.onhookTransfer data)
  | .close => wcfxsClose modtype call.card

variable {σ : Type} (env : Env σ)

/-- The run of one call: its return value and the world after it. -/
def Call.run (call : Call) (world : World σ) : Option (Int × World σ) :=
  (call.prog params modtype).run (handler env) world

/-- The value of a register read on a card, if this exchange is one. -/
def readOf (card : Card) (reg : UInt8) : Event → Option UInt8
  | .read c r value => if c = card ∧ r = reg then some value else none
  | _ => none

/-- The last value read from a register of a card. -/
def lastRead (card : Card) (reg : UInt8) (log : List Event) : Option UInt8 :=
  (log.filterMap (readOf card reg)).getLast?

/-- The calibration vector a full initialisation saved, from its exchanges: the last values of
registers 96 to 107, unless it gave up before reading them all. -/
def calibration (card : Card) (log : List Event) : Option (Nat → UInt8) :=
  if ∀ x ∈ List.range 12, (lastRead card (calReg x) log).isSome then
    some fun x => (lastRead card (calReg x) log).getD 0
  else none

/-- A world and, for each card, what its last full initialisation saved. -/
structure Tracked (σ : Type) where
  world : World σ
  saved : Card → Option (Nat → UInt8)

/-- The saved calibration vectors after a call. -/
def Call.track (call : Call) (log : List Event) (saved : Card → Option (Nat → UInt8)) :
    Card → Option (Nat → UInt8) :=
  if call.op.full then
    Function.update saved call.card ((calibration call.card log).or (saved call.card))
  else saved

theorem Call.track_of_not_full {call : Call} (notFull : call.op.full = false) (log : List Event)
    (saved : Card → Option (Nat → UInt8)) : call.track log saved = saved := by
  simp [Call.track, notFull]

theorem Call.track_self {call : Call} (full : call.op.full = true) (log : List Event)
    (saved : Card → Option (Nat → UInt8)) :
    call.track log saved call.card = (calibration call.card log).or (saved call.card) := by
  simp [Call.track, full]

theorem Call.track_of_ne {call : Call} {card : Card} (other : card ≠ call.card) (log : List Event)
    (saved : Card → Option (Nat → UInt8)) : call.track log saved card = saved card := by
  rw [Call.track]
  split
  · exact Function.update_of_ne other _ _
  · rfl

/-- The driver's structure is zeroed when it is allocated. -/
def start (hw : σ) (cell : Cell → Int) : World σ := ⟨fun _ => 0, cell, hw, []⟩

/-- What legal calls can reach. -/
inductive Reachable : Tracked σ → Prop
  | start (hw : σ) (cell : Cell → Int) : Reachable ⟨Wcfxs.start hw cell, fun _ => none⟩
  | call {tracked : Tracked σ} {call : Call} {result : Int} {after : World σ}
      (reached : Reachable tracked) (legal : call.Legal modtype)
      (ran : call.run params modtype env tracked.world = some (result, after)) :
      Reachable ⟨after, call.track (since tracked.world after) tracked.saved⟩

end Run

/-! ### Every request of a call stays on its card -/

section Locality

variable (params : Params) {modtype : Card → ModType}

theorem detectRing_local (card : Card) : (detectRing card).Every (Local .fxo card) := by
  refine .step trivial fun offhook => .when fun _ => .step rfl fun res => ?_
  refine .step trivial fun battery => .ite (fun _ => ?_) fun _ => ?_
  · refine .step trivial fun _ => .step (Local.fxo _ _) fun _ => .step trivial fun _ => ?_
    refine .when fun _ => .step trivial fun _ => .bind (.when fun _ => ?_) fun _ => .call (Local.fxo _ _)
    exact .step (Local.fxo _ _) fun _ => .step rfl fun _ => .call rfl
  · refine .step trivial fun _ => .step (Local.fxo _ _) fun _ => .step trivial fun _ => ?_
    refine .when fun _ => .step trivial fun _ => .bind (.when fun _ => ?_) fun _ => .call (Local.fxo _ _)
    exact .step (Local.fxo _ _) fun _ => .step rfl fun _ => .step rfl fun _ => .call trivial

theorem detectNoBattery_local (card : Card) : (detectNoBattery card).Every (Local .fxo card) := by
  refine .step trivial fun _ => .step (Local.fxo _ _) fun _ => .step trivial fun _ => ?_
  refine .step trivial fun _ => .ite (fun _ => ?_) fun _ => .when fun _ => .call (Local.fxo _ _)
  exact .step (Local.fxo _ _) fun _ => .step rfl fun _ => .call (Local.fxo _ _)

theorem detectBattery_local (card : Card) (b : Int) :
    (detectBattery card b).Every (Local .fxo card) := by
  have pair : ∀ first second value other, (do
      fxoStore first card value
      fxoStore second card other : Prog Unit).Every (Local .fxo card) :=
    fun first second _ _ => .step (Local.fxo first _) fun _ => .call (Local.fxo second _)
  refine .step trivial fun _ => .step trivial fun _ =>
    .bind (.ite (fun _ => ?_) fun _ => ?_) fun _ => ?_
  · exact .step rfl fun _ => .step (Local.fxo _ _) fun _ => pair _ _ _ _
  · exact .when fun _ => .call (Local.fxo _ _)
  refine .step trivial fun _ => .bind (.when fun _ => pair _ _ _ _) fun _ => ?_
  exact .step trivial fun _ => .when fun _ => pair _ _ _ _

theorem countDown_local (card : Card) : (countDown card).Every (Local .fxo card) := by
  refine .step trivial fun _ => .bind (.when fun _ => .call (Local.fxo _ _)) fun _ => ?_
  refine .step trivial fun _ => .when fun _ => .step (Local.fxo _ _) fun _ => .step trivial fun _ => ?_
  refine .when fun _ => .step trivial fun _ => .step trivial fun _ => .when fun _ => ?_
  exact .bind (.when fun _ => .call rfl) fun _ => .call (Local.fxo _ _)

theorem voicedaaCheckHook_local (card : Card) :
    (wcfxsVoicedaaCheckHook card).Every (Local .fxo card) := by
  refine .bind (detectRing_local card) fun _ => .step rfl fun reading => ?_
  refine .bind (.ite (fun _ => detectNoBattery_local card) fun _ => .ite (fun _ => ?_) fun _ => ?_)
    fun _ => countDown_local card
  · exact detectBattery_local card _
  · exact .call (Local.fxo _ _)

theorem initProslic_local (card : Card) (timeslot : UInt8) (fast sane : Bool) :
    (wcfxsInitProslic params card timeslot fast sane).Every (Local .fxs card) :=
  initProslic_every params card (Local.fxs _ _) (fun _ _ => Local.of_uses) (fun _ => trivial)
    (fun _ inside => Local.calregs inside) timeslot fast sane

/-- A request on the variables of an FXS card, its hook state and line feed registers, its LED and
its channel: what the driver does to it between initialisations. -/
def Plain (card : Card) : Op → Prop
  | .setreg c reg _ => c = card ∧ reg = 64
  | .getreg c reg => c = card ∧ (reg = 64 ∨ reg = 68)
  | .setLed port _ => port = card.val + 1
  | .ztHooksig c _ => c = card
  | .storeInt offset _ => ∃ var : FxsVar, offset = var.offset card
  | .loadInt _ => True
  | .get _ => True
  | .set cell _ => cell = .usecount
  | _ => False

theorem Plain.local {card : Card} (op : Op) (plain : Plain card op) : Local .fxs card op := by
  cases op with
  | setreg c reg value => exact plain.1
  | getreg c reg => exact plain.1
  | storeInt offset value =>
    obtain ⟨var, rfl⟩ := plain
    exact Local.fxs var value
  | set cell value => exact .inr plain
  | setLed port colour => exact plain
  | ztHooksig c sig => exact plain
  | loadInt offset => trivial
  | get cell => trivial
  | _ => exact plain.elim

theorem fxsLinefeed_plain (card : Card) (sig : Signalling) (txsig : TxSig) :
    (fxsLinefeed card sig txsig).Every (Plain card) := by
  have idle : (idleLinefeed card).Every (Plain card) := .step trivial fun _ => .call ⟨_, rfl⟩
  have store : ∀ value, (fxsStore .lasttxhook card value).Every (Plain card) := fun _ => .call ⟨_, rfl⟩
  cases txsig with
  | onhook =>
    refine .step rfl fun _ => ?_
    cases sig <;> first | exact idle | exact store 3 | trivial
  | offhook =>
    refine .step rfl fun _ => ?_
    cases sig <;> first | exact store 5 | exact idle
  | start => exact .step rfl fun _ => store 4
  | kewl => exact store 0

theorem applyLinefeed_plain (debugRead : Bool) (card : Card) :
    (applyLinefeed debugRead card).Every (Plain card) := by
  refine .bind (.when fun _ => ?_) fun _ => .step trivial fun _ => .call ⟨rfl, rfl⟩
  exact .step ⟨rfl, .inl rfl⟩ fun _ => trivial

theorem hooksig_plain {card : Card} (fxs : modtype card = .fxs) (txsig : TxSig)
    (sig : Signalling) : (wcfxsHooksig params modtype card txsig sig).Every (Plain card) := by
  rw [wcfxsHooksig, fxs]
  exact .bind (fxsLinefeed_plain card sig txsig) fun _ => applyLinefeed_plain _ card

theorem onhookTransfer_plain (card : Card) (data : Option Int) :
    (wcfxsIoctl params modtype card (.onhookTransfer data)).Every (Plain card) := by
  refine .ite (fun _ => trivial) fun _ => ?_
  cases data with
  | none => trivial
  | some x =>
    refine .step ⟨_, rfl⟩ fun _ => .bind (.when fun _ => .step ⟨_, rfl⟩ fun _ => ?_) fun _ => trivial
    refine .step trivial fun _ => .when fun _ => .step ⟨_, rfl⟩ fun _ => .step trivial fun _ => ?_
    exact .call ⟨rfl, rfl⟩

theorem close_plain (card : Card) : (wcfxsClose modtype card).Every (Plain card) :=
  .step trivial fun _ => .step rfl fun _ => .bind (.when fun _ => .call ⟨_, rfl⟩) fun _ => trivial

/-- The hook switch poll of an FXS card respects what plain requests and the re-initialisation
respect. -/
theorem proslicCheckHook_respects {σ : Type} {env : Env σ} {R : World σ → World σ → Prop}
    (refl : ∀ w, R w w) (trans : ∀ {u v w}, R u v → R v w → R u w) {card : Card}
    (plain : ∀ op, Plain card op → ∀ w answer after, handler env op w = some (answer, after) → R w after)
    {reinit : Prog Int} (again : Program.Respects (handler env) R reinit) :
    Program.Respects (handler env) R (wcfxsProslicCheckHook params reinit card) := by
  have every : ∀ {α : Type} {program : Prog α}, program.Every (Plain card) →
      Program.Respects (handler env) R program :=
    fun every _ _ _ ran => every.run_rel refl trans plain ran
  have store : ∀ var value, Program.Respects (handler env) R (fxsStore var card value) :=
    fun var value => every (.call ⟨var, rfl⟩)
  have load : ∀ var, Program.Respects (handler env) R (fxsLoad var card) :=
    fun var => every (.call trivial)
  have signal : ∀ sig, Program.Respects (handler env) R (ztHooksig card sig) :=
    fun sig => every (.call rfl)
  have poll : Program.Respects (handler env) R (wcfxsGetreg card 68) :=
    every (.call ⟨rfl, .inr rfl⟩)
  have seq : ∀ {α β : Type} {program : Prog α} {rest : α → Prog β},
      Program.Respects (handler env) R program →
      (∀ value, Program.Respects (handler env) R (rest value)) →
      Program.Respects (handler env) R (program >>= rest) := .bind (R := R) trans
  refine seq poll fun res => seq (load _) fun lastrxhook => ?_
  refine seq (.ite (fun _ => store _ _) fun _ => seq (load _) fun debounce => ?_) fun _ => store _ _
  refine .when refl fun _ => seq (store _ _) fun _ => seq (load _) fun _ => ?_
  refine seq (.when refl fun _ => store _ _) fun _ => seq (load _) fun oldrxhook => ?_
  refine seq (load _) fun debouncehook => .ite (fun _ => ?_) fun _ => ?_
  · refine seq (signal _) fun _ => seq (.when refl fun _ => ?_) fun _ => store _ _
    exact seq again fun _ => .pure refl ()
  · exact .when refl fun _ => seq (signal _) fun _ => store _ _

end Locality

/-! ### The bytes a call leaves alone -/

section Frame

variable {params : Params} {modtype : Card → ModType} {σ : Type} {env : Env σ}

theorem Local.outside {type : ModType} {card : Card} {op : Op} (stays : Local type card op)
    {world after : World σ} {answer : op.Ans}
    (answered : handler env op world = some (answer, after)) :
    ∀ a ∉ cells type card, after.mod a = world.mod a := by
  intro a other
  rw [(handler_some answered).1]
  cases op with
  | storeInt offset value => exact writeInt_apply_of_notMem fun inside => other (stays inside)
  | storeByte offset value =>
    refine write_of_ne fun same => other ?_
    rw [same]
    exact stays
  | _ => rfl

/-- **The frame of a call**: only bytes of its own card change. -/
theorem Call.run_outside {call : Call} (legal : call.Legal modtype) {world after : World σ}
    {result : Int} (ran : call.run params modtype env world = some (result, after)) :
    ∀ a ∉ cells (modtype call.card) call.card, after.mod a = world.mod a := by
  obtain ⟨card, op⟩ := call
  let R : World σ → World σ → Prop := fun before after =>
    ∀ a ∉ cells (modtype card) card, after.mod a = before.mod a
  have refl : ∀ w, R w w := fun _ _ _ => rfl
  have trans : ∀ {u v w}, R u v → R v w → R u w := fun first second a other =>
    (second a other).trans (first a other)
  have every : ∀ {α : Type} {program : Prog α}, program.Every (Local (modtype card) card) →
      Program.Respects (handler env) R program := fun every _ _ _ ran =>
    every.run_rel refl trans (fun op stays w answer after answered => stays.outside answered) ran
  suffices Program.Respects (handler env) R (Call.prog params modtype ⟨card, op⟩) from this _ _ _ ran
  cases type : modtype card with
  | fxo =>
    rw [type] at every
    cases op with
    | checkHook =>
      refine .bind (R := R) trans (every ?_) fun _ => .pure refl _
      rw [checkCard, type]
      exact voicedaaCheckHook_local card
    | initProslic fast sane => exact absurd (legal fast sane rfl) (by simp [type])
    | hooksig txsig sig =>
      refine .bind (R := R) trans (every ?_) fun _ => .pure refl _
      rw [wcfxsHooksig, type]
      cases txsig <;> first
        | exact .step (Local.fxo _ _) fun _ => .call rfl
        | trivial
    | onhookTransfer data => exact every (.ite (fun _ => trivial) fun fxs => by simp [type] at fxs)
    | close =>
      refine every (.step trivial fun _ => .step (.inr rfl) fun _ => ?_)
      exact .bind (.when fun fxs => by simp [type] at fxs) fun _ => trivial
  | fxs =>
    rw [type] at every
    cases op with
    | checkHook =>
      refine .bind (R := R) trans ?_ fun _ => .pure refl _
      rw [checkCard, type]
      refine proslicCheckHook_respects params refl trans ?_ (every (initProslic_local params card _ _ _))
      exact fun op plain w answer after answered => by
        simpa only [R, type] using (plain.local op).outside answered
    | initProslic fast sane => exact every (initProslic_local params card _ _ _)
    | hooksig txsig sig =>
      exact .bind (R := R) trans (every ((hooksig_plain params type txsig sig).mono Plain.local))
        fun _ => .pure refl _
    | onhookTransfer data => exact every ((onhookTransfer_plain params card data).mono Plain.local)
    | close => exact every ((close_plain card).mono Plain.local)

end Frame

/-! ### Calibration saved and restored -/

section Calibration

variable {params : Params} {modtype : Card → ModType} {σ : Type} {env : Env σ} {card : Card}

/-- The calibration registers. -/
def calRegs : List UInt8 := [96, 97, 98, 99, 100, 101, 102, 103, 104, 105, 106, 107]

/-- The write of a calibration register on a card, if this exchange is one. -/
def calWriteOf (card : Card) : Event → Option (UInt8 × UInt8)
  | .wrote c reg value => if c = card ∧ reg ∈ calRegs then some (reg, value) else none
  | _ => none

/-- The writes of calibration registers on a card. -/
def calWrites (card : Card) (log : List Event) : List (UInt8 × UInt8) :=
  log.filterMap (calWriteOf card)

/-- Registers 96 to 107 with the given values. -/
def calRow (vals : Nat → UInt8) : List (UInt8 × UInt8) :=
  (List.range 12).map fun x => (calReg x, vals x)

/-- `calregs[card]` in memory. -/
def calregs (card : Card) (mod : Bytes) (x : Nat) : UInt8 := mod (calregsOffset card x)

/-- A request that stores nothing into `calregs` and keeps to some registers of the card. -/
def Steady (card : Card) (reads writes : UInt8 → Prop) : Op → Prop
  | .getreg c reg => c = card → reads reg
  | .setreg c reg _ => c = card → writes reg
  | .storeInt offset _ => offset + 4 ≤ 256
  | .storeByte _ _ => False
  | _ => True

/-- An exchange that keeps to some registers of the card. -/
def Within (card : Card) (reads writes : UInt8 → Prop) : Event → Prop
  | .read c reg _ => c = card → reads reg
  | .wrote c reg _ => c = card → writes reg
  | _ => True

/-- What steady requests do: `calregs` stay, and the exchanges keep to the registers. -/
structure Passes (card : Card) (reads writes : UInt8 → Prop) (before after : World σ) : Prop where
  stay : ∀ a, 256 ≤ a → after.mod a = before.mod a
  log : ∃ log, after.log = before.log ++ log ∧ ∀ event ∈ log, Within card reads writes event

theorem Passes.refl (reads writes : UInt8 → Prop) (world : World σ) :
    Passes card reads writes world world :=
  ⟨fun _ _ => rfl, [], by simp, by simp⟩

theorem Passes.trans {reads writes : UInt8 → Prop} {first middle last : World σ}
    (start : Passes card reads writes first middle)
    (finish : Passes card reads writes middle last) : Passes card reads writes first last := by
  obtain ⟨log, logEq, within⟩ := start.log
  obtain ⟨more, moreEq, also⟩ := finish.log
  refine ⟨fun a high => (finish.stay a high).trans (start.stay a high), log ++ more, ?_, ?_⟩
  · rw [moreEq, logEq, List.append_assoc]
  · intro event member
    rcases List.mem_append.mp member with old | new
    · exact within event old
    · exact also event new

theorem Steady.passes {reads writes : UInt8 → Prop} {op : Op} (steady : Steady card reads writes op)
    {world after : World σ} {answer : op.Ans}
    (answered : handler env op world = some (answer, after)) :
    Passes card reads writes world after := by
  obtain ⟨mod, -, log⟩ := handler_some answered
  refine ⟨fun a high => ?_, _, log, ?_⟩
  · rw [mod]
    cases op with
    | storeInt offset value =>
      have low : offset + 4 ≤ 256 := steady
      exact writeInt_apply_of_notMem fun inside => by have := inside.2; omega
    | storeByte offset value => exact steady.elim
    | _ => rfl
  · cases op <;> simp only [Op.events, List.mem_singleton, List.not_mem_nil, false_imp_iff,
      implies_true, forall_eq, Within]
    all_goals exact steady

theorem Passes.of_every {reads writes : UInt8 → Prop} {α : Type} {program : Prog α}
    (every : program.Every (Steady card reads writes)) {world after : World σ} {value : α}
    (ran : program.run (handler env) world = some (value, after)) :
    Passes card reads writes world after :=
  every.run_rel (Passes.refl reads writes) Passes.trans
    (fun _ steady _ _ _ answered => steady.passes answered) ran

theorem Steady.of_uses {readList writeList : List UInt8} {reads writes : UInt8 → Prop}
    (subReads : ∀ reg ∈ readList, reads reg) (subWrites : ∀ reg ∈ writeList, writes reg) (op : Op)
    (uses : Uses card readList writeList op) : Steady card reads writes op := by
  cases op with
  | getreg c reg => exact fun _ => subReads reg uses.2
  | setreg c reg value => exact fun _ => subWrites reg uses.2
  | storeInt offset value => exact uses.elim
  | storeByte offset value => exact uses.elim
  | _ => trivial

/-- Registers that are not read have no last value. -/
theorem readOf_of_within {reads writes : UInt8 → Prop} {log : List Event}
    (within : ∀ event ∈ log, Within card reads writes event) {reg : UInt8} (unread : ¬ reads reg) :
    log.filterMap (readOf card reg) = [] := by
  rw [List.filterMap_eq_nil_iff]
  intro event member
  have inside := within event member
  cases event with
  | read c r value =>
    refine if_neg ?_
    rintro ⟨rfl, rfl⟩
    exact unread (inside rfl)
  | _ => rfl

theorem calWrites_of_within {reads writes : UInt8 → Prop} {log : List Event}
    (within : ∀ event ∈ log, Within card reads writes event)
    (unwritten : ∀ reg, writes reg → reg ∉ calRegs) : calWrites card log = [] := by
  rw [calWrites, List.filterMap_eq_nil_iff]
  intro event member
  have inside := within event member
  cases event with
  | wrote c r value =>
    refine if_neg ?_
    rintro ⟨rfl, cal⟩
    exact unwritten r (inside rfl) cal
  | _ => rfl

/-- The loop that saves: it reads the registers in order and leaves their values in `calregs`. -/
theorem saveCalregs_run {world after : World σ} {value : Unit}
    (ran : (saveCalregs card).run (handler env) world = some (value, after)) :
    ∃ vals : Nat → UInt8,
      after.log = world.log ++ (List.range 12).map (fun x => .read card (calReg x) (vals x)) ∧
      ∀ x < 12, calregs card after.mod x = vals x := by
  rw [saveCalregs] at ran
  generalize 12 = n at ran ⊢
  induction n generalizing after value with
  | zero =>
    obtain rfl : world = after := by simpa using ran
    exact ⟨fun _ => 0, by simp, by simp⟩
  | succ n ih =>
    rw [Program.forM_range_succ] at ran
    obtain ⟨_, middle, first, last⟩ := (Program.run_bind_some _).mp ran
    obtain ⟨vals, log, kept⟩ := ih first
    obtain rfl := (Prod.mk.inj (Option.some.inj last)).2
    have old : ∀ x < n, Function.update vals n (env.getreg card (calReg n) middle.hw).1 x = vals x :=
      fun x low => Function.update_of_ne (by omega) _ _
    refine ⟨Function.update vals n (env.getreg card (calReg n) middle.hw).1, ?_, fun x low => ?_⟩
    · have same : (List.range n).map (fun x => Event.read card (calReg x) (vals x)) =
          (List.range n).map fun x => Event.read card (calReg x)
            (Function.update vals n (env.getreg card (calReg n) middle.hw).1 x) :=
        List.map_congr_left fun x member => by rw [old x (List.mem_range.mp member)]
      simp [log, List.range_succ, same]
    · by_cases here : x = n
      · subst here
        simp [calregs]
      · have lower : x < n := by omega
        rw [old x lower, ← kept x lower]
        exact write_of_ne (by simp only [calregsOffset]; omega)

/-- The loop that restores: it writes `calregs` to the registers in order. -/
theorem restoreCalregs_run {world after : World σ} {value : Unit}
    (ran : (restoreCalregs card).run (handler env) world = some (value, after)) :
    after.mod = world.mod ∧ after.log = world.log ++
      (List.range 12).map (fun x => .wrote card (calReg x) (calregs card world.mod x)) := by
  rw [restoreCalregs] at ran
  generalize 12 = n at ran ⊢
  induction n generalizing after value with
  | zero =>
    obtain rfl : world = after := by simpa using ran
    simp
  | succ n ih =>
    rw [Program.forM_range_succ] at ran
    obtain ⟨_, middle, first, last⟩ := (Program.run_bind_some _).mp ran
    obtain ⟨mod, log⟩ := ih first
    obtain rfl := (Prod.mk.inj (Option.some.inj last)).2
    refine ⟨mod, ?_⟩
    simp [log, List.range_succ, calregs, mod]

theorem Passes.mono {reads writes moreReads moreWrites : UInt8 → Prop} {world after : World σ}
    (passes : Passes card reads writes world after) (subReads : ∀ reg, reads reg → moreReads reg)
    (subWrites : ∀ reg, writes reg → moreWrites reg) :
    Passes card moreReads moreWrites world after := by
  obtain ⟨log, logEq, within⟩ := passes.log
  refine ⟨passes.stay, log, logEq, fun event member => ?_⟩
  have inside := within event member
  cases event with
  | read c reg value => exact fun same => subReads reg (inside same)
  | wrote c reg value => exact fun same => subWrites reg (inside same)
  | _ => trivial

theorem indirectReads_notCal : ∀ reg ∈ indirectReads params, reg ∉ calRegs := by
  intro reg member
  refine (params.regs.apart reg ?_).2
  simp only [indirectReads, List.mem_cons, List.not_mem_nil] at member ⊢
  tauto

theorem indirectWrites_notCal : ∀ reg ∈ indirectWrites params, reg ∉ calRegs := by
  intro reg member
  refine (params.regs.apart reg ?_).2
  simp only [indirectWrites, List.mem_cons, List.not_mem_nil] at member ⊢
  tauto

/-- A list of register numbers that are not calibration registers. -/
theorem notCal_append {first second : List UInt8} (one : ∀ reg ∈ first, reg ∉ calRegs)
    (two : ∀ reg ∈ second, reg ∉ calRegs) : ∀ reg ∈ first ++ second, reg ∉ calRegs :=
  List.forall_mem_append.mpr ⟨one, two⟩

/-- Nothing before calibration touches a calibration register. -/
theorem prelude_passes {fast sane : Bool} {world after : World σ} {value : Except Int (List UInt16)}
    (ran : (initProslicPrelude params card fast sane).run (handler env) world = some (value, after)) :
    Passes card (· ∉ calRegs) (· ∉ calRegs) world after := by
  have powerup : ∀ reg ∈ powerupWrites params, reg ∉ calRegs := by
    have limit : params.regs.loopILimit ∉ calRegs := (params.regs.apart _ (by simp)).2
    simp only [powerupWrites, calRegs, List.forall_mem_cons] at limit ⊢
    refine ⟨by decide, by decide, limit, by decide, by simp⟩
  refine Passes.of_every (initProslicPrelude_every params card ?_ ?_ fast sane) ran
  · have bound := card.isLt
    simp only [Steady, FxsVar.offset, FxsVar.index]
    omega
  · refine Steady.of_uses ?_ ?_
    · exact notCal_append (notCal_append (by simp [calRegs]) (by simp [calRegs, powerupReads])) indirectReads_notCal
    · exact notCal_append (notCal_append (by simp [calRegs]) powerup) indirectWrites_notCal

/-- Nothing after calibration touches a calibration register. -/
theorem finish_passes {timeslot : UInt8} {tmp : List UInt16} {world after : World σ} {value : Int}
    (ran : (initProslicFinish params card timeslot tmp).run (handler env) world =
      some (value, after)) : Passes card (· ∉ calRegs) (· ∉ calRegs) world after := by
  refine Passes.of_every ((initProslicFinish_uses params card timeslot tmp).mono ?_) ran
  refine Steady.of_uses indirectReads_notCal (notCal_append (by simp [calRegs]) ?_)
  exact notCal_append (by simp [calRegs]) indirectWrites_notCal

/-- Calibration does not read register 97. -/
theorem calibrate_passes {world after : World σ} {value : Int}
    (ran : (initProslicCalibrate params card true).run (handler env) world = some (value, after)) :
    Passes card (· ≠ 97) (fun _ => True) world after := by
  refine Passes.of_every ((initProslicCalibrate_uses params card).mono ?_) ran
  refine Steady.of_uses (List.forall_mem_append.mpr ⟨by simp [powerupReads], ?_⟩) fun _ _ => trivial
  rintro reg member rfl
  exact indirectReads_notCal 97 member (by decide)

theorem prelude_error (fast sane : Bool) : (initProslicPrelude params card fast sane).Yields
    fun value => ∀ code, value = .error code → code ≠ 0 := by
  refine .bind fun _ => .bind fun insane => .ite (fun _ => ?_) fun _ => ?_
  · rintro code ⟨⟩
    decide
  refine .bind fun _ => .bind fun failed => .ite (fun _ => ?_) fun _ => ?_
  · rintro code ⟨⟩
    decide
  refine .bind fun _ => .bind fun _ => .bind fun tmp => .bind fun failed => .ite (fun _ => ?_) fun _ => ?_
  · rintro code ⟨⟩
    decide
  · rintro code ⟨⟩

/-- A full initialisation saves the calibration vector, or gives up before reading register 97. -/
theorem fullInit_run {timeslot : UInt8} {sane : Bool} {world after : World σ} {value : Int}
    (ran : (wcfxsInitProslic params card timeslot false sane).run (handler env) world =
      some (value, after)) :
    Passes card (· ≠ 97) (fun _ => True) world after ∨
      ∃ before saved, Passes card (· ≠ 97) (fun _ => True) world before ∧
        (saveCalregs card).run (handler env) before = some ((), saved) ∧
        Passes card (· ∉ calRegs) (· ∉ calRegs) saved after := by
  have weaken : ∀ {u v : World σ}, Passes card (· ∉ calRegs) (· ∉ calRegs) u v →
      Passes card (· ≠ 97) (fun _ => True) u v := fun passes =>
    passes.mono (fun reg other same => other (by rw [same]; decide)) fun _ _ => trivial
  obtain ⟨prelude, middle, first, rest⟩ := (Program.run_bind_some _).mp ran
  have start := weaken (prelude_passes first)
  cases prelude with
  | error code =>
    obtain ⟨-, rfl⟩ : _ ∧ middle = after := by simpa using rest
    exact .inl start
  | ok tmp =>
    simp only [Bool.false_eq_true, if_false] at rest
    obtain ⟨failed, calibrated, second, rest⟩ := (Program.run_bind_some _).mp rest
    have both := start.trans (calibrate_passes second)
    split at rest
    · obtain ⟨-, rfl⟩ : _ ∧ calibrated = after := by simpa using rest
      exact .inl both
    · obtain ⟨_, saved, third, last⟩ := (Program.run_bind_some _).mp rest
      exact .inr ⟨calibrated, saved, both, third, finish_passes last⟩

/-- A fast initialisation restores the calibration vector, or gives up before that. -/
theorem fastInit_run {timeslot : UInt8} {sane : Bool} {world after : World σ} {value : Int}
    (ran : (wcfxsInitProslic params card timeslot true sane).run (handler env) world =
      some (value, after)) :
    (value ≠ 0 ∧ Passes card (· ∉ calRegs) (· ∉ calRegs) world after) ∨
      ∃ before restored, Passes card (· ∉ calRegs) (· ∉ calRegs) world before ∧
        (restoreCalregs card).run (handler env) before = some ((), restored) ∧
        Passes card (· ∉ calRegs) (· ∉ calRegs) restored after := by
  obtain ⟨prelude, middle, first, rest⟩ := (Program.run_bind_some _).mp ran
  have start := prelude_passes first
  have wrong := (prelude_error true sane).run first
  cases prelude with
  | error code =>
    obtain ⟨rfl, rfl⟩ : code = value ∧ middle = after := by simpa using rest
    exact .inl ⟨wrong code rfl, start⟩
  | ok tmp =>
    simp only [if_true] at rest
    obtain ⟨_, restored, second, last⟩ := (Program.run_bind_some _).mp rest
    exact .inr ⟨middle, restored, start, second, finish_passes last⟩

theorem Passes.calregs_eq {reads writes : UInt8 → Prop} {world after : World σ}
    (passes : Passes card reads writes world after) (x : Nat) :
    calregs card after.mod x = calregs card world.mod x :=
  passes.stay _ (by simp only [calregsOffset]; omega)

/-- **What a full initialisation saves.** -/
theorem fullInit_calibration {timeslot : UInt8} {sane : Bool} {world after : World σ} {value : Int}
    (ran : (wcfxsInitProslic params card timeslot false sane).run (handler env) world =
      some (value, after)) :
    (calibration card (since world after) = none ∧
        ∀ x, calregs card after.mod x = calregs card world.mod x) ∨
      ∃ vals, calibration card (since world after) = some vals ∧
        ∀ x < 12, calregs card after.mod x = vals x := by
  rcases fullInit_run ran with passes | ⟨before, saved, first, save, last⟩
  · obtain ⟨log, logEq, within⟩ := passes.log
    refine .inl ⟨if_neg fun all => ?_, passes.calregs_eq⟩
    have none : log.filterMap (readOf card 97) = [] := readOf_of_within within (by simp)
    have some := all 1 (by simp)
    rw [since_eq logEq, lastRead, show calReg 1 = 97 from rfl, none] at some
    exact absurd some (by simp)
  · obtain ⟨log, logEq, -⟩ := first.log
    obtain ⟨vals, saveLog, stored⟩ := saveCalregs_run save
    obtain ⟨more, moreEq, within⟩ := last.log
    have read : ∀ x < 12, lastRead card (calReg x) (since world after) = some (vals x) := by
      intro x low
      have total : after.log = world.log ++
          (log ++ (List.range 12).map (fun x => .read card (calReg x) (vals x)) ++ more) := by
        rw [moreEq, saveLog, logEq]
        simp only [List.append_assoc]
      have rest : more.filterMap (readOf card (calReg x)) = [] :=
        readOf_of_within within (by interval_cases x <;> decide)
      rw [since_eq total, lastRead, List.filterMap_append, List.filterMap_append, rest,
        List.append_nil, List.getLast?_append]
      have own : ((List.range 12).map (fun y => Event.read card (calReg y) (vals y))).filterMap
          (readOf card (calReg x)) = [vals x] := by
        interval_cases x <;> simp [List.range_succ, readOf, calReg]
      rw [own]
      rfl
    refine .inr ⟨_, if_pos fun x member => ?_, fun x low => ?_⟩
    · rw [read x (List.mem_range.mp member)]
      rfl
    · rw [read x low, last.calregs_eq x, stored x low]
      rfl

/-- Between full initialisations `calregs` stay, and the calibration registers are written only by
copying `calregs` to them, a whole row at a time. -/
structure Copies (card : Card) (world after : World σ) : Prop where
  stay : ∀ x < 12, calregs card after.mod x = calregs card world.mod x
  log : ∃ log count, after.log = world.log ++ log ∧
    calWrites card log = (List.replicate count (calRow (calregs card world.mod))).flatten

theorem Copies.refl (world : World σ) : Copies card world world :=
  ⟨fun _ _ => rfl, [], 0, by simp, rfl⟩

theorem calRow_congr {first second : Nat → UInt8} (same : ∀ x < 12, first x = second x) :
    calRow first = calRow second :=
  List.map_congr_left fun x member => by rw [same x (List.mem_range.mp member)]

theorem Copies.trans {first middle last : World σ} (start : Copies card first middle)
    (finish : Copies card middle last) : Copies card first last := by
  obtain ⟨log, count, logEq, writes⟩ := start.log
  obtain ⟨more, extra, moreEq, also⟩ := finish.log
  refine ⟨fun x low => (finish.stay x low).trans (start.stay x low), log ++ more, count + extra, ?_, ?_⟩
  · rw [moreEq, logEq, List.append_assoc]
  · rw [calWrites, List.filterMap_append]
    rw [calWrites] at writes also
    rw [writes, also, calRow_congr start.stay, ← List.replicate_append_replicate,
      List.flatten_append]

theorem Passes.copies {reads writes : UInt8 → Prop} (avoid : ∀ reg, writes reg → reg ∉ calRegs)
    {world after : World σ} (passes : Passes card reads writes world after) :
    Copies card world after := by
  obtain ⟨log, logEq, within⟩ := passes.log
  exact ⟨fun x _ => passes.calregs_eq x, log, 0, logEq, calWrites_of_within within avoid⟩

theorem calWrites_row (card : Card) (vals : Nat → UInt8) :
    calWrites card ((List.range 12).map fun x => .wrote card (calReg x) (vals x)) = calRow vals := by
  simp [calWrites, calWriteOf, calRow, List.range_succ, calReg, calRegs]

/-- **What a fast initialisation restores.** -/
theorem fastInit_calWrites {timeslot : UInt8} {sane : Bool} {world after : World σ} {value : Int}
    (ran : (wcfxsInitProslic params card timeslot true sane).run (handler env) world =
      some (value, after)) :
    Copies card world after ∧
      (value = 0 → calWrites card (since world after) = calRow (calregs card world.mod)) := by
  rcases fastInit_run ran with ⟨wrong, passes⟩ | ⟨before, restored, first, restore, last⟩
  · exact ⟨passes.copies fun _ other => other, fun zero => absurd zero wrong⟩
  · obtain ⟨log, logEq, within⟩ := first.log
    obtain ⟨mod, restoreLog⟩ := restoreCalregs_run restore
    obtain ⟨more, moreEq, later⟩ := last.log
    have row : calRow (calregs card before.mod) = calRow (calregs card world.mod) :=
      calRow_congr fun x _ => first.calregs_eq x
    have total : after.log = world.log ++ (log ++ ((List.range 12).map
        (fun x => .wrote card (calReg x) (calregs card before.mod x)) ++ more)) := by
      rw [moreEq, restoreLog, logEq]
      simp only [List.append_assoc]
    have writes : calWrites card (log ++ ((List.range 12).map
        (fun x => .wrote card (calReg x) (calregs card before.mod x)) ++ more)) =
          calRow (calregs card world.mod) := by
      have none := calWrites_of_within within fun _ other => other
      have noneLater := calWrites_of_within later fun _ other => other
      have own := calWrites_row card (calregs card before.mod)
      rw [calWrites] at none noneLater own ⊢
      rw [List.filterMap_append, List.filterMap_append, none, noneLater, own, row]
      simp
    refine ⟨⟨fun x _ => ?_, _, 1, total, by rw [writes]; simp⟩, fun _ => ?_⟩
    · rw [last.calregs_eq, calregs, mod]
      exact first.calregs_eq x
    · rw [since_eq total, writes]

theorem Plain.steady (op : Op) (plain : Plain card op) :
    Steady card (fun _ => True) (· ∉ calRegs) op := by
  have bound := card.isLt
  cases op with
  | getreg c reg => exact fun _ => trivial
  | setreg c reg value =>
    obtain ⟨-, rfl⟩ := plain
    exact fun _ => by decide
  | storeInt offset value =>
    obtain ⟨var, rfl⟩ := plain
    cases var <;> simp only [Steady, FxsVar.offset, FxsVar.index] <;> omega
  | storeByte offset value => exact plain.elim
  | _ => trivial

/-- **Every call on an FXS card but a full initialisation only copies its saved calibration.** -/
theorem Call.copies {call : Call} (fxs : modtype call.card = .fxs) (notFull : call.op.full = false)
    {world after : World σ} {result : Int}
    (ran : call.run params modtype env world = some (result, after)) :
    Copies call.card world after := by
  obtain ⟨card, op⟩ := call
  have every : ∀ {α : Type} {program : Prog α}, program.Every (Plain card) →
      Program.Respects (handler env) (Copies card) program := fun every _ _ _ ran =>
    (Passes.of_every (every.mono Plain.steady) ran).copies fun _ other => other
  have again : ∀ timeslot sane, Program.Respects (handler env) (Copies card)
      (wcfxsInitProslic params card timeslot true sane) := fun _ _ _ _ _ ran =>
    (fastInit_calWrites ran).1
  have plain : ∀ op, Plain card op → ∀ (w : World σ) answer after,
      handler env op w = some (answer, after) → Copies card w after := fun op plain w answer after answered =>
    ((plain.steady op).passes answered).copies fun _ other => other
  suffices Program.Respects (handler env) (Copies card) (Call.prog params modtype ⟨card, op⟩) from
    this _ _ _ ran
  cases op with
  | checkHook =>
    refine .bind (R := Copies card) Copies.trans ?_ fun _ => .pure Copies.refl _
    rw [checkCard, show modtype card = .fxs from fxs]
    exact proslicCheckHook_respects params Copies.refl Copies.trans plain (again _ _)
  | initProslic fast sane =>
    obtain rfl : fast = true := by simpa [CardOp.full] using notFull
    exact again _ _
  | hooksig txsig sig =>
    exact .bind (R := Copies card) Copies.trans (every (hooksig_plain params fxs txsig sig))
      fun _ => .pure Copies.refl _
  | onhookTransfer data => exact every (onhookTransfer_plain params card data)
  | close => exact every (close_plain card)

end Calibration

/-! ### Isolation -/

section Isolation

variable (params : Params) (modtype : Card → ModType)

/-- **Per-card isolation**, over everything legal calls can reach. -/
structure Isolated : Prop where
  /-- A call leaves alone what every other card keeps under its own module type. -/
  alone : ∀ (σ : Type) (env : Env σ) (tracked : Tracked σ) (call : Call) (result : Int)
    (after : World σ), Reachable params modtype env tracked → call.Legal modtype →
    call.run params modtype env tracked.world = some (result, after) →
    ∀ other, other ≠ call.card → ∀ a ∈ cells (modtype other) other,
      after.mod a = tracked.world.mod a
  /-- The calibration registers of an FXS card are only written with what its last full
  initialisation saved, and a fast initialisation that succeeds writes all of it, once. -/
  restored : ∀ (σ : Type) (env : Env σ) (tracked : Tracked σ) (call : Call) (result : Int)
    (after : World σ) (vals : Nat → UInt8), Reachable params modtype env tracked →
    modtype call.card = .fxs → call.op.full = false → tracked.saved call.card = some vals →
    call.run params modtype env tracked.world = some (result, after) →
    (∃ count, calWrites call.card (since tracked.world after) =
      (List.replicate count (calRow vals)).flatten) ∧
    ∀ sane, call.op = .initProslic true sane → result = 0 →
      calWrites call.card (since tracked.world after) = calRow vals

variable {params modtype} {σ : Type} {env : Env σ}

theorem Call.alone (apart : ∀ i j, ¬ Overlap modtype i j) {call : Call} (legal : call.Legal modtype)
    {world after : World σ} {result : Int}
    (ran : call.run params modtype env world = some (result, after)) {other : Card}
    (different : other ≠ call.card) : ∀ a ∈ cells (modtype other) other, after.mod a = world.mod a := by
  intro a member
  have disjoint := (cells_disjoint_iff different).mpr ⟨apart _ _, apart _ _⟩
  exact Call.run_outside legal ran a (disjoint a member)

/-- **Along every run, `calregs` hold what the last full initialisation saved.** -/
theorem saved_run (apart : ∀ i j, ¬ Overlap modtype i j) {tracked : Tracked σ}
    (reached : Reachable params modtype env tracked) {card : Card} (fxs : modtype card = .fxs)
    {vals : Nat → UInt8} (saved : tracked.saved card = some vals) :
    ∀ x < 12, calregs card tracked.world.mod x = vals x := by
  induction reached generalizing vals with
  | start hw cell => simp at saved
  | @call tracked call result after reached legal ran ih =>
    dsimp only at saved ⊢
    by_cases own : card = call.card
    · subst own
      cases full : call.op.full with
      | false =>
        rw [Call.track_of_not_full full] at saved
        intro x low
        exact ((Call.copies fxs full ran).stay x low).trans (ih saved x low)
      | true =>
        rw [Call.track_self full] at saved
        obtain ⟨card, op⟩ := call
        cases op with
        | initProslic fast sane =>
          obtain rfl : fast = false := by simpa [CardOp.full] using full
          rcases fullInit_calibration ran with ⟨none, stay⟩ | ⟨vals', some, stored⟩
          · rw [none, Option.none_or] at saved
            exact fun x low => (stay x).trans (ih saved x low)
          · rw [some, Option.some_or, Option.some.injEq] at saved
            rw [← saved]
            exact stored
        | _ => simp [CardOp.full] at full
    · rw [Call.track_of_ne own] at saved
      intro x low
      rw [← ih saved x low]
      refine Call.alone apart legal ran own _ ?_
      rw [fxs]
      exact .inr ⟨by simp [calregsOffset], by simp only [calregsOffset]; omega⟩

/-- Hardware whose registers all read 5: a line with a voltage just over the threshold. -/
def quietLine : Env Unit where
  setreg := fun _ _ _ => id
  getreg := fun _ _ => (5, ·)
  setLed := fun _ _ => id
  forgetCard := id
  gsmSend := fun _ _ => id
  gsmReceive := fun _ => ([], ·)
  uart := fun _ _ => (0, ·)
  jiffies := (0, ·)
  waitJustABit := fun _ => id
  copyToUser := fun _ => (false, ·)

/-- The first poll of an FXO card on a quiet line starts its polarity debouncer. -/
theorem first_poll (card : Card) :
    ((wcfxsVoicedaaCheckHook card).run (handler quietLine) (start () fun _ => 0)).map
      (fun result => result.2.mod (FxoVar.polaritydebounce.offset card)) = some 63 := by
  revert card
  decide

/-- **Cards are isolated just when no FXO module overlaps an FXS module.** -/
theorem isolated_iff (params : Params) (modtype : Card → ModType) :
    Isolated params modtype ↔ ∀ fxo fxs, ¬ Overlap modtype fxo fxs := by
  constructor
  · rintro isolated fxo fxs ⟨typeFxo, typeFxs, third⟩
    have different : fxs ≠ fxo := by
      rintro rfl
      rw [typeFxo] at typeFxs
      contradiction
    have poll := first_poll fxo
    obtain ⟨⟨value, after⟩, ran, byte⟩ := Option.map_eq_some_iff.mp poll
    have run : Call.run params modtype quietLine ⟨fxo, .checkHook⟩ (start () fun _ => 0) =
        some (0, after) := by
      rw [Call.run, Call.prog, Program.run_bind]
      simp only [checkCard, typeFxo, ran, Option.bind_some, Program.run_pure]
    have same := isolated.alone Unit quietLine ⟨_, fun _ => none⟩ _ _ _ (.start () fun _ => 0)
      (by simp [Call.Legal]) run fxs different (FxoVar.polaritydebounce.offset fxo) ?_
    · rw [byte] at same
      exact absurd same (by simp [start])
    · rw [typeFxs, mem_cells_fxs]
      simp only [FxoVar.offset, FxoVar.index]
      omega
  · intro apart
    refine ⟨fun σ env tracked call result after _ legal ran other different => ?_,
      fun σ env tracked call result after vals reached fxs notFull saved ran => ?_⟩
    · exact Call.alone apart legal ran different
    · have row : calRow (calregs call.card tracked.world.mod) = calRow vals :=
        calRow_congr (saved_run apart reached fxs saved)
      obtain ⟨log, count, logEq, writes⟩ := (Call.copies fxs notFull ran).log
      rw [row] at writes
      refine ⟨⟨count, by rw [since_eq logEq, writes]⟩, fun sane op success => ?_⟩
      obtain ⟨card, op'⟩ := call
      obtain rfl : op' = .initProslic true sane := op
      rw [(fastInit_calWrites ran).2 success, row]

/-- With an FXS module in slot 0 and an FXO module in slot 1, the first poll of the FXO card changes
the fifth calibration byte kept for the FXS card, from 0 to 63. -/
theorem poll_changes_calregs :
    let modtype : Card → ModType := fun card => if card = 1 then .fxo else .fxs
    calregsOffset 0 4 ∈ cells (modtype 0) 0 ∧ calregs 0 (start () fun _ => 0).mod 4 = 0 ∧
    (Call.run Params.default modtype quietLine ⟨1, .checkHook⟩ (start () fun _ => 0)).map
      (fun result => calregs 0 result.2.mod 4) = some 63 := by
  refine ⟨?_, rfl, by decide⟩
  exact mem_cells_fxs.mpr (by decide)

end Isolation

end Baps.Wcfxs
