/-
**The line feed register and the driver's copy of it.**

Direct register 64 of a ProSLIC sets the line feed. The driver keeps what it means to have set in
`mod.fxs.lasttxhook`, and later decisions are based on that copy. Hook signalling and the on-hook
transfer ioctl write both; `wcfxs_init_proslic` ends with a write to the register alone, also when the
poll calls it to re-initialise a card that goes off hook.

`linefeed card log` is the register, as the last value written to it.

* `mirrors_iff` — **when the copy follows the register along a whole run**: if it holds 1 when the card
  is initialised, and at every poll that re-initialises the card.
-/

import Baps.Wcfxs.Isolation

namespace Baps.Wcfxs

open Interaction Memory

/-! ### The register and the copy -/

/-- The value an exchange writes to register 64 of a card. -/
def linefeedOf (card : Card) : Event → Option UInt8
  | .wrote c reg value => if c = card ∧ reg = 64 then some value else none
  | _ => none

/-- Register 64 of a card: what was last written to it. -/
def linefeed (card : Card) (log : List Event) : Option UInt8 :=
  (log.filterMap (linefeedOf card)).getLast?

/-- `mod.fxs.var[card]`. -/
def fxsInt {σ : Type} (var : FxsVar) (card : Card) (world : World σ) : Int :=
  readInt world.mod (var.offset card)

/-- The register holds the driver's copy. -/
def Mirrors {σ : Type} (card : Card) (world : World σ) : Prop :=
  ∃ value, linefeed card world.log = some value ∧ (value.toNat : Int) = fxsInt .lasttxhook card world

/-! ### What leaves them alone -/

/-- A request that does not store into a variable of a card. -/
def SparesVar (var : FxsVar) (card : Card) : Op → Prop
  | .storeInt offset _ => offset + 4 ≤ var.offset card ∨ var.offset card + 4 ≤ offset
  | .storeByte offset _ => offset < var.offset card ∨ var.offset card + 4 ≤ offset
  | _ => True

/-- A request that does not write register 64 of a card. -/
def SparesFeed (card : Card) : Op → Prop
  | .setreg c reg _ => c = card → reg ≠ 64
  | _ => True

/-- The variable is as before. -/
def SameVar {σ : Type} (var : FxsVar) (card : Card) (world after : World σ) : Prop :=
  fxsInt var card after = fxsInt var card world

/-- The register is as before. -/
def SameFeed {σ : Type} (card : Card) (world after : World σ) : Prop :=
  linefeed card after.log = linefeed card world.log

section Same

variable {σ α : Type} {env : Env σ} {var : FxsVar} {card : Card} {world after : World σ}

theorem linefeed_append (log more : List Event) :
    linefeed card (log ++ more) = (linefeed card more).or (linefeed card log) := by
  unfold linefeed
  rw [List.filterMap_append, List.getLast?_append]

theorem linefeed_wrote (log : List Event) (value : UInt8) :
    linefeed card (log ++ [.wrote card 64 value]) = some value := by
  rw [linefeed_append]
  simp [linefeed, linefeedOf]

theorem linefeed_read (log : List Event) (reg value : UInt8) :
    linefeed card (log ++ [.read card reg value]) = linefeed card log := by
  rw [linefeed_append]
  rfl

theorem linefeed_signalled (log : List Event) (sig : RxSig) :
    linefeed card (log ++ [.signalled card sig]) = linefeed card log := by
  rw [linefeed_append]
  rfl

theorem SparesVar.same {op : Op} (spares : SparesVar var card op) {answer : op.Ans}
    (answered : handler env op world = some (answer, after)) : SameVar var card world after := by
  unfold SameVar fxsInt
  rw [(handler_some answered).1]
  refine readInt_congr fun a inside => ?_
  obtain ⟨low, high⟩ := inside
  cases op with
  | storeInt offset value =>
    refine writeInt_apply_of_notMem fun also => ?_
    obtain ⟨alsoLow, alsoHigh⟩ := also
    unfold SparesVar at spares
    omega
  | storeByte offset value =>
    refine write_of_ne fun same => ?_
    unfold SparesVar at spares
    omega
  | _ => rfl

theorem SparesFeed.same {op : Op} (spares : SparesFeed card op) {answer : op.Ans}
    (answered : handler env op world = some (answer, after)) : SameFeed card world after := by
  unfold SameFeed
  rw [(handler_some answered).2.2, linefeed_append]
  have nothing : linefeed card (op.events answer) = none := by
    cases op with
    | setreg c reg value =>
      unfold SparesFeed at spares
      have other : ¬ (c = card ∧ reg = 64) := fun both => spares both.1 both.2
      simp [Op.events, linefeed, linefeedOf, other]
    | _ => simp [Op.events, linefeed, linefeedOf]
  rw [nothing, Option.none_or]

theorem SameVar.trans {first middle last : World σ} (start : SameVar var card first middle)
    (finish : SameVar var card middle last) : SameVar var card first last :=
  Eq.trans finish start

theorem SameFeed.trans {first middle last : World σ} (start : SameFeed card first middle)
    (finish : SameFeed card middle last) : SameFeed card first last :=
  Eq.trans finish start

theorem SameVar.of_every {program : Prog α} (every : program.Every (SparesVar var card)) :
    Program.Respects (handler env) (SameVar var card) program := fun _ _ _ ran =>
  every.run_rel (R := SameVar var card) (fun _ => rfl) SameVar.trans (fun _ spares _ _ _ => spares.same) ran

theorem SameFeed.of_every {program : Prog α} (every : program.Every (SparesFeed card)) :
    Program.Respects (handler env) (SameFeed card) program := fun _ _ _ ran =>
  every.run_rel (R := SameFeed card) (fun _ => rfl) SameFeed.trans (fun _ spares _ _ _ => spares.same) ran

theorem SparesVar.of_uses {c : Card} {reads writes : List UInt8} (op : Op)
    (uses : Uses c reads writes op) : SparesVar var card op := by
  cases op with
  | storeInt offset value => exact uses.elim
  | storeByte offset value => exact uses.elim
  | _ => trivial

theorem SparesFeed.of_uses {reads writes : List UInt8} (unwritten : 64 ∉ writes) (op : Op)
    (uses : Uses card reads writes op) : SparesFeed card op := by
  cases op with
  | setreg c reg value =>
    intro _ same
    exact unwritten (same ▸ uses.2)
  | _ => trivial

theorem SparesFeed.setreg {c : Card} {reg value : UInt8} (other : reg ≠ 64) :
    SparesFeed card (.setreg c reg value) := fun _ => other

/-- The requests of another card spare both. -/
theorem Local.spares (var : FxsVar) {modtype : ModType} {other : Card} (different : other ≠ card)
    (op : Op) (stays : Local modtype other op) : SparesVar var card op ∧ SparesFeed card op := by
  have bound := other.isLt
  have ne : other.val ≠ card.val := fun same => different (Fin.ext same)
  have low : ∀ a ∈ cells modtype other, a < 256 → a % 32 / 4 = other.val := by
    intro a member small
    cases modtype with
    | fxo => exact (mem_cells_fxo.mp member).2
    | fxs =>
      rcases mem_cells_fxs.mp member with inside | high
      · exact inside.2
      · omega
  have offset_eq : ∃ row < 8, var.offset card = 32 * row + 4 * card.val := by
    cases var
    all_goals exact ⟨_, by decide, rfl⟩
  obtain ⟨row, row_lt, offset_eq⟩ := offset_eq
  have cardBound := card.isLt
  cases op with
  | setreg c reg value =>
    refine ⟨trivial, fun same => absurd ?_ different⟩
    exact (show c = other from stays).symm.trans same
  | storeInt offset value =>
    refine ⟨?_, trivial⟩
    unfold SparesVar
    have inside : intCells offset ⊆ cells modtype other := stays
    by_contra overlap
    have slot := low (max offset (var.offset card)) (inside ⟨by omega, by omega⟩)
    omega
  | storeByte offset value =>
    refine ⟨?_, trivial⟩
    unfold SparesVar
    have slot := low offset stays
    omega
  | _ => exact ⟨trivial, trivial⟩

end Same

/-- `idletxhookstate` holds a value for the register. -/
def IdleSmall {σ : Type} (card : Card) (world : World σ) : Prop :=
  0 ≤ fxsInt .idletxhookstate card world ∧ fxsInt .idletxhookstate card world < 256

/-- A request that stores at most such a value into `idletxhookstate`. -/
def KeepsIdle (card : Card) (op : Op) : Prop :=
  SparesVar .idletxhookstate card op ∨
    ∃ value, 0 ≤ value ∧ value < 256 ∧ op = .storeInt (FxsVar.idletxhookstate.offset card) value

section Idle

variable {σ α : Type} {env : Env σ} {card : Card} {world after : World σ}

theorem idleSmall_store {value : Int} (low : 0 ≤ value) (high : value < 256) :
    IdleSmall card { world with
      mod := writeInt world.mod (FxsVar.idletxhookstate.offset card) value } := by
  unfold IdleSmall fxsInt
  rw [readInt_writeInt (by omega) (by omega)]
  exact ⟨low, high⟩

theorem SameVar.idleSmall (same : SameVar .idletxhookstate card world after)
    (small : IdleSmall card world) : IdleSmall card after := by
  unfold IdleSmall
  rw [show fxsInt .idletxhookstate card after = _ from same]
  exact small

theorem KeepsIdle.small {op : Op} (keeps : KeepsIdle card op) {answer : op.Ans}
    (answered : handler env op world = some (answer, after)) (small : IdleSmall card world) :
    IdleSmall card after := by
  rcases keeps with spares | ⟨value, low, high, rfl⟩
  · exact (spares.same answered).idleSmall small
  · cases Option.some.inj answered
    exact idleSmall_store low high

theorem IdleSmall.of_every {program : Prog α} (every : program.Every (KeepsIdle card)) :
    Program.Respects (handler env) (fun world after => IdleSmall card world → IdleSmall card after)
      program := fun _ _ _ ran =>
  every.run_rel (R := fun world after => IdleSmall card world → IdleSmall card after)
    (fun _ small => small) (fun first second small => second (first small))
    (fun _ keeps _ _ _ => keeps.small) ran

end Idle

/-! ### Initialisation -/

section Initialisation

variable {params : Params} {card : Card} {timeslot : UInt8} {σ : Type} {env : Env σ}

theorem unwritten_indirect : 64 ∉ indirectWrites params := by
  intro member
  refine (params.regs.apart 64 ?_).1 (by decide)
  simp only [indirectWrites, List.mem_cons, List.not_mem_nil] at member ⊢
  tauto

theorem unwritten_limit : 64 ≠ params.regs.loopILimit := by
  intro same
  exact (params.regs.apart params.regs.loopILimit (by simp)).1 (same ▸ by decide)

theorem initProslic_lasttxhook (fast sane : Bool) :
    (wcfxsInitProslic params card timeslot fast sane).Every (SparesVar .lasttxhook card) := by
  have bound := card.isLt
  refine initProslic_every params card ?_ (fun _ _ => SparesVar.of_uses) (fun _ => trivial)
    (fun x _ _ => ?_) timeslot fast sane
  · simp only [SparesVar, FxsVar.offset, FxsVar.index]
    omega
  · simp only [SparesVar, FxsVar.offset, FxsVar.index, calregsOffset]
    omega

theorem initProslic_keepsIdle (fast sane : Bool) :
    (wcfxsInitProslic params card timeslot fast sane).Every (KeepsIdle card) := by
  have bound := card.isLt
  refine initProslic_every params card (.inr ⟨1, by decide, by decide, rfl⟩)
    (fun _ _ op uses => .inl (SparesVar.of_uses op uses)) (fun _ => .inl trivial)
    (fun x _ _ => .inl ?_) timeslot fast sane
  simp only [SparesVar, FxsVar.offset, FxsVar.index, calregsOffset]
  omega

/-- The first thing an initialisation does is to set the idle state. -/
theorem initProslic_idle {fast sane : Bool} {world after : World σ} {value : Int}
    (ran : (wcfxsInitProslic params card timeslot fast sane).run (handler env) world =
      some (value, after)) : IdleSmall card after := by
  have every : (wcfxsInitProslic params card timeslot fast sane).Every (KeepsIdle card) :=
    initProslic_keepsIdle fast sane
  exact IdleSmall.of_every (every.2 ()) _ _ _ ran (idleSmall_store (by decide) (by decide))

theorem prelude_feed (fast sane : Bool) :
    (initProslicPrelude params card fast sane).Every (SparesFeed card) := by
  refine initProslicPrelude_every params card trivial (SparesFeed.of_uses ?_) fast sane
  have limit : 64 ≠ params.regs.loopILimit := unwritten_limit
  have indirect : 64 ∉ indirectWrites params := unwritten_indirect
  simp only [preludeWrites, powerupWrites, List.mem_append, List.mem_cons, List.not_mem_nil]
  rintro ((unwritten | unwritten) | unwritten)
  · revert unwritten
    decide
  · rcases unwritten with same | same | same | same | same
    · exact absurd same (by decide)
    · exact absurd same (by decide)
    · exact limit same
    · exact absurd same (by decide)
    · exact same
  · exact indirect unwritten

theorem restoreCalregs_feed : (restoreCalregs card).Every (SparesFeed card) := by
  refine .forM fun x inside => .step trivial fun value => .call fun _ => ?_
  have low := List.mem_range.mp inside
  interval_cases x
  all_goals decide

theorem setregIndirect_feed (address : UInt8) (data : UInt16) :
    (wcfxsProslicSetregIndirect params card address data).Every (SparesFeed card) :=
  (Uses.setregIndirect (indirect_inside params [] []) address data).mono
    (SparesFeed.of_uses unwritten_indirect)

/-- The options end with the line feed, unless the ringer cannot be set. -/
theorem options_feed {world after : World σ} {value : Int}
    (ran : (initProslicOptions params card).run (handler env) world = some (value, after)) :
    (value = 0 ∧ linefeed card after.log = some 1) ∨ (value ≠ 0 ∧ SameFeed card world after) := by
  obtain ⟨_, moded, mode, rest⟩ := (Program.run_bind_some _).mp ran
  have first : SameFeed card world moded := by
    refine SameFeed.of_every (.when fun _ => .step (.setreg (by decide)) fun _ => ?_) _ _ _ mode
    refine .bind (.when fun _ => .bind (setregIndirect_feed _ _) fun _ => trivial) fun _ => ?_
    exact .when fun _ => .bind (setregIndirect_feed _ _) fun _ => trivial
  obtain ⟨_, lowered, lower, rest⟩ := (Program.run_bind_some _).mp rest
  have second : SameFeed card moded lowered :=
    SameFeed.of_every (.when fun _ => .call (.setreg (by decide))) _ _ _ lower
  obtain ⟨failed, rung, ring, rest⟩ := (Program.run_bind_some _).mp rest
  have third : SameFeed card lowered rung := by
    refine SameFeed.of_every (.ite (fun _ => setregIndirect_feed _ _) fun _ => ?_) _ _ _ ring
    exact .ite (fun _ => setregIndirect_feed _ _) fun _ => trivial
  split at rest
  · obtain ⟨rfl, rfl⟩ : -1 = value ∧ rung = after := by simpa using rest
    exact .inr ⟨by decide, (first.trans second).trans third⟩
  · cases Option.some.inj rest
    exact .inl ⟨rfl, linefeed_wrote _ _⟩

/-- **The last part of an initialisation writes 1 to the register, and only if it succeeds.** -/
theorem finish_feed {tmp : List UInt16} {world after : World σ} {value : Int}
    (ran : (initProslicFinish params card timeslot tmp).run (handler env) world = some (value, after)) :
    (value = 0 ∧ linefeed card after.log = some 1) ∨ (value ≠ 0 ∧ SameFeed card world after) := by
  obtain ⟨failed, verified, verify, rest⟩ := (Program.run_bind_some _).mp ran
  have first : SameFeed card world verified :=
    SameFeed.of_every ((Uses.initProslicVerify (indirect_inside params [] []) tmp).mono
      (SparesFeed.of_uses unwritten_indirect)) _ _ _ verify
  split at rest
  · obtain ⟨rfl, rfl⟩ : -1 = value ∧ verified = after := by simpa using rest
    exact .inr ⟨by decide, first⟩
  obtain ⟨_, placed, place, rest⟩ := (Program.run_bind_some _).mp rest
  have second : SameFeed card verified placed := by
    have uses : (setregs card (timeslotRow timeslot)).Every
        (Uses card [] ((timeslotRow timeslot).map Prod.fst)) :=
      Uses.setregs fun _ member => List.mem_map_of_mem member
    exact SameFeed.of_every (uses.mono (SparesFeed.of_uses (by simp [timeslotRow]))) _ _ _ place
  rcases options_feed rest with success | ⟨failure, third⟩
  · exact .inl success
  · exact .inr ⟨failure, (first.trans second).trans third⟩

/-- An initialisation that succeeds leaves 1 in the register. -/
theorem initProslic_success {fast sane : Bool} {world after : World σ}
    (ran : (wcfxsInitProslic params card timeslot fast sane).run (handler env) world =
      some (0, after)) : linefeed card after.log = some 1 := by
  obtain ⟨prelude, middle, first, rest⟩ := (Program.run_bind_some _).mp ran
  have wrong := (prelude_error fast sane).run first
  cases prelude with
  | error code =>
    obtain ⟨rfl, -⟩ : code = 0 ∧ middle = after := by simpa using rest
    exact absurd rfl (wrong 0 rfl)
  | ok tmp =>
    have finished : ∀ {world : World σ},
        (initProslicFinish params card timeslot tmp).run (handler env) world = some (0, after) →
        linefeed card after.log = some 1 := by
      intro world finish
      rcases finish_feed finish with success | failure
      · exact success.2
      · exact absurd rfl failure.1
    simp only at rest
    split at rest
    · obtain ⟨_, restored, -, finish⟩ := (Program.run_bind_some _).mp rest
      exact finished finish
    · obtain ⟨failed, calibrated, -, rest⟩ := (Program.run_bind_some _).mp rest
      split at rest
      · simp at rest
      · obtain ⟨_, saved, -, finish⟩ := (Program.run_bind_some _).mp rest
        exact finished finish

/-- A fast initialisation that fails leaves the register alone. -/
theorem fastInit_failure {sane : Bool} {world after : World σ} {value : Int} (failure : value ≠ 0)
    (ran : (wcfxsInitProslic params card timeslot true sane).run (handler env) world =
      some (value, after)) : SameFeed card world after := by
  obtain ⟨prelude, middle, first, rest⟩ := (Program.run_bind_some _).mp ran
  have start : SameFeed card world middle := SameFeed.of_every (prelude_feed true sane) _ _ _ first
  cases prelude with
  | error code =>
    obtain ⟨-, rfl⟩ : code = value ∧ middle = after := by simpa using rest
    exact start
  | ok tmp =>
    simp only [if_true] at rest
    obtain ⟨_, restored, restore, finish⟩ := (Program.run_bind_some _).mp rest
    have second : SameFeed card middle restored := SameFeed.of_every restoreCalregs_feed _ _ _ restore
    rcases finish_feed finish with success | ⟨-, third⟩
    · exact absurd success.1 failure
    · exact (start.trans second).trans third

end Initialisation

/-! ### Undisturbed runs -/

/-- Neither the register nor the copy has changed. -/
structure Undisturbed {σ : Type} (card : Card) (world after : World σ) : Prop where
  hook : SameVar .lasttxhook card world after
  feed : SameFeed card world after
  idle : IdleSmall card world → IdleSmall card after

/-- A request that changes neither. -/
structure Leaves (card : Card) (op : Op) : Prop where
  hook : SparesVar .lasttxhook card op
  feed : SparesFeed card op
  idle : KeepsIdle card op

section Undisturbed

variable {σ α : Type} {env : Env σ} {card : Card} {first world after : World σ}

theorem Undisturbed.refl (world : World σ) : Undisturbed card world world :=
  ⟨rfl, rfl, fun small => small⟩

theorem Undisturbed.trans (start : Undisturbed card first world) (finish : Undisturbed card world after) :
    Undisturbed card first after :=
  ⟨start.hook.trans finish.hook, start.feed.trans finish.feed,
    fun small => finish.idle (start.idle small)⟩

theorem Undisturbed.mirrors (same : Undisturbed card world after) :
    Mirrors card after ↔ Mirrors card world := by
  unfold Mirrors
  rw [show linefeed card after.log = _ from same.feed,
    show fxsInt .lasttxhook card after = _ from same.hook]

theorem Leaves.step {op : Op} (leaves : Leaves card op) {answer : op.Ans}
    (answered : handler env op world = some (answer, after)) : Undisturbed card world after :=
  ⟨leaves.hook.same answered, leaves.feed.same answered, leaves.idle.small answered⟩

theorem Undisturbed.of_every {program : Prog α} (every : program.Every (Leaves card)) :
    Program.Respects (handler env) (Undisturbed card) program := fun _ _ _ ran =>
  every.run_rel Undisturbed.refl Undisturbed.trans (fun _ leaves _ _ _ => leaves.step) ran

theorem Leaves.of_uses {reads writes : List UInt8} (unwritten : 64 ∉ writes) (op : Op)
    (uses : Uses card reads writes op) : Leaves card op :=
  ⟨.of_uses op uses, .of_uses unwritten op uses, .inl (.of_uses op uses)⟩

theorem Leaves.of_local {modtype : ModType} {other : Card} (different : other ≠ card) (op : Op)
    (stays : Local modtype other op) : Leaves card op :=
  ⟨(stays.spares .lasttxhook different op).1, (stays.spares .lasttxhook different op).2,
    .inl (stays.spares .idletxhookstate different op).1⟩

/-- Different variables of a card. -/
theorem SparesVar.of_ne {var other : FxsVar} (ne : other ≠ var) (value : Int) :
    SparesVar var card (.storeInt (other.offset card) value) := by
  have bound := card.isLt
  have rows : other.index ≠ var.index := by
    cases var <;> cases other <;> first | exact absurd rfl ne | decide
  unfold SparesVar FxsVar.offset
  omega

theorem readInt_store {var other : FxsVar} (ne : other ≠ var) (mod : Bytes) (value : Int) :
    readInt (writeInt mod (other.offset card) value) (var.offset card) =
      readInt mod (var.offset card) := by
  refine readInt_congr fun a inside => writeInt_apply_of_notMem fun also => ?_
  obtain ⟨low, high⟩ := inside
  obtain ⟨alsoLow, alsoHigh⟩ := also
  have apart : SparesVar var card (.storeInt (other.offset card) value) := .of_ne ne value
  unfold SparesVar at apart
  omega

theorem Leaves.storeIdle {value : Int} (low : 0 ≤ value) (high : value < 256) :
    Leaves card (.storeInt (FxsVar.idletxhookstate.offset card) value) :=
  ⟨.of_ne (by decide) value, trivial, .inr ⟨value, low, high, rfl⟩⟩

/-- Memory and exchanges that keep both. -/
theorem Undisturbed.of_world {last : World σ}
    (hook : readInt last.mod (FxsVar.lasttxhook.offset card) = fxsInt .lasttxhook card world)
    (idle : readInt last.mod (FxsVar.idletxhookstate.offset card) = fxsInt .idletxhookstate card world)
    (feed : linefeed card last.log = linefeed card world.log) : Undisturbed card world last :=
  ⟨hook, feed, SameVar.idleSmall idle⟩

/-- A world after a store. -/
def stored (var : FxsVar) (card : Card) (value : Int) (world : World σ) : World σ :=
  { world with mod := writeInt world.mod (var.offset card) value }

@[simp] theorem stored_log (var : FxsVar) (value : Int) (world : World σ) :
    (stored var card value world).log = world.log := rfl

theorem stored_undisturbed (var : FxsVar) (notHook : var ≠ .lasttxhook)
    (notIdle : var ≠ .idletxhookstate) (value : Int) (world : World σ) :
    Undisturbed card world (stored var card value world) :=
  .of_world (readInt_store notHook world.mod value) (readInt_store notIdle world.mod value) rfl

end Undisturbed

/-! ### Polling -/

section Polling

variable {σ : Type} (env : Env σ) (card : Card) (world : World σ)

/-- The hook switch, as the poll reads it. -/
def hookRead : Int := ((env.getreg card 68 world.hw).1 &&& 1).toNat

/-- `union mod` once the poll has counted the debounce timer down. -/
def countedDown : Bytes :=
  let mod := writeInt world.mod (FxsVar.debounce.offset card) (fxsInt .debounce card world - 4 * 8)
  if readInt mod (FxsVar.debounce.offset card) = 0 then
    writeInt mod (FxsVar.debouncehook.offset card) (hookRead env card world)
  else mod

/-- The poll takes the card off hook. -/
def GoesOffHook : Prop :=
  hookRead env card world = fxsInt .lastrxhook card world ∧ fxsInt .debounce card world > 0 ∧
    readInt (countedDown env card world) (FxsVar.oldrxhook.offset card) = 0 ∧
    readInt (countedDown env card world) (FxsVar.debouncehook.offset card) ≠ 0

/-- The world in which the poll looks at the debounced hook state. -/
def polled : World σ :=
  { world with
    mod := countedDown env card world
    hw := (env.getreg card 68 world.hw).2
    log := world.log ++ [.read card 68 (env.getreg card 68 world.hw).1] }

/-- The poll takes the card on hook. -/
def GoesOnHook : Prop :=
  hookRead env card world = fxsInt .lastrxhook card world ∧ fxsInt .debounce card world > 0 ∧
    readInt (countedDown env card world) (FxsVar.oldrxhook.offset card) ≠ 0 ∧
    readInt (countedDown env card world) (FxsVar.debouncehook.offset card) = 0

/-- The world in which the poll has read the hook switch. -/
def hookSeen : World σ :=
  { world with
    hw := (env.getreg card 68 world.hw).2
    log := world.log ++ [.read card 68 (env.getreg card 68 world.hw).1] }

/-- The world in which the poll re-initialises the card. -/
def offHook : World σ :=
  { polled env card world with log := (polled env card world).log ++ [.signalled card .offhook] }

/-- The world in which the poll has told zaptel of an on-hook. -/
def onHook : World σ :=
  { polled env card world with log := (polled env card world).log ++ [.signalled card .onhook] }

/-- The poll re-initialises the card, and the re-initialisation succeeds. -/
def Reinitialises (params : Params) : Prop :=
  params.robust = true ∧ GoesOffHook env card world ∧
    Program.Ends (handler env) (wcfxsInitProslic params card (cardTimeslot card) true true)
      (offHook env card world) fun result _ => result = 0

theorem readInt_countedDown {var : FxsVar} (notTimer : .debounce ≠ var) (notHook : .debouncehook ≠ var) :
    readInt (countedDown env card world) (var.offset card) = fxsInt var card world := by
  simp only [countedDown]
  split
  · rw [readInt_store notHook, readInt_store notTimer]
    rfl
  · rw [readInt_store notTimer]
    rfl

theorem polled_undisturbed : Undisturbed card world (polled env card world) :=
  .of_world (readInt_countedDown env card world (by decide) (by decide))
    (readInt_countedDown env card world (by decide) (by decide)) (linefeed_read _ _ _)

theorem offHook_undisturbed : Undisturbed card world (offHook env card world) :=
  (polled_undisturbed env card world).trans (.of_world rfl rfl (linefeed_signalled _ _))

variable {env card world}

theorem ends_when_store {test : Prop} [Decidable test] {offset : Nat} {value : Int}
    {Q : Unit → World σ → Prop} :
    Program.Ends (handler env) (Program.when test (storeInt offset value)) world Q ↔
      Q () { world with mod := if test then writeInt world.mod offset value else world.mod } := by
  rw [Program.ends_when, ends_storeInt]
  split
  · rfl
  · rfl

/-- **What a poll does**: it starts the debounce timer when the hook switch has moved; it lets it run
when it has not, and the debounced state may then go off hook or on hook. -/
theorem checkHook_run {params : Params} {reinit : Prog Int} {after : World σ}
    (ran : (wcfxsProslicCheckHook params reinit card).run (handler env) world = some ((), after)) :
    ∃ last, after = stored .lastrxhook card (hookRead env card world) last ∧
      ((hookRead env card world ≠ fxsInt .lastrxhook card world ∧
          last = stored .debounce card 256 (hookSeen env card world)) ∨
        (hookRead env card world = fxsInt .lastrxhook card world ∧ ¬ fxsInt .debounce card world > 0 ∧
          last = hookSeen env card world) ∨
        (GoesOffHook env card world ∧ ∃ middle, last = stored .oldrxhook card 1 middle ∧
          if params.robust then ∃ value, reinit.run (handler env) (offHook env card world) =
            some (value, middle) else middle = offHook env card world) ∨
        (GoesOnHook env card world ∧ last = stored .oldrxhook card 0 (onHook env card world)) ∨
        (hookRead env card world = fxsInt .lastrxhook card world ∧ fxsInt .debounce card world > 0 ∧
          ¬ GoesOffHook env card world ∧ ¬ GoesOnHook env card world ∧ last = polled env card world)) := by
  have ends : Program.Ends (handler env) (wcfxsProslicCheckHook params reinit card) world
    fun _ last => last = after := ⟨_, _, ran, rfl⟩
  simp only [wcfxsProslicCheckHook, Program.ends_bind, ends_getreg, ends_loadInt, Program.ends_ite,
    ends_storeInt] at ends
  split at ends
  · rename_i changed
    exact ⟨stored .debounce card 256 (hookSeen env card world), ends.symm, .inl ⟨changed, rfl⟩⟩
  rename_i same
  rw [not_not] at same
  rw [Program.ends_when] at ends
  split at ends
  · rename_i positive
    simp only [Program.ends_bind, ends_loadInt, Program.ends_ite, ends_storeInt, ends_when_store,
      ends_ztHooksig] at ends
    -- the worlds in which the poll decides, under their names
    change if readInt (countedDown env card world) (FxsVar.oldrxhook.offset card) = 0 ∧
        readInt (countedDown env card world) (FxsVar.debouncehook.offset card) ≠ 0 then
      Program.Ends (handler env) (Program.when (params.robust = true) do
          let _ ← reinit
          pure ()) (offHook env card world) fun _ middle =>
        stored .lastrxhook card (hookRead env card world) (stored .oldrxhook card 1 middle) = after
      else
      Program.Ends (handler env) (Program.when
          (readInt (countedDown env card world) (FxsVar.oldrxhook.offset card) ≠ 0 ∧
            readInt (countedDown env card world) (FxsVar.debouncehook.offset card) = 0) do
          ztHooksig card .onhook
          fxsStore .oldrxhook card 0) (polled env card world) fun _ last =>
        stored .lastrxhook card (hookRead env card world) last = after at ends
    split at ends
    · rename_i off
      rw [Program.ends_when] at ends
      split at ends
      · rename_i robust
        obtain ⟨value, middle, again, last⟩ := Program.ends_bind.mp ends
        rw [Program.ends_pure] at last
        refine ⟨_, last.symm, .inr (.inr (.inl ⟨⟨same, positive, off⟩, middle, rfl, ?_⟩))⟩
        rw [if_pos robust]
        exact ⟨value, again⟩
      · rename_i weak
        refine ⟨_, ends.symm, .inr (.inr (.inl ⟨⟨same, positive, off⟩, _, rfl, ?_⟩))⟩
        rw [if_neg weak]
    · rename_i stays
      rw [Program.ends_when, Program.ends_bind, ends_ztHooksig, ends_storeInt] at ends
      split at ends
      · rename_i on
        exact ⟨stored .oldrxhook card 0 (onHook env card world), ends.symm,
          .inr (.inr (.inr (.inl ⟨⟨same, positive, on⟩, rfl⟩)))⟩
      · rename_i neither
        refine ⟨_, ends.symm, .inr (.inr (.inr (.inr ⟨same, positive, fun goes => ?_, fun goes => ?_, rfl⟩)))⟩
        · exact stays goes.2.2
        · exact neither goes.2.2
  · rename_i idle
    exact ⟨hookSeen env card world, ends.symm, .inr (.inl ⟨same, idle, rfl⟩)⟩

/-- **A poll** re-initialises the card, or leaves the register and the copy alone. -/
theorem checkHook_cases {params : Params} {reinit : Prog Int} {after : World σ}
    (ran : (wcfxsProslicCheckHook params reinit card).run (handler env) world = some ((), after)) :
    (¬ (params.robust = true ∧ GoesOffHook env card world) ∧ Undisturbed card world after) ∨
    (params.robust = true ∧ GoesOffHook env card world ∧ ∃ value middle,
      reinit.run (handler env) (offHook env card world) = some (value, middle) ∧
      Undisturbed card middle after) := by
  have put : ∀ (var : FxsVar) (value : Int) (world : World σ), var ≠ .lasttxhook →
      var ≠ .idletxhookstate → Undisturbed card world (stored var card value world) :=
    fun var value world notHook notIdle => stored_undisturbed var notHook notIdle value world
  have seen : Undisturbed card world (hookSeen env card world) := .of_world rfl rfl (linefeed_read _ _ _)
  obtain ⟨last, rfl, cases⟩ := checkHook_run ran
  have finish : Undisturbed card last (stored .lastrxhook card (hookRead env card world) last) :=
    put .lastrxhook _ last (by decide) (by decide)
  rcases cases with ⟨changed, rfl⟩ | ⟨-, idle, rfl⟩ | ⟨goes, middle, rfl, again⟩ | ⟨goes, rfl⟩ |
    ⟨-, -, stays, -, rfl⟩
  · refine .inl ⟨fun both => changed both.2.1, (seen.trans ?_).trans finish⟩
    exact put .debounce _ _ (by decide) (by decide)
  · exact .inl ⟨fun both => idle both.2.2.1, seen.trans finish⟩
  · have done := (put .oldrxhook 1 middle (by decide) (by decide)).trans finish
    split at again
    · rename_i robust
      obtain ⟨value, again⟩ := again
      exact .inr ⟨robust, goes, value, middle, again, done⟩
    · rename_i weak
      subst again
      exact .inl ⟨fun both => weak both.1, (offHook_undisturbed env card world).trans done⟩
  · -- a card on hook is not off hook as well
    refine .inl ⟨fun both => goes.2.2.1 both.2.2.2.1, Undisturbed.trans ?_ finish⟩
    have signalled : Undisturbed card (polled env card world) (onHook env card world) :=
      .of_world rfl rfl (linefeed_signalled _ _)
    exact ((polled_undisturbed env card world).trans signalled).trans
      (put .oldrxhook 0 _ (by decide) (by decide))
  · exact .inl ⟨fun both => stays both.2, (polled_undisturbed env card world).trans finish⟩

/-- **The poll of a card** keeps the copy right, unless it re-initialises the card while the copy is
not 1. -/
theorem poll_mirrors {params : Params} {after : World σ}
    (ran : (wcfxsProslicCheckHook params
      (wcfxsInitProslic params card (cardTimeslot card) true true) card).run (handler env) world =
        some ((), after)) (mirrors : Mirrors card world) (idle : IdleSmall card world) :
    (Mirrors card after ↔
      (Reinitialises env card world params → fxsInt .lasttxhook card world = 1)) ∧
    IdleSmall card after := by
  rcases checkHook_cases ran with ⟨not, same⟩ | ⟨robust, goes, value, middle, init, same⟩
  · refine ⟨iff_of_true (same.mirrors.mpr mirrors) fun again => ?_, same.idle idle⟩
    exact absurd ⟨again.1, again.2.1⟩ not
  · have start := offHook_undisturbed env card world
    have hook : fxsInt .lasttxhook card middle = fxsInt .lasttxhook card world :=
      start.hook.trans (SameVar.of_every (initProslic_lasttxhook true true) _ _ _ init)
    refine ⟨?_, same.idle (initProslic_idle init)⟩
    rw [same.mirrors]
    by_cases success : value = 0
    · subst success
      have again : Reinitialises env card world params := ⟨robust, goes, 0, middle, init, rfl⟩
      have feed := initProslic_success init
      constructor
      · rintro ⟨value, is, eq⟩ _
        obtain rfl : value = 1 := Option.some.inj (is.symm.trans feed)
        rw [← hook, ← eq]
        rfl
      · intro one
        exact ⟨1, feed, by rw [hook, one again]; rfl⟩
    · have feed : SameFeed card world middle := start.feed.trans (fastInit_failure success init)
      refine iff_of_true ?_ fun again => absurd (again.2.2.of_run init) success
      obtain ⟨value, is, eq⟩ := mirrors
      exact ⟨value, Eq.trans feed is, by rw [eq, hook]⟩

end Polling

/-! ### Signalling, ioctls and close -/

/-- `lasttxhook` holds a value for the register. -/
def HookSmall {σ : Type} (card : Card) (world : World σ) : Prop :=
  0 ≤ fxsInt .lasttxhook card world ∧ fxsInt .lasttxhook card world < 256

section Own

variable {σ : Type} {env : Env σ} {card : Card} {world after : World σ} {params : Params}
  {modtype : Card → ModType}

theorem Mirrors.hookSmall (mirrors : Mirrors card world) : HookSmall card world := by
  obtain ⟨value, -, eq⟩ := mirrors
  have bound := value.toNat_lt
  unfold HookSmall
  omega

theorem toNat_ofInt {value : Int} (low : 0 ≤ value) (high : value < 256) :
    ((UInt8.ofInt value).toNat : Int) = value := by
  unfold UInt8.ofInt
  rw [UInt8.toNat_ofNat']
  omega

/-- The copy is written to the register. -/
theorem mirrors_wrote (small : HookSmall card world) :
    Mirrors card { world with
      hw := env.setreg card 64 (UInt8.ofInt (fxsInt .lasttxhook card world)) world.hw
      log := world.log ++ [.wrote card 64 (UInt8.ofInt (fxsInt .lasttxhook card world))] } :=
  ⟨_, linefeed_wrote _ _, toNat_ofInt small.1 small.2⟩

/-- The line feed to set is one of five values, or the idle state. -/
theorem fxsLinefeed_small (hook : HookSmall card world) (idle : IdleSmall card world)
    (sig : Signalling) (txsig : TxSig) :
    Program.Ends (handler env) (fxsLinefeed card sig txsig) world
      fun _ last => HookSmall card last ∧ IdleSmall card last := by
  have store : ∀ (world : World σ) (value : Int), IdleSmall card world → 0 ≤ value → value < 256 →
      Program.Ends (handler env) (fxsStore .lasttxhook card value) world
        fun _ last => HookSmall card last ∧ IdleSmall card last := by
    intro world value idle low high
    rw [ends_storeInt]
    refine ⟨?_, ?_⟩
    · unfold HookSmall fxsInt
      rw [readInt_writeInt (by omega) (by omega)]
      exact ⟨low, high⟩
    · unfold IdleSmall fxsInt
      rw [readInt_store (by decide)]
      exact idle
  have copy : ∀ world : World σ, IdleSmall card world →
      Program.Ends (handler env) (idleLinefeed card) world
        fun _ last => HookSmall card last ∧ IdleSmall card last := by
    intro world idle
    unfold idleLinefeed
    rw [Program.ends_bind, ends_loadInt]
    exact store world _ idle idle.1 idle.2
  cases txsig with
  | onhook =>
    unfold fxsLinefeed
    rw [Program.ends_bind, ends_setLed]
    cases sig with
    | em => exact copy _ idle
    | fxoks => exact copy _ idle
    | fxols => exact copy _ idle
    | fxogs => exact store _ 3 idle (by decide) (by decide)
    | other => exact Program.ends_pure.mpr ⟨hook, idle⟩
  | offhook =>
    unfold fxsLinefeed
    rw [Program.ends_bind, ends_setLed]
    cases sig with
    | em => exact store _ 5 idle (by decide) (by decide)
    | _ => exact copy _ idle
  | start =>
    unfold fxsLinefeed
    rw [Program.ends_bind, ends_setLed]
    exact store _ 4 idle (by decide) (by decide)
  | kewl => exact store _ 0 idle (by decide) (by decide)

/-- **Hook signalling writes the copy to the register.** -/
theorem hooksig_mirrors (fxs : modtype card = .fxs) {txsig : TxSig} {sig : Signalling}
    (ran : (wcfxsHooksig params modtype card txsig sig).run (handler env) world = some ((), after))
    (mirrors : Mirrors card world) (idle : IdleSmall card world) :
    Mirrors card after ∧ IdleSmall card after := by
  rw [wcfxsHooksig, fxs] at ran
  obtain ⟨_, chosen, choose, apply⟩ := (Program.run_bind_some _).mp ran
  obtain ⟨hook, small⟩ := (fxsLinefeed_small mirrors.hookSmall idle sig txsig).of_run choose
  obtain ⟨_, printed, print, write⟩ := (Program.run_bind_some _).mp apply
  have same : Undisturbed card chosen printed := by
    refine Undisturbed.of_every (.when fun _ => .forM fun _ _ => ?_) _ _ _ print
    exact .step ⟨trivial, trivial, .inl trivial⟩ fun _ => trivial
  have hook : HookSmall card printed := by
    unfold HookSmall
    rw [show fxsInt .lasttxhook card printed = _ from same.hook]
    exact hook
  cases Option.some.inj write
  exact ⟨mirrors_wrote hook, same.idle small⟩

/-- **The on-hook transfer ioctl changes both or neither.** -/
theorem onhookTransfer_mirrors {data : Option Int} {result : Int}
    (ran : (wcfxsIoctl params modtype card (.onhookTransfer data)).run (handler env) world =
      some (result, after)) (mirrors : Mirrors card world) (idle : IdleSmall card world) :
    Mirrors card after ∧ IdleSmall card after := by
  have ends : Program.Ends (handler env) (wcfxsIoctl params modtype card (.onhookTransfer data)) world
    fun _ last => last = after := ⟨_, _, ran, rfl⟩
  cases data with
  | none =>
    have same : world = after := by
      unfold wcfxsIoctl at ends
      rw [Program.ends_ite, Program.ends_pure, Program.ends_pure, ite_self] at ends
      exact ends
    subst same
    exact ⟨mirrors, idle⟩
  | some x =>
    let timed := stored .ohttimer card (x * 8) world
    let idled := stored .idletxhookstate card 2 timed
    have first : Undisturbed card world timed := stored_undisturbed _ (by decide) (by decide) _ _
    have second : Undisturbed card timed idled :=
      ⟨readInt_store (by decide) _ _, rfl, fun _ => idleSmall_store (by decide) (by decide)⟩
    have both := first.trans second
    simp only [wcfxsIoctl, Program.ends_ite, Program.ends_pure, Program.ends_bind, ends_storeInt,
      Program.ends_when, ends_loadInt, ends_setreg] at ends
    split at ends
    · subst ends
      exact ⟨mirrors, idle⟩
    split at ends
    · split at ends
      · subst ends
        -- the copy is 2 before it is written
        have hook : HookSmall card (stored .lasttxhook card 2 idled) := by
          unfold HookSmall fxsInt stored
          rw [readInt_writeInt (by decide) (by decide)]
          decide
        refine ⟨mirrors_wrote hook, ?_⟩
        have small := both.idle idle
        unfold IdleSmall fxsInt at small ⊢
        rw [readInt_store (by decide)]
        exact small
      · subst ends
        exact ⟨both.mirrors.mpr mirrors, both.idle idle⟩
    · subst ends
      exact ⟨first.mirrors.mpr mirrors, first.idle idle⟩

theorem readRow_every {P : Op → Prop} (read : ∀ reg, P (.getreg card reg)) (row : List UInt8) :
    (readRow card row).Every P := by
  induction row with
  | nil => trivial
  | cons reg rest ih => exact .step (read reg) fun _ => .bind ih fun _ => trivial

theorem readIndirectRow_every {P : Op → Prop}
    (read : ∀ address, (wcfxsProslicGetregIndirect params card address).Every P) (row : List UInt8) :
    (readIndirectRow params card row).Every P := by
  induction row with
  | nil => trivial
  | cons address rest ih => exact .bind (read address) fun _ => .bind ih fun _ => trivial

/-- What the other ioctls ask for: registers, and a copy to the user. -/
theorem ioctl_every {P : Op → Prop} (read : ∀ reg, P (.getreg card reg))
    (indirect : ∀ op, Uses card (indirectReads params) (indirectWrites params) op → P op)
    (copy : ∀ data, P (.copyToUser data)) {request : Ioctl}
    (plain : ∀ data, request ≠ .onhookTransfer data)
    (write : ∀ reg val, request = .setReg (some (false, reg, val)) → P (.setreg card reg val.toUInt8)) :
    (wcfxsIoctl params modtype card request).Every P := by
  have out : ∀ data, (copyOut data).Every P := fun data => .step (copy data) fun _ => trivial
  have getIndirect : ∀ address, (wcfxsProslicGetregIndirect params card address).Every P :=
    fun address => (Uses.getregIndirect (indirect_inside params [] []) address).mono indirect
  cases request with
  | onhookTransfer data => exact absurd rfl (plain data)
  | getStats =>
    refine .bind ?_ fun _ => out _
    cases modtype card with
    | fxs => exact .bind (readRow_every read _) fun _ => trivial
    | fxo => exact .bind (readRow_every read _) fun _ => trivial
  | getRegs =>
    refine .bind ?_ fun _ => .bind ?_ fun _ => out _
    · cases modtype card with
      | fxs => exact readIndirectRow_every getIndirect _
      | fxo => trivial
    · cases modtype card with
      | fxs => exact readRow_every read _
      | fxo => exact .bind (readRow_every read _) fun _ => trivial
  | setReg data =>
    match data with
    | none => trivial
    | some (isIndirect, reg, val) =>
      refine .ite (fun _ => .ite (fun _ => trivial) fun _ => ?_) fun direct => ?_
      · exact .bind ((Uses.setregIndirect (indirect_inside params [] []) reg val).mono indirect)
          fun _ => trivial
      · rw [Bool.not_eq_true] at direct
        subst direct
        exact .step (write reg val rfl) fun _ => trivial
  | unknown => trivial

end Own

/-! ### Whole runs -/

/-- The ways into the driver after initialisation. -/
inductive EntryPoint
  | poll
  | hooksig (txsig : TxSig) (sig : Signalling)
  | ioctl (request : Ioctl)
  | close

/-- A call into the driver, for a card. -/
structure Entry where
  card : Card
  point : EntryPoint

/-- A `WCFXS_SET_REG` of the line feed register. -/
def Entry.SetsFeed (entry : Entry) (card : Card) : Prop :=
  entry.card = card ∧ ∃ val, entry.point = .ioctl (.setReg (some (false, 64, val)))

section Entries

variable (params : Params) (modtype : Card → ModType)

/-- The program of a call. -/
def Entry.prog (entry : Entry) : Prog Unit :=
  match entry.point with
  | .poll => checkCard params modtype entry.card
  | .hooksig txsig sig => wcfxsHooksig params modtype entry.card txsig sig
  | .ioctl request => do
      let _ ← wcfxsIoctl params modtype entry.card request
      pure ()
  | .close => do
      let _ ← wcfxsClose modtype entry.card
      pure ()

variable {σ : Type} (env : Env σ)

/-- The world after a call. -/
def Entry.run (entry : Entry) (world : World σ) : Option (World σ) :=
  ((entry.prog params modtype).run (handler env) world).map Prod.snd

/-- A property of every world that calls, one after the other, reach. -/
def Throughout (I : World σ → Prop) : List Entry → World σ → Prop
  | [], world => I world
  | entry :: rest, world => I world ∧
      ∀ after, entry.run params modtype env world = some after → Throughout I rest after

/-- A property of every call, in the world it is made in. -/
def Guarded (C : Entry → World σ → Prop) : List Entry → World σ → Prop
  | [], _ => True
  | entry :: rest, world => ∀ after, entry.run params modtype env world = some after →
      C entry world ∧ Guarded C rest after

/-- A call that does not re-initialise the card, unless the copy is 1. -/
def Safe (card : Card) (entry : Entry) (world : World σ) : Prop :=
  entry.card = card → entry.point = .poll → Reinitialises env card world params →
    fxsInt .lasttxhook card world = 1

variable {params modtype env} {card : Card} {world after : World σ}

theorem Entry.run_some {entry : Entry} (ran : entry.run params modtype env world = some after) :
    (entry.prog params modtype).run (handler env) world = some ((), after) := by
  obtain ⟨⟨⟨⟩, last⟩, whole, rfl⟩ := Option.map_eq_some_iff.mp ran
  exact whole

theorem ioctl_local (other : Card) (request : Ioctl) :
    (wcfxsIoctl params modtype other request).Every (Local (modtype other) other) := by
  by_cases transfer : ∃ data, request = .onhookTransfer data
  · obtain ⟨data, rfl⟩ := transfer
    by_cases type : modtype other = .fxs
    · rw [type]
      exact (onhookTransfer_plain params other data).mono Plain.local
    · exact .ite (fun _ => trivial) fun fxs => absurd type fxs
  · rw [not_exists] at transfer
    exact ioctl_every (fun _ => rfl) Local.of_uses (fun _ => trivial) transfer fun _ _ _ => rfl

theorem hooksig_local (other : Card) (txsig : TxSig) (sig : Signalling) :
    (wcfxsHooksig params modtype other txsig sig).Every (Local (modtype other) other) := by
  cases type : modtype other with
  | fxs => exact (hooksig_plain params type txsig sig).mono Plain.local
  | fxo =>
    rw [wcfxsHooksig, type]
    cases txsig with
    | start => exact .step (Local.fxo _ _) fun _ => .call rfl
    | offhook => exact .step (Local.fxo _ _) fun _ => .call rfl
    | onhook => exact .step (Local.fxo _ _) fun _ => .call rfl
    | kewl => trivial

theorem close_local (other : Card) :
    (wcfxsClose modtype other).Every (Local (modtype other) other) := by
  refine .step trivial fun _ => .step (.inr rfl) fun _ => .bind (.when fun fxs => ?_) fun _ => trivial
  rw [fxs]
  exact .call (Local.fxs _ _)

/-- **Calls for other cards** respect what every request of those cards respects. -/
theorem Entry.elsewhere_rel {R : World σ → World σ → Prop} (refl : ∀ world, R world world)
    (trans : ∀ {first middle last}, R first middle → R middle last → R first last) {entry : Entry}
    (step : ∀ op, Local (modtype entry.card) entry.card op → ∀ world answer after,
      handler env op world = some (answer, after) → R world after)
    (ran : entry.run params modtype env world = some after) : R world after := by
  have ran := Entry.run_some ran
  obtain ⟨other, point⟩ := entry
  have every : ∀ {α : Type} {program : Prog α}, program.Every (Local (modtype other) other) →
      Program.Respects (handler env) R program :=
    fun stays _ _ _ ran => stays.run_rel refl trans step ran
  suffices Program.Respects (handler env) R (Entry.prog params modtype ⟨other, point⟩)
    from this _ _ _ ran
  cases point with
  | poll =>
    rw [Entry.prog, checkCard]
    cases type : modtype other with
    | fxs =>
      rw [show modtype (Entry.card ⟨other, .poll⟩) = .fxs from type] at step
      rw [type] at every
      refine proslicCheckHook_respects params refl trans ?_ (every (initProslic_local params other _ _ _))
      exact fun op plain => step op (plain.local op)
    | fxo =>
      rw [type] at every
      exact every (voicedaaCheckHook_local other)
  | hooksig txsig sig => exact every (hooksig_local other txsig sig)
  | ioctl request => exact every (.bind (ioctl_local other request) fun _ => trivial)
  | close => exact every (.bind (close_local other) fun _ => trivial)

theorem Entry.elsewhere {entry : Entry} (different : entry.card ≠ card)
    (ran : entry.run params modtype env world = some after) : Undisturbed card world after :=
  Entry.elsewhere_rel Undisturbed.refl Undisturbed.trans
    (fun op stays _ _ _ => (Leaves.of_local different op stays).step) ran

theorem close_leaves : (wcfxsClose modtype card).Every (Leaves card) := by
  refine .step ⟨trivial, trivial, .inl trivial⟩ fun _ => .step ⟨trivial, trivial, .inl trivial⟩ fun _ => ?_
  refine .bind (.when fun _ => ?_) fun _ => trivial
  exact .call (Leaves.storeIdle (by decide) (by decide))

/-- Calls for the card itself. -/
theorem Entry.here (fxs : modtype card = .fxs) {point : EntryPoint}
    (allowed : ¬ Entry.SetsFeed ⟨card, point⟩ card)
    (ran : Entry.run params modtype env ⟨card, point⟩ world = some after) (mirrors : Mirrors card world)
    (idle : IdleSmall card world) :
    (Mirrors card after ↔ Safe params env card ⟨card, point⟩ world) ∧ IdleSmall card after := by
  have ran := Entry.run_some ran
  have still : point ≠ .poll → Mirrors card after ∧ IdleSmall card after →
      (Mirrors card after ↔ Safe params env card ⟨card, point⟩ world) ∧ IdleSmall card after :=
    fun ne both => ⟨iff_of_true both.1 fun _ poll => absurd poll ne, both.2⟩
  have unchanged : Undisturbed card world after → Mirrors card after ∧ IdleSmall card after :=
    fun same => ⟨same.mirrors.mpr mirrors, same.idle idle⟩
  cases point with
  | poll =>
    rw [Entry.prog, checkCard, fxs] at ran
    obtain ⟨when, idle⟩ := poll_mirrors ran mirrors idle
    exact ⟨when.trans ⟨fun safe _ _ => safe, fun safe => safe rfl rfl⟩, idle⟩
  | hooksig txsig sig => exact still (by simp) (hooksig_mirrors fxs ran mirrors idle)
  | ioctl request =>
    refine still (by simp) ?_
    obtain ⟨_, last, first, rest⟩ := (Program.run_bind_some _).mp ran
    obtain rfl : last = after := by simpa using rest
    by_cases transfer : ∃ data, request = .onhookTransfer data
    · obtain ⟨data, rfl⟩ := transfer
      exact onhookTransfer_mirrors first mirrors idle
    · rw [not_exists] at transfer
      refine unchanged (Undisturbed.of_every (ioctl_every (fun _ => ⟨trivial, trivial, .inl trivial⟩)
        (Leaves.of_uses unwritten_indirect) (fun _ => ⟨trivial, trivial, .inl trivial⟩) transfer
        fun reg val set => ⟨trivial, .setreg ?_, .inl trivial⟩) _ _ _ first)
      rintro rfl
      exact allowed ⟨rfl, val, by rw [set]⟩
  | close =>
    have every : (Entry.prog params modtype ⟨card, .close⟩).Every (Leaves card) :=
      .bind close_leaves fun _ => trivial
    exact still (by simp) (unchanged (Undisturbed.of_every every _ _ _ ran))

/-- **One call.** -/
theorem Entry.mirrors (fxs : modtype card = .fxs) {entry : Entry} (allowed : ¬ entry.SetsFeed card)
    (ran : entry.run params modtype env world = some after) (mirrors : Mirrors card world)
    (idle : IdleSmall card world) :
    (Mirrors card after ↔ Safe params env card entry world) ∧ IdleSmall card after := by
  by_cases own : entry.card = card
  · subst own
    exact Entry.here fxs allowed ran mirrors idle
  · have same := Entry.elsewhere own ran
    exact ⟨iff_of_true (same.mirrors.mpr mirrors) fun own' => absurd own' own, same.idle idle⟩

/-- Every run, from a world in which the copy is right. -/
theorem throughout_iff (fxs : modtype card = .fxs) {entries : List Entry}
    (allowed : ∀ entry ∈ entries, ¬ entry.SetsFeed card) (mirrors : Mirrors card world)
    (idle : IdleSmall card world) :
    Throughout params modtype env (Mirrors card) entries world ↔
      Guarded params modtype env (Safe params env card) entries world := by
  induction entries generalizing world with
  | nil => exact iff_of_true mirrors trivial
  | cons entry rest ih =>
    have one : ∀ after, entry.run params modtype env world = some after →
        (Mirrors card after ↔ Safe params env card entry world) ∧ IdleSmall card after :=
      fun after ran => Entry.mirrors fxs (allowed entry List.mem_cons_self) ran mirrors idle
    have more := fun other member => allowed other (List.mem_cons_of_mem entry member)
    constructor
    · rintro ⟨-, all⟩ after ran
      obtain ⟨step, idle⟩ := one after ran
      have start : Mirrors card after := by
        cases rest with
        | nil => exact all after ran
        | cons => exact (all after ran).1
      exact ⟨step.mp start, (ih more start idle).mp (all after ran)⟩
    · intro guarded
      refine ⟨mirrors, fun after ran => ?_⟩
      obtain ⟨safe, others⟩ := guarded after ran
      obtain ⟨step, idle⟩ := one after ran
      exact (ih more (step.mpr safe) idle).mpr others

theorem Throughout.start {I : World σ → Prop} {entries : List Entry}
    (throughout : Throughout params modtype env I entries world) : I world := by
  cases entries with
  | nil => exact throughout
  | cons => exact throughout.1

end Entries

/-! ### A card that initialises -/

/-- What the direct registers of a good ProSLIC read while it is initialised, given the indirect
address last written: its identity, its supply, its calibration, and the indirect registers. -/
def proslicReads (address reg : UInt8) : UInt8 :=
  let indirect := ((indirectRegs.find? fun entry => entry.address = address).map (·.initial)).getD 0
  match reg.toNat with
  | 0 => 3
  | 8 => 2
  | 11 => 0x33
  | 28 => indirect.toUInt8
  | 29 => (indirect >>> 8).toUInt8
  | 82 => 0xc0
  | 107 => 5
  | _ => 0

/-- A good ProSLIC, and a clock that counts its readings. -/
def goodProslic : Env (UInt8 × UInt32) where
  setreg := fun _ reg value state => if reg = 30 then (value, state.2) else state
  getreg := fun _ reg state => (proslicReads state.1 reg, state)
  setLed := fun _ _ => id
  forgetCard := id
  gsmSend := fun _ _ => id
  gsmReceive := fun _ => ([], ·)
  uart := fun _ _ => (0, ·)
  jiffies := fun state => (state.2, (state.1, state.2 + 1))
  waitJustABit := fun _ => id
  copyToUser := fun _ => (false, ·)

/-- The driver's structure as allocated. -/
def zeroed : World (UInt8 × UInt32) := start (0, 0) fun _ => 0

end Baps.Wcfxs
