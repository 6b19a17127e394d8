/-
**The TDM frame: which card gets which time slot.**

The frame has eight slots for eight cards, and the GSM module takes two of them. All slots come from
one counter, which an FXO port advances even if its card is not installed.

* `schedule_iff` — **when the time slots are a valid schedule**: with a working GSM module no
  installed card may have more than five ports before it that advance the counter; with a module whose
  codec runs but whose modem does not start, none may have fewer than two.
-/

import Baps.Gsm.Startup

namespace Baps.Gsm

open Interaction Wcfxs

/-! ### What initialisers leave alone -/

/-- A part of a run that publishes no card, and whose exchanges satisfy `E`. -/
structure Frame {σ : Type} (E : Event → Prop) (world after : World σ) : Prop where
  cardflag : ∀ x, after.cell (.cardflag x) = world.cell (.cardflag x)
  slot : ∀ x, after.cell (.slot x) = world.cell (.slot x)
  log : Says E world after

/-- An exchange of an FXO or FXS initialiser. -/
def ChipEvent (card : Card) : Event → Prop
  | .wrote c _ _ => c = card
  | .uart _ _ _ => False
  | .returned _ _ => False
  | _ => True

/-- An exchange of the GSM module's initialiser. -/
def ModuleEvent (card : Card) : Event → Prop
  | .wrote _ _ _ => False
  | .uart c _ _ => c = card
  | .returned _ _ => False
  | _ => True

/-- A request of the GSM module's initialiser. -/
def ModuleOp (card : Card) : Op → Prop
  | .uart c _ => c = card
  | .gsmSend _ _ => True
  | .gsmReceive _ => True
  | .waitJustABit _ => True
  | .hang => True
  | _ => False

section Frame

variable {σ : Type} {env : Env σ} {E : Event → Prop} {first world after : World σ}

theorem Frame.refl (E : Event → Prop) (world : World σ) : Frame E world world :=
  ⟨fun _ => rfl, fun _ => rfl, Says.refl E world⟩

theorem Frame.trans (start : Frame E first world) (finish : Frame E world after) :
    Frame E first after :=
  ⟨fun x => (finish.cardflag x).trans (start.cardflag x),
    fun x => (finish.slot x).trans (start.slot x), start.log.trans finish.log⟩

/-- A request of a chip's initialiser. -/
theorem Frame.of_local {type : ModType} {card : Card} {op : Op} (stays : Local type card op)
    {answer : op.Ans} (answered : handler env op world = some (answer, after)) :
    Frame (ChipEvent card) world after := by
  obtain ⟨-, cell, log⟩ := handler_some answered
  refine ⟨fun x => ?_, fun x => ?_, _, log, ?_⟩
  · rw [cell]
    cases op with
    | set cell value => rcases stays with rfl | rfl <;> simp [Op.assigned]
    | _ => rfl
  · rw [cell]
    cases op with
    | set cell value => rcases stays with rfl | rfl <;> simp [Op.assigned]
    | _ => rfl
  · cases op with
    | setreg c reg value =>
      obtain rfl : c = card := stays
      simp [Op.events, ChipEvent]
    | uart card access => exact stays.elim
    | returned card result => exact stays.elim
    | _ => simp [Op.events, ChipEvent]

/-- A request of the GSM module's initialiser. -/
theorem Frame.of_module {card : Card} {op : Op} (module : ModuleOp card op) {answer : op.Ans}
    (answered : handler env op world = some (answer, after)) :
    Frame (ModuleEvent card) world after := by
  obtain ⟨-, cell, log⟩ := handler_some answered
  refine ⟨fun x => ?_, fun x => ?_, _, log, ?_⟩
  · rw [cell]
    cases op with
    | set cell value => exact module.elim
    | _ => rfl
  · rw [cell]
    cases op with
    | set cell value => exact module.elim
    | _ => rfl
  · cases op with
    | setreg c reg value => exact module.elim
    | returned card result => exact module.elim
    | uart c access =>
      obtain rfl : c = card := module
      simp [Op.events, ModuleEvent]
    | _ => simp [Op.events, ModuleEvent]

/-- The frame of a whole initialiser, and of every state on its way. -/
theorem Frame.of_every {α : Type} {P : Op → Prop} {program : Prog α}
    (step : ∀ op, P op → ∀ (state : World σ) answer final,
      handler env op state = some (answer, final) → Frame E state final)
    (every : program.Every P) (world : World σ) :
    Program.Always (handler env) program world (Frame E world) :=
  every.visited_inv (fun op holds state answer final answered start =>
    start.trans (step op holds state answer final answered)) (Frame.refl E world)

end Frame

/-! ### Registers as last written -/

/-- The value an exchange writes to a register. -/
def writeOf (card : Card) (reg : UInt8) : Event → Option UInt8
  | .wrote c r value => if c = card ∧ r = reg then some value else none
  | _ => none

/-- The value last written to a register. -/
def written (log : List Event) (card : Card) (reg : UInt8) : Option UInt8 :=
  (log.filterMap (writeOf card reg)).getLast?

theorem written_append (log more : List Event) (card : Card) (reg : UInt8) :
    written (log ++ more) card reg = (written more card reg).or (written log card reg) := by
  rw [written, List.filterMap_append, List.getLast?_append]
  rfl

theorem written_none {log : List Event} {card : Card} {reg : UInt8}
    (nothing : ∀ event ∈ log, writeOf card reg event = none) : written log card reg = none := by
  rw [written, List.filterMap_eq_nil_iff.mpr nothing]
  rfl

/-- Registers of a card hold what a part of a run wrote to them. -/
def Sets {σ : Type} (card : Card) (row : List (UInt8 × UInt8)) (world after : World σ) : Prop :=
  ∀ entry ∈ row, written (since world after) card entry.1 = some entry.2

section Sets

variable {σ : Type} {env : Env σ} {card : Card} {row : List (UInt8 × UInt8)}
  {first world after : World σ}

/-- Whatever was written before. -/
theorem Sets.later (start : ∃ log, world.log = first.log ++ log)
    (finish : ∃ log, after.log = world.log ++ log) (sets : Sets card row world after) :
    Sets card row first after := by
  intro entry member
  rw [since_trans start finish, written_append, sets entry member]
  rfl

/-- As long as nothing is written after. -/
theorem Sets.keep (start : ∃ log, world.log = first.log ++ log) (sets : Sets card row first world)
    {E : Event → Prop} (finish : Says E world after)
    (apart : ∀ entry ∈ row, ∀ event, E event → writeOf card entry.1 event = none) :
    Sets card row first after := by
  intro entry member
  rw [since_trans start finish.grows, written_append,
    written_none fun event inLog => apart entry member event (finish.since event inLog)]
  exact sets entry member

/-- An exchange of a program that writes only the given registers. -/
def WritesOnly (card : Card) (writes : List UInt8) : Event → Prop
  | .wrote c reg _ => c = card → reg ∈ writes
  | _ => True

theorem WritesOnly.of_uses {reads writes : List UInt8} (op : Op) (uses : Uses card reads writes op)
    (answer : op.Ans) : ∀ event ∈ op.events answer, WritesOnly card writes event := by
  cases op with
  | setreg c reg value =>
    intro event member
    obtain rfl := List.mem_singleton.mp member
    exact fun _ => uses.2
  | _ => simp [Op.events, WritesOnly]

theorem WritesOnly.apart {writes : List UInt8} {reg : UInt8} (outside : reg ∉ writes) (event : Event)
    (only : WritesOnly card writes event) : writeOf card reg event = none := by
  cases event with
  | wrote c r value =>
    refine if_neg ?_
    rintro ⟨rfl, rfl⟩
    exact outside (only rfl)
  | _ => rfl

theorem setregs_log (card : Card) (row : List (UInt8 × UInt8)) (world : World σ) :
    Program.Finally (handler env) (setregs card row) world fun _ after =>
      after.log = world.log ++ row.map fun entry => .wrote card entry.1 entry.2 := by
  induction row generalizing world with
  | nil => exact Program.finally_pure.mpr (by simp)
  | cons entry rest ih =>
    refine (Program.finally_call_bind rfl).mpr ?_
    refine (ih _).mono fun _ final logEq => ?_
    rw [logEq, List.append_assoc]
    rfl

end Sets

/-! ### Initialised chips are programmed for their slot -/

/-- The registers of the time slot: the low and the high byte of the start counts for transmit and
receive. -/
def startRegs : PortType → List (UInt8 × UInt8)
  | .fxo => [(34, 35), (36, 37)]
  | .fxs => [(2, 3), (4, 5)]
  | _ => []

/-- The time slot registers with a low byte. -/
def startRow (type : PortType) (count : UInt8) : List (UInt8 × UInt8) :=
  (startRegs type).flatMap fun regs => [(regs.1, count), (regs.2, 0)]

/-- A program that, when it succeeds, has written the given registers. -/
def Programs {σ : Type} (env : Env σ) (card : Card) (row : List (UInt8 × UInt8))
    (program : Prog Int) : Prop :=
  ∀ world, Program.Finally (handler env) program world fun ret after =>
    ret = 0 → Sets card row world after

section Chips

variable {params : Params} {σ : Type} {env : Env σ} {card : Card} {row : List (UInt8 × UInt8)}

theorem Programs.fails {code : Int} (failure : code ≠ 0) : Programs env card row (pure code) :=
  fun _ => Program.finally_pure.mpr fun success => absurd success failure

theorem Programs.bind_yields {α : Type} {Q : α → Prop} {first : Prog α} {rest : α → Prog Int}
    (yields : first.Yields Q) (programs : ∀ value, Q value → Programs env card row (rest value)) :
    Programs env card row (first >>= rest) := by
  intro world
  refine Program.finally_bind.mpr fun value middle start ret after finish success => ?_
  have sets := programs value (yields.run start) middle ret after finish success
  exact sets.later (run_log start) (run_log finish)

theorem Programs.bind {α : Type} {first : Prog α} {rest : α → Prog Int}
    (programs : ∀ value, Programs env card row (rest value)) : Programs env card row (first >>= rest) := by
  intro world
  refine Program.finally_bind.mpr fun value middle start ret after finish success => ?_
  exact (programs value middle ret after finish success).later (run_log start) (run_log finish)

theorem Programs.ite {test : Prop} [Decidable test] {first second : Prog Int}
    (yes : Programs env card row first) (no : Programs env card row second) :
    Programs env card row (if test then first else second) := by
  split
  · exact yes
  · exact no

/-- Write the registers, and then leave them alone. -/
theorem Programs.setregs {all : List (UInt8 × UInt8)} {rest : Prog Int} {reads writes : List UInt8}
    (inRow : ∀ entry ∈ row,
      written (all.map fun entry => .wrote card entry.1 entry.2) card entry.1 = some entry.2)
    (uses : rest.Every (Uses card reads writes)) (apart : ∀ entry ∈ row, entry.1 ∉ writes) :
    Programs env card row (Wcfxs.setregs card all >>= fun _ => rest) := by
  intro world
  refine Program.finally_bind.mpr fun _ middle start ret after finish _ => ?_
  have logEq := setregs_log card all world _ _ start
  have sets : Sets card row world middle := by
    intro entry member
    rw [since_eq logEq]
    exact inRow entry member
  have quiet : Says (WritesOnly card writes) middle after :=
    Says.of_every WritesOnly.of_uses uses _ _ _ finish
  exact sets.keep ⟨_, logEq⟩ quiet fun entry member => WritesOnly.apart (apart entry member)

/-- The options leave the time slot registers alone. -/
theorem timeslot_apart {reg : UInt8} (timeslot : reg ∈ ([2, 3, 4, 5] : List UInt8)) :
    reg ∉ optionsWrites params := by
  intro member
  rcases List.mem_append.mp member with plain | indirect
  · revert reg
    simp
  · have named := (params.regs.apart reg (by
      simp only [indirectWrites, List.mem_cons, List.not_mem_nil] at indirect ⊢
      tauto)).1
    exact named (List.mem_append_left [64] timeslot)

/-- **An FXO chip that comes up** is programmed for its slot. -/
theorem initVoicedaa_programs (timeslot : UInt8) (sane : Bool) :
    Programs env card (startRow .fxo timeslot) (wcfxsInitVoicedaa params card timeslot sane) := by
  refine .bind fun insane => .ite (.fails (by decide)) ?_
  refine .bind fun _ => .bind fun _ => .bind fun _ => ?_
  refine .setregs ?_ (initVoicedaaLink_uses params card) (by simp [startRow, startRegs])
  simp [startRow, startRegs, daaTimeslotRow, written, writeOf]

/-- **An FXS chip that comes up** is programmed for its slot. -/
theorem initProslic_programs (timeslot : UInt8) (sane : Bool) :
    Programs env card (startRow .fxs timeslot)
      (wcfxsInitProslic params card timeslot false sane) := by
  have apart : ∀ entry ∈ startRow .fxs timeslot, entry.1 ∉ optionsWrites params :=
    fun entry member => timeslot_apart (by
      revert entry
      simp [startRow, startRegs])
  have finish : ∀ tmp, Programs env card (startRow .fxs timeslot)
      (initProslicFinish params card timeslot tmp) := by
    intro tmp
    refine .bind fun failed => .ite (.fails (by decide)) ?_
    refine .setregs ?_ (initProslicOptions_uses params card) apart
    simp [startRow, startRegs, timeslotRow, written, writeOf]
  refine .bind_yields (prelude_error false sane) fun prelude error => ?_
  cases prelude with
  | error code => exact .fails (error code rfl)
  | ok tmp =>
    exact .bind fun failed => .ite (.fails (by decide)) (.bind fun _ => finish tmp)

end Chips

/-! ### What initialisers do -/

section Initialisers

variable {params : Params} {σ : Type} {env : Env σ}

theorem initVoicedaa_frame (card : Card) (timeslot : UInt8) (sane : Bool) (world : World σ) :
    Program.Always (handler env) (wcfxsInitVoicedaa params card timeslot sane) world
      (Frame (ChipEvent card) world) := by
  have stays : (wcfxsInitVoicedaa params card timeslot sane).Every (Local .fxo card) :=
    (initVoicedaa_uses params card timeslot sane).mono Local.of_uses
  exact Frame.of_every (fun _ stays _ _ _ answered => Frame.of_local stays answered) stays world

theorem initProslic_frame (card : Card) (timeslot : UInt8) (sane : Bool) (world : World σ) :
    Program.Always (handler env) (wcfxsInitProslic params card timeslot false sane) world
      (Frame (ChipEvent card) world) :=
  Frame.of_every (fun _ stays _ _ _ answered => Frame.of_local stays answered)
    (initProslic_local params card timeslot false sane) world

theorem uartRow_module (card : Card) (row : List UartAccess) : (uartRow card row).Every (ModuleOp card) := by
  induction row with
  | nil => trivial
  | cons access rest ih =>
    cases access with
    | program value => exact .step rfl fun ret => .ite (fun _ => trivial) fun _ => ih
    | _ => exact .step rfl fun _ => ih

theorem askModem_module (card : Card) (command : List UInt8) (ticks : Nat) :
    (askModem card command ticks).Every (ModuleOp card) :=
  .step trivial fun _ => .step trivial fun _ => .call trivial

theorem askUpTo_module (card : Card) (command expected : List UInt8) (ticks rounds : Nat) :
    (askUpTo card command expected ticks rounds).Every (ModuleOp card) := by
  induction rounds with
  | zero => exact .bind (askModem_module card command ticks) fun _ => trivial
  | succ rounds ih =>
    exact .bind (askModem_module card command ticks) fun line =>
      .ite (fun _ => ih) fun _ => trivial

theorem hang_module {α : Type} (card : Card) : (hang : Prog α).Every (ModuleOp card) := ⟨trivial, nofun⟩

theorem askUntilOk_module (card : Card) (command : List UInt8) (ticks fuel : Nat) :
    (askUntilOk card command ticks fuel).Every (ModuleOp card) := by
  induction fuel with
  | zero => exact hang_module card
  | succ fuel ih =>
    exact .bind (askModem_module card command ticks) fun line =>
      .ite (fun _ => ih) fun _ => trivial

theorem enterPin_module (card : Card) (simEnterString : List UInt8) (fuel : Nat) :
    (enterPin params card simEnterString fuel).Every (ModuleOp card) := by
  induction fuel with
  | zero => exact hang_module card
  | succ fuel ih =>
    refine .bind (askModem_module card simEnterString _) fun line => .ite (fun _ => trivial) fun _ => ?_
    exact .ite (fun _ => ih) fun _ => trivial

theorem initGSM_module (card : Card) (simEnterString : List UInt8) :
    (initGSM params card simEnterString).Every (ModuleOp card) := by
  have on : (modemOn card).Every (ModuleOp card) := .step rfl fun _ => trivial
  have off : (modemOff params card).Every (ModuleOp card) :=
    .bind on fun _ => .ite (fun _ => .bind (askUpTo_module _ _ _ _ _) fun _ => .bind on fun _ =>
      .ite (fun _ => trivial) fun _ => .step trivial fun _ => trivial) fun _ => trivial
  have start : (modemStart params card).Every (ModuleOp card) :=
    .step rfl fun _ => .step trivial fun _ => .step rfl fun _ => .step trivial fun _ =>
      .bind on fun _ => trivial
  have greet : (modemGreet params card).Every (ModuleOp card) :=
    .bind (askModem_module _ _ _) fun _ => .bind (askUpTo_module _ _ _ _ _) fun _ =>
      .bind (askUpTo_module _ _ _ _ _) fun _ => askUpTo_module _ _ _ _ _
  have sim : (checkSim params card simEnterString).Every (ModuleOp card) :=
    .bind (askModem_module _ _ _) fun line => .ite (fun _ => enterPin_module _ _ _) fun _ =>
      .ite (fun _ => trivial) fun _ => .ite (fun _ => trivial) fun _ => trivial
  have settle : (modemSettle params card).Every (ModuleOp card) :=
    .forM fun command _ => askUntilOk_module _ _ _ _
  refine .bind off fun _ => .ite (fun _ => trivial) fun _ => .bind start fun _ => ?_
  refine .ite (fun _ => trivial) fun _ => .bind greet fun _ => .bind sim fun _ => ?_
  exact .ite (fun _ => trivial) fun _ => .step trivial fun _ => .bind settle fun _ => trivial

theorem initializeGsmModule_frame (card : Card) (simEnterString : List UInt8) (world : World σ) :
    Program.Always (handler env) (initializeGsmModule params card simEnterString) world
      (Frame (ModuleEvent card) world) := by
  refine Frame.of_every (fun _ module _ _ _ answered => Frame.of_module module answered) ?_ world
  refine .bind (uartRow_module card _) fun _ => .ite (fun _ => trivial) fun _ => ?_
  refine .bind (.forM fun value _ => ?_) fun _ => .bind (initGSM_module card simEnterString) fun _ => ?_
  · exact .step rfl fun _ => .step rfl fun _ => .step rfl fun _ => trivial
  · exact .ite (fun _ => trivial) fun _ => trivial

end Initialisers

/-! ### Placing one card -/

/-- A port with an FXO or FXS module. -/
def IsChip (type : PortType) : Prop := type = .fxo ∨ type = .fxs

/-- An exchange while an FXO or FXS port is placed. -/
def PlaceEvent (x : Card) : Event → Prop
  | .wrote c _ _ => c = x
  | .uart _ _ _ => False
  | .returned c _ => c = x
  | _ => True

theorem ChipEvent.place {x : Card} {event : Event} (chip : ChipEvent x event) : PlaceEvent x event := by
  cases event with
  | returned c ret => exact chip.elim
  | _ => exact chip

/-- Does a port advance the counter? An FXO port does, an FXS port if its card is installed. -/
def advances (port : Card → PortType) (log : List Event) (x : Card) : Bool :=
  match port x with
  | .fxo => true
  | .fxs => .returned x 0 ∈ log
  | _ => false

section Place

variable {params : Params} {port : Card → PortType} {σ : Type} {env : Env σ} {x : Card}
  {world after : World σ} {row : List (UInt8 × UInt8)} {E : Event → Prop}

/-- An initialiser that has run, and has been noted. -/
structure Noted (E : Event → Prop) (x : Card) (row : List (UInt8 × UInt8)) (ret : Int)
    (world after : World σ) : Prop where
  cardflag : ∀ y, after.cell (.cardflag y) = world.cell (.cardflag y)
  slot : ∀ y, after.cell (.slot y) = world.cell (.slot y)
  log : Says E world after
  success : ∀ c, .returned c 0 ∈ since world after ↔ c = x ∧ ret = 0
  sets : ret = 0 → Sets x row world after

theorem noted_finally {initialise : Prog Int} {inner : Event → Prop}
    (frame : Program.Always (handler env) initialise world (Frame inner world))
    (silent : ∀ c ret, ¬ inner (.returned c ret)) (weaker : ∀ event, inner event → E event)
    (own : ∀ ret, E (.returned x ret)) (programs : Programs env x row initialise) :
    Program.Finally (handler env) (noted x initialise) world fun ret after =>
      Noted E x row ret world after := by
  refine Program.finally_bind.mpr fun ret middle start => ?_
  refine (Program.finally_call_bind rfl).mpr (Program.finally_pure.mpr ?_)
  obtain ⟨cardflag, slot, log, logEq, each⟩ := frame.final ret middle start
  have grown : middle.log ++ [.returned x ret] = world.log ++ (log ++ [.returned x ret]) := by
    rw [logEq, List.append_assoc]
  refine ⟨cardflag, slot, ⟨_, grown, ?_⟩, fun c => ?_, fun success => ?_⟩
  · intro event member
    rcases List.mem_append.mp member with before | last
    · exact weaker event (each event before)
    · obtain rfl := List.mem_singleton.mp last
      exact own ret
  · rw [since_eq grown]
    constructor
    · intro member
      rcases List.mem_append.mp member with before | last
      · exact absurd (each _ before) (silent c 0)
      · cases List.mem_singleton.mp last
        exact ⟨rfl, rfl⟩
    · rintro ⟨rfl, rfl⟩
      exact List.mem_append_right _ List.mem_cons_self
  · refine (programs world ret middle start success).keep ⟨log, logEq⟩
      (E := fun event => event = .returned x ret) ⟨[.returned x ret], rfl, by simp⟩ ?_
    rintro entry - event rfl
    rfl

/-- A port that has been placed from an offset. -/
structure Placed (port : Card → PortType) (x : Card) (offset next : Int) (world after : World σ) :
    Prop where
  log : Says (PlaceEvent x) world after
  cardflag : ∀ y, y ≠ x → after.cell (.cardflag y) = world.cell (.cardflag y)
  slot : ∀ y, y ≠ x → after.cell (.slot y) = world.cell (.slot y)
  success : .returned x 0 ∈ since world after → after.cell (.cardflag x) = 1 ∧
    after.cell (.slot x) = offset ∧ Sets x (startRow (port x) (slotCount offset)) world after
  failure : .returned x 0 ∉ since world after →
    after.cell (.cardflag x) = world.cell (.cardflag x) ∧ after.cell (.slot x) = world.cell (.slot x)
  next : next = offset + if advances port (since world after) x then 1 else 0
  chip : ∀ ret, .returned x ret ∈ since world after → IsChip (port x)

/-- A second attempt. -/
theorem Noted.again {ret other : Int} {middle : World σ} (first : Noted E x row ret world middle)
    (second : Noted E x row other middle after) (failed : ret ≠ 0) : Noted E x row other world after := by
  have start := first.log.grows
  have finish := second.log.grows
  refine ⟨fun y => (second.cardflag y).trans (first.cardflag y),
    fun y => (second.slot y).trans (first.slot y), first.log.trans second.log, fun c => ?_,
    fun success => ?_⟩
  · rw [since_trans start finish, List.mem_append, first.success, second.success]
    exact or_iff_right fun success => failed success.2
  · exact (second.sets success).later start finish

/-- A card that has been published: its bit and its slot are set. -/
structure Published (x : Card) (offset : Int) (world after : World σ) : Prop where
  cardflag : after.cell (.cardflag x) = 1
  slot : after.cell (.slot x) = offset
  otherFlags : ∀ y, y ≠ x → after.cell (.cardflag y) = world.cell (.cardflag y)
  otherSlots : ∀ y, y ≠ x → after.cell (.slot y) = world.cell (.slot y)
  log : Says (fun event => ∃ reg value, event = .read x reg value) world after

/-- Both stores. -/
theorem Published.stores (x : Card) (offset : Int) (world : World σ) :
    Published x offset world { world with
      cell := Function.update (Function.update world.cell (.cardflag x) 1) (.slot x) offset } := by
  refine ⟨by simp, by simp, fun y other => ?_, fun y other => ?_, Says.refl _ _⟩
  · simp [other]
  · simp [other]

/-- A chip that has come up and been published. -/
theorem Noted.published {offset : Int} {middle : World σ}
    (noted : Noted (PlaceEvent x) x (startRow (port x) (slotCount offset)) 0 world middle)
    (published : Published x offset middle after) (chip : IsChip (port x)) :
    Placed port x offset (offset + 1) world after := by
  have start := noted.log.grows
  have finish := published.log.grows
  have success : .returned x 0 ∈ since world after := by
    rw [since_trans start finish]
    exact List.mem_append_left _ ((noted.success x).mpr ⟨rfl, rfl⟩)
  refine ⟨noted.log.trans (published.log.mono ?_), fun y other => ?_, fun y other => ?_,
    fun _ => ⟨published.cardflag, published.slot, ?_⟩, fun failed => absurd success failed, ?_,
    fun _ _ => chip⟩
  · rintro event ⟨reg, value, rfl⟩
    trivial
  · rw [published.otherFlags y other, noted.cardflag]
  · rw [published.otherSlots y other, noted.slot]
  · refine (noted.sets rfl).keep start published.log ?_
    rintro entry - event ⟨reg, value, rfl⟩
    rfl
  · rcases chip with fxo | fxs
    · simp [advances, fxo]
    · simp [advances, fxs, success]

/-- A chip that has not come up. -/
theorem Noted.unpublished {ret offset next : Int} (noted : Noted (PlaceEvent x) x row ret world after)
    (failed : ret ≠ 0) (chip : IsChip (port x))
    (counted : next = offset + if port x = .fxo then 1 else 0) :
    Placed port x offset next world after := by
  have failure : .returned x 0 ∉ since world after := fun success =>
    failed ((noted.success x).mp success).2
  refine ⟨noted.log, fun y _ => noted.cardflag y, fun y _ => noted.slot y,
    fun success => absurd success failure, fun _ => ⟨noted.cardflag x, noted.slot x⟩, ?_,
    fun _ _ => chip⟩
  rw [counted]
  rcases chip with fxo | fxs
  · simp [advances, fxo]
  · simp [advances, fxs, failure]

/-- An FXO or FXS initialiser. -/
theorem noted_chip {initialise : Prog Int}
    (frame : Program.Always (handler env) initialise world (Frame (ChipEvent x) world))
    (programs : Programs env x row initialise) :
    Program.Finally (handler env) (noted x initialise) world fun ret after =>
      Noted (PlaceEvent x) x row ret world after :=
  noted_finally frame (fun _ _ silent => silent.elim) (fun _ => ChipEvent.place) (fun _ => rfl) programs

theorem placeFxo_finally (fxo : port x = .fxo) (offset : Int) (world : World σ) :
    Program.Finally (handler env) (placeFxo params x offset) world fun next after =>
      Placed port x offset next world after := by
  refine Program.finally_bind.mpr ((noted_chip (initVoicedaa_frame x _ false world)
    (initVoicedaa_programs _ false)).mono fun ret middle noted => ?_)
  rw [Program.finally_bind, Program.finally_when]
  split
  · rename_i success
    subst success
    refine (Program.finally_call_bind rfl).mpr ((Program.finally_call rfl).mpr ?_)
    rw [← fxo] at noted
    exact Program.finally_pure.mpr (noted.published (Published.stores x offset middle) (.inl fxo))
  · rename_i failed
    refine Program.finally_pure.mpr (noted.unpublished failed (.inl fxo) ?_)
    rw [if_pos fxo]

theorem publishFxs_finally (offset : Int) (world : World σ) :
    Program.Finally (handler env) (publishFxs params x offset) world fun next after =>
      next = offset + 1 ∧ Published x offset world after := by
  refine (Program.finally_call_bind rfl).mpr ?_
  refine (Program.finally_call_bind rfl).mpr ?_
  have stores := Published.stores x offset world
  rw [Program.finally_bind, Program.finally_when]
  split
  · refine Program.finally_bind.mpr ((Program.finally_call_bind rfl).mpr ?_)
    refine Program.finally_pure.mpr (Program.finally_pure.mpr (Program.finally_pure.mpr ⟨rfl, ?_⟩))
    exact ⟨stores.cardflag, stores.slot, stores.otherFlags, stores.otherSlots, _, rfl, by simp⟩
  · exact Program.finally_pure.mpr ⟨rfl, stores⟩

theorem placeFxs_finally (fxs : port x = .fxs) (offset : Int) (world : World σ) :
    Program.Finally (handler env) (placeFxs params x offset) world fun next after =>
      Placed port x offset next world after := by
  have unpublished : ∀ {ret : Int} {final : World σ}, ret ≠ 0 →
      Noted (PlaceEvent x) x (startRow .fxs (slotCount offset)) ret world final →
      Placed port x offset offset world final :=
    fun failed noted => noted.unpublished failed (.inr fxs) (by simp [fxs])
  have published : ∀ {middle : World σ},
      Noted (PlaceEvent x) x (startRow .fxs (slotCount offset)) 0 world middle →
      Program.Finally (handler env) (publishFxs params x offset) middle fun next after =>
        Placed port x offset next world after := by
    intro middle noted
    rw [← fxs] at noted
    refine (publishFxs_finally offset middle).mono fun next final published => ?_
    obtain ⟨rfl, published⟩ := published
    exact noted.published published (.inr fxs)
  refine Program.finally_bind.mpr ((noted_chip (initProslic_frame x _ false world)
    (initProslic_programs _ false)).mono fun ret middle noted => ?_)
  rw [Program.finally_ite]
  split
  · rename_i success
    subst success
    exact published noted
  · rename_i failed
    rw [Program.finally_ite]
    split
    · refine Program.finally_bind.mpr ((noted_chip (initProslic_frame x _ true middle)
        (initProslic_programs _ true)).mono fun other last second => ?_)
      have both := noted.again second failed
      rw [Program.finally_ite]
      split
      · rename_i success
        subst success
        exact published both
      · exact Program.finally_pure.mpr (unpublished ‹_› both)
    · exact Program.finally_pure.mpr (unpublished failed noted)

/-- **One port.** -/
theorem placeCard_finally (offset : Int) (world : World σ) :
    Program.Finally (handler env) (placeCard params port x offset) world fun next after =>
      Placed port x offset next world after := by
  have skipped : ¬ IsChip (port x) → Placed port x offset offset world world := by
    intro other
    have none : advances port (since world world) x = false := by
      unfold advances
      split
      · exact absurd (.inl ‹_›) other
      · exact absurd (.inr ‹_›) other
      · rfl
    refine ⟨Says.refl _ _, fun _ _ => rfl, fun _ _ => rfl, ?_, fun _ => ⟨rfl, rfl⟩, by simp [none], ?_⟩
    · simp [since]
    · simp [since]
  unfold placeCard
  cases type : port x with
  | fxo => exact placeFxo_finally type offset world
  | fxs => exact placeFxs_finally type offset world
  | gsm => exact Program.finally_pure.mpr (skipped (by simp [IsChip, type]))
  | none => exact Program.finally_pure.mpr (skipped (by simp [IsChip, type]))

end Place

/-! ### Placing all of them -/

/-- The ports before a port. -/
def before (cards : List Card) (x : Card) : List Card := cards.takeWhile (· ≠ x)

/-- The ports before a port that advance the counter. -/
def ahead (port : Card → PortType) (log : List Event) (cards : List Card) (x : Card) : Nat :=
  (before cards x).countP (advances port log)

section Loops

variable {params : Params} {simEnterString : List UInt8} {port : Card → PortType} {σ : Type}
  {env : Env σ} {world after : World σ}

theorem advances_congr {log other : List Event} {x : Card}
    (same : IsChip (port x) → (.returned x 0 ∈ log ↔ .returned x 0 ∈ other)) :
    advances port log x = advances port other x := by
  unfold advances
  split
  · rfl
  · exact decide_eq_decide.mpr (same (.inr ‹_›))
  · rfl

theorem ahead_congr {log other : List Event} {cards : List Card} (x : Card)
    (same : ∀ y ∈ cards, IsChip (port y) → (.returned y 0 ∈ log ↔ .returned y 0 ∈ other)) :
    ahead port log cards x = ahead port other cards x := by
  refine List.countP_congr fun y inBefore => ?_
  rw [advances_congr (same y (List.takeWhile_subset _ inBefore))]

/-- Ports that have been placed one after the other. -/
structure PlacedAll (port : Card → PortType) (cards : List Card) (offset : Int)
    (world after : World σ) : Prop where
  log : Says (fun event => ∃ x ∈ cards, PlaceEvent x event) world after
  cardflag : ∀ y, y ∉ cards → after.cell (.cardflag y) = world.cell (.cardflag y)
  slot : ∀ y, y ∉ cards → after.cell (.slot y) = world.cell (.slot y)
  success : ∀ x ∈ cards, .returned x 0 ∈ since world after →
    after.cell (.cardflag x) = 1 ∧
    after.cell (.slot x) = offset + ahead port (since world after) cards x ∧
    Sets x (startRow (port x) (slotCount (after.cell (.slot x)))) world after
  failure : ∀ x ∈ cards, .returned x 0 ∉ since world after →
    after.cell (.cardflag x) = world.cell (.cardflag x) ∧
    after.cell (.slot x) = world.cell (.slot x)
  chip : ∀ x ret, .returned x ret ∈ since world after → IsChip (port x)

theorem PlacedAll.nil (offset : Int) (world : World σ) : PlacedAll port [] offset world world := by
  refine ⟨Says.refl _ _, fun _ _ => rfl, fun _ _ => rfl, ?_, ?_, ?_⟩
  · simp
  · simp
  · simp [since]

/-- Each card's result was noted when it was placed. -/
theorem returned_cons {x : Card} {rest : List Card} {offset next : Int} {middle : World σ}
    (fresh : x ∉ rest) (placed : Placed port x offset next world middle)
    (all : PlacedAll port rest next middle after) :
    (.returned x 0 ∈ since world after ↔ .returned x 0 ∈ since world middle) ∧
      ∀ y ∈ rest, (.returned y 0 ∈ since world after ↔ .returned y 0 ∈ since middle after) := by
  have split := since_trans placed.log.grows all.log.grows
  have first : .returned x 0 ∉ since middle after := by
    intro member
    obtain ⟨y, inRest, place⟩ := all.log.since _ member
    obtain rfl : x = y := place
    exact fresh inRest
  have second : ∀ y ∈ rest, .returned y 0 ∉ since world middle := by
    intro y inRest member
    have place : y = x := placed.log.since _ member
    exact fresh (place ▸ inRest)
  rw [split]
  refine ⟨?_, fun y inRest => ?_⟩
  · rw [List.mem_append]
    exact or_iff_left first
  · rw [List.mem_append]
    exact or_iff_right (second y inRest)

/-- One port more. -/
theorem PlacedAll.cons {x : Card} {rest : List Card} {offset next : Int} {middle : World σ}
    (fresh : x ∉ rest) (placed : Placed port x offset next world middle)
    (all : PlacedAll port rest next middle after) : PlacedAll port (x :: rest) offset world after := by
  have start := placed.log.grows
  have finish := all.log.grows
  have split := since_trans start finish
  have other : ∀ y ∈ rest, y ≠ x := fun y inRest same => fresh (same ▸ inRest)
  obtain ⟨ofFirst, ofSecond⟩ := returned_cons fresh placed all
  refine ⟨(placed.log.mono fun event place => ⟨x, List.mem_cons_self, place⟩).trans
      (all.log.mono fun event ⟨y, inRest, place⟩ => ⟨y, List.mem_cons_of_mem x inRest, place⟩),
    fun y outside => ?_, fun y outside => ?_, fun y member success => ?_,
    fun y member failure => ?_, fun y ret member => ?_⟩
  · obtain ⟨ne, notIn⟩ := not_or.mp (mt List.mem_cons.mpr outside)
    rw [all.cardflag y notIn, placed.cardflag y ne]
  · obtain ⟨ne, notIn⟩ := not_or.mp (mt List.mem_cons.mpr outside)
    rw [all.slot y notIn, placed.slot y ne]
  · rcases List.mem_cons.mp member with rfl | inRest
    · obtain ⟨flag, slot, sets⟩ := placed.success (ofFirst.mp success)
      have nothing : ahead port (since world after) (y :: rest) y = 0 := by simp [ahead, before]
      rw [all.cardflag y fresh, all.slot y fresh, slot, nothing]
      refine ⟨flag, by simp, sets.keep start all.log ?_⟩
      rintro entry - event ⟨z, inRest, place⟩
      cases event with
      | wrote c reg value =>
        refine if_neg ?_
        rintro ⟨rfl, -⟩
        obtain rfl : c = z := place
        exact fresh inRest
      | _ => rfl
    · obtain ⟨flag, slot, sets⟩ := all.success y inRest ((ofSecond y inRest).mp success)
      refine ⟨flag, ?_, sets.later start finish⟩
      have later : ahead port (since world after) rest y = ahead port (since middle after) rest y :=
        ahead_congr y fun z inRest _ => ofSecond z inRest
      have ne : x ≠ y := fun same => other y inRest same.symm
      have step : ahead port (since world after) (x :: rest) y =
          ahead port (since middle after) rest y +
            if advances port (since world middle) x then 1 else 0 := by
        rw [ahead, before, List.takeWhile_cons_of_pos (by simpa using ne), List.countP_cons,
          advances_congr fun _ => ofFirst]
        exact congrArg (· + _) later
      rw [slot, placed.next, step]
      push_cast
      ring
  · rcases List.mem_cons.mp member with rfl | inRest
    · have failed := placed.failure fun success => failure (ofFirst.mpr success)
      rw [all.cardflag y fresh, all.slot y fresh]
      exact failed
    · have failed := all.failure y inRest fun success => failure ((ofSecond y inRest).mpr success)
      rw [failed.1, failed.2, placed.cardflag y (other y inRest), placed.slot y (other y inRest)]
      exact ⟨rfl, rfl⟩
  · rw [split] at member
    rcases List.mem_append.mp member with early | late
    · obtain rfl : y = x := placed.log.since _ early
      exact placed.chip ret early
    · exact all.chip y ret late

/-- **The loop over the ports.** -/
theorem placeCards_finally {cards : List Card} (nodup : cards.Nodup) (offset : Int)
    (world : World σ) :
    Program.Finally (handler env) (placeCards params port cards offset) world fun _ after =>
      PlacedAll port cards offset world after := by
  induction cards generalizing offset world with
  | nil => exact Program.finally_pure.mpr (PlacedAll.nil offset world)
  | cons x rest ih =>
    obtain ⟨fresh, nodup⟩ := List.nodup_cons.mp nodup
    refine Program.finally_bind.mpr ((placeCard_finally offset world).mono fun next middle placed => ?_)
    exact (ih nodup next middle).mono fun _ final all => all.cons fresh placed

/-- An exchange while GSM ports are placed. -/
def GsmEvent (port : Card → PortType) : Event → Prop
  | .wrote _ _ _ => False
  | .uart g _ _ => port g = .gsm
  | .returned g _ => port g = .gsm
  | _ => True

/-- A GSM port whose module has started. -/
def Ready (port : Card → PortType) (log : List Event) (g : Card) : Prop :=
  port g = .gsm ∧ .returned g 0 ∈ log

/-- GSM ports that have been placed: the first two slots are taken if a module started. -/
structure GsmPlaced (port : Card → PortType) (offset : Int) (world after : World σ) : Prop where
  log : Says (GsmEvent port) world after
  outcome : (∃ g, Ready port (since world after) g ∧ offset = 2 ∧ after.cell (.cardflag g) = 1 ∧
      after.cell (.slot g) = 0 ∧ ∀ y, y ≠ g → after.cell (.cardflag y) = world.cell (.cardflag y)) ∨
    ((∀ g, .returned g 0 ∉ since world after) ∧ offset = 0 ∧
      ∀ y, after.cell (.cardflag y) = world.cell (.cardflag y))

theorem GsmPlaced.others {offset : Int} (placed : GsmPlaced port offset world after) {x : Card}
    (other : port x ≠ .gsm) : after.cell (.cardflag x) = world.cell (.cardflag x) := by
  rcases placed.outcome with ⟨g, ⟨gsm, -⟩, -, -, -, others⟩ | ⟨-, -, same⟩
  · exact others x fun equal => other (equal ▸ gsm)
  · exact same x

/-- A module that does not start leaves it to the next. -/
theorem GsmPlaced.later {offset : Int} {middle : World σ}
    (log : Says (GsmEvent port) world middle)
    (failed : ∀ g, .returned g 0 ∉ since world middle)
    (cardflag : ∀ y, middle.cell (.cardflag y) = world.cell (.cardflag y))
    (rest : GsmPlaced port offset middle after) : GsmPlaced port offset world after := by
  have split := since_trans log.grows rest.log.grows
  refine ⟨log.trans rest.log, ?_⟩
  rcases rest.outcome with ⟨g, ⟨gsm, success⟩, offsetEq, flag, slot, others⟩ | ⟨none, offsetEq, same⟩
  · refine .inl ⟨g, ⟨gsm, ?_⟩, offsetEq, flag, slot, fun y ne => (others y ne).trans (cardflag y)⟩
    rw [split]
    exact List.mem_append_right _ success
  · refine .inr ⟨fun g member => ?_, offsetEq, fun y => (same y).trans (cardflag y)⟩
    rw [split] at member
    rcases List.mem_append.mp member with early | late
    · exact failed g early
    · exact none g late

theorem ModuleEvent.placed {g : Card} (gsm : port g = .gsm) {event : Event}
    (module : ModuleEvent g event) : GsmEvent port event := by
  cases event with
  | wrote c reg value => exact module.elim
  | uart c access answer =>
    obtain rfl : c = g := module
    exact gsm
  | returned c ret => exact module.elim
  | _ => trivial

/-- The GSM module's initialiser. -/
theorem noted_module {g : Card} (gsm : port g = .gsm) (world : World σ) :
    Program.Finally (handler env) (noted g (initializeGsmModule params g simEnterString)) world
      fun ret after => Noted (GsmEvent port) g [] ret world after := by
  refine noted_finally (initializeGsmModule_frame g simEnterString world)
    (fun _ _ silent => silent.elim) (fun _ => ModuleEvent.placed gsm) (fun _ => gsm) ?_
  intro world ret after _ _ entry member
  exact absurd member List.not_mem_nil

/-- A module that starts. -/
theorem GsmPlaced.starts {g : Card} (gsm : port g = .gsm) {middle : World σ}
    (noted : Noted (GsmEvent port) g [] 0 world middle) :
    GsmPlaced port 2 world { middle with
      cell := Function.update (Function.update middle.cell (.slot g) 0) (.cardflag g) 1 } := by
  refine ⟨noted.log, .inl ⟨g, ⟨gsm, (noted.success g).mpr ⟨rfl, rfl⟩⟩, rfl, by simp, by simp, fun y ne => ?_⟩⟩
  simp [ne, noted.cardflag]

/-- **The loop over the GSM ports.** -/
theorem placeGsm_finally (cards : List Card) (world : World σ) :
    Program.Finally (handler env) (placeGsm params simEnterString port cards) world
      fun offset after => GsmPlaced port offset world after := by
  induction cards generalizing world with
  | nil =>
    refine Program.finally_pure.mpr ⟨Says.refl _ _, .inr ⟨?_, rfl, fun _ => rfl⟩⟩
    simp [since]
  | cons x rest ih =>
    unfold placeGsm
    rw [Program.finally_ite]
    split
    · rename_i gsm
      refine Program.finally_bind.mpr ((noted_module gsm world).mono fun ret middle noted => ?_)
      rw [Program.finally_ite]
      split
      · rename_i success
        subst success
        refine (Program.finally_call_bind rfl).mpr ?_
        refine (Program.finally_call_bind rfl).mpr ?_
        exact Program.finally_pure.mpr (GsmPlaced.starts gsm noted)
      · rename_i failed
        have nobody : ∀ g, .returned g 0 ∉ since world middle := fun g success =>
          failed ((noted.success g).mp success).2
        exact (ih middle).mono fun offset final rest => rest.later noted.log nobody noted.cardflag
    · exact ih world

/-- A world whose time slots are cleared, and otherwise the same. -/
structure Cleared (cards : List Card) (world after : World σ) : Prop where
  log : after.log = world.log
  cardflag : ∀ x, after.cell (.cardflag x) = world.cell (.cardflag x)
  slot : ∀ x ∈ cards, after.cell (.slot x) = -1
  otherSlots : ∀ x, x ∉ cards → after.cell (.slot x) = world.cell (.slot x)

theorem clearSlots_finally (world : World σ) :
    Program.Finally (handler env) clearSlots world fun _ after =>
      Cleared (List.finRange 8) world after := by
  have loop : ∀ (cards : List Card) (world : World σ),
      Program.Finally (handler env) (cards.forM fun x => setCell (.slot x) (-1)) world
        fun _ after => Cleared cards world after := by
    intro cards
    induction cards with
    | nil => exact fun world => Program.finally_pure.mpr ⟨rfl, fun _ => rfl, by simp, fun _ _ => rfl⟩
    | cons x rest ih =>
      intro world
      refine (Program.finally_call_bind rfl).mpr ?_
      refine (ih _).mono fun _ final cleared => ?_
      refine ⟨cleared.log, fun y => (cleared.cardflag y).trans (by simp), fun y member => ?_,
        fun y outside => ?_⟩
      · by_cases inRest : y ∈ rest
        · exact cleared.slot y inRest
        · obtain rfl : y = x := (List.mem_cons.mp member).resolve_right inRest
          rw [cleared.otherSlots y inRest]
          simp
      · obtain ⟨ne, notIn⟩ := not_or.mp (mt List.mem_cons.mpr outside)
        rw [cleared.otherSlots y notIn]
        simp [ne]
  exact loop _ world

theorem readFlags_finally (cards : List Card) (world : World σ) :
    Program.Finally (handler env) (cards.mapM fun x => getCell (.cardflag x)) world
      fun _ after => after = world := by
  induction cards with
  | nil => exact Program.finally_pure.mpr rfl
  | cons x rest ih =>
    rw [List.mapM_cons]
    refine (Program.finally_call_bind rfl).mpr ?_
    refine Program.finally_bind.mpr (ih.mono fun flags final same => ?_)
    exact Program.finally_pure.mpr same

end Loops

/-! ### The whole initialisation -/

/-- What `wcfxs_hardware_init` leaves behind, in terms of the results of the initialisers. -/
structure Outcome {σ : Type} (port : Card → PortType) (offset : Int) (log : List Event)
    (after : World σ) : Prop where
  counted : (offset = 2 ∧ ∃ g, Ready port log g) ∨ (offset = 0 ∧ ∀ g, ¬ Ready port log g)
  installed : ∀ x, IsChip (port x) → (after.cell (.cardflag x) ≠ 0 ↔ .returned x 0 ∈ log)
  slot : ∀ x, IsChip (port x) → .returned x 0 ∈ log →
    after.cell (.slot x) = offset + ahead port log (List.finRange 8) x
  programmed : ∀ x, IsChip (port x) → .returned x 0 ∈ log →
    ∀ entry ∈ startRow (port x) (slotCount (after.cell (.slot x))),
      written log x entry.1 = some entry.2
  module : ∀ x, port x = .gsm → after.cell (.cardflag x) ≠ 0 →
    Ready port log x ∧ after.cell (.slot x) = 0
  empty : ∀ x, port x = .none → after.cell (.cardflag x) = 0
  bridge : ∀ g access answer, .uart g access answer ∈ log → port g = .gsm

section Init

variable {params : Params} {simEnterString : List UInt8} {port : Card → PortType} {σ : Type}
  {env : Env σ} {world after : World σ}

theorem not_isChip_gsm {type : PortType} (gsm : type = .gsm) : ¬ IsChip type := by
  simp [IsChip, gsm]

/-- **The two loops together.** -/
theorem Outcome.of_placed {offset : Int} {middle : World σ}
    (clear : ∀ x, world.cell (.cardflag x) = 0) (gsm : GsmPlaced port offset world middle)
    (all : PlacedAll port (List.finRange 8) offset middle after) :
    Outcome port offset (since world after) after := by
  have split := since_trans gsm.log.grows all.log.grows
  have inAll : ∀ x : Card, x ∈ List.finRange 8 := List.mem_finRange
  have late : ∀ x ret, IsChip (port x) →
      (.returned x ret ∈ since world after ↔ .returned x ret ∈ since middle after) := by
    intro x ret chip
    rw [split, List.mem_append]
    refine or_iff_right fun member => ?_
    have type : port x = .gsm := gsm.log.since _ member
    exact not_isChip_gsm type chip
  have early : ∀ x ret, ¬ IsChip (port x) →
      (.returned x ret ∈ since world after ↔ .returned x ret ∈ since world middle) := by
    intro x ret other
    rw [split, List.mem_append]
    exact or_iff_left fun member => other (all.chip x ret member)
  have module : ∀ g, Ready port (since world after) g ↔ Ready port (since world middle) g :=
    fun g => and_congr_right fun type => early g 0 (not_isChip_gsm type)
  have kept : ∀ x, ¬ IsChip (port x) → after.cell (.cardflag x) = middle.cell (.cardflag x) ∧
      after.cell (.slot x) = middle.cell (.slot x) :=
    fun x other => all.failure x (inAll x) fun member => other (all.chip x 0 member)
  have unset : ∀ x, port x ≠ .gsm → middle.cell (.cardflag x) = 0 :=
    fun x other => (gsm.others other).trans (clear x)
  have chipOther : ∀ {x}, IsChip (port x) → port x ≠ .gsm := fun chip type => not_isChip_gsm type chip
  refine ⟨?_, fun x chip => ?_, fun x chip success => ?_, fun x chip success => ?_,
    fun x type flag => ?_, fun x type => ?_, fun g access answer member => ?_⟩
  · rcases gsm.outcome with ⟨g, ready, offsetEq, -⟩ | ⟨nobody, offsetEq, -⟩
    · exact .inl ⟨offsetEq, g, (module g).mpr ready⟩
    · exact .inr ⟨offsetEq, fun g ready => nobody g ((module g).mp ready).2⟩
  · rw [late x 0 chip]
    constructor
    · intro flag
      by_contra failed
      exact flag ((all.failure x (inAll x) failed).1.trans (unset x (chipOther chip)))
    · intro success
      rw [(all.success x (inAll x) success).1]
      decide
  · obtain ⟨-, slot, -⟩ := all.success x (inAll x) ((late x 0 chip).mp success)
    rw [slot, ahead_congr x fun y _ chip => late y 0 chip]
  · obtain ⟨-, -, sets⟩ := all.success x (inAll x) ((late x 0 chip).mp success)
    exact sets.later gsm.log.grows all.log.grows
  · have other := not_isChip_gsm type
    rw [(kept x other).1] at flag
    rw [(kept x other).2, module x]
    rcases gsm.outcome with ⟨g, ready, -, -, slot, others⟩ | ⟨-, -, same⟩
    · obtain rfl : x = g := by
        by_contra ne
        exact flag ((others x ne).trans (clear x))
      exact ⟨ready, slot⟩
    · exact absurd ((same x).trans (clear x)) flag
  · have other : ¬ IsChip (port x) := by simp [IsChip, type]
    rw [(kept x other).1]
    exact unset x (by simp [type])
  · rw [split] at member
    rcases List.mem_append.mp member with first | second
    · exact gsm.log.since _ first
    · obtain ⟨x, -, place⟩ := all.log.since _ second
      exact place.elim

/-- **A whole run.** -/
theorem hardwareInit_finally (timingonly : Bool) (clear : ∀ x, world.cell (.cardflag x) = 0) :
    Program.Finally (handler env) (wcfxsHardwareInit params simEnterString port timingonly) world
      fun _ after => ∃ offset, Outcome port offset (since world after) after := by
  refine Program.finally_bind.mpr ((clearSlots_finally world).mono fun _ start cleared => ?_)
  refine Program.finally_bind.mpr ((placeGsm_finally _ start).mono fun offset middle gsm => ?_)
  refine Program.finally_bind.mpr ((placeCards_finally (List.nodup_finRange 8) offset middle).mono
    fun _ final all => ?_)
  refine Program.finally_bind.mpr ((readFlags_finally _ final).mono fun flags last same => ?_)
  subst same
  have outcome := Outcome.of_placed (fun x => (cleared.cardflag x).trans (clear x)) gsm all
  rw [since, cleared.log] at outcome
  exact Program.finally_pure.mpr ⟨offset, outcome⟩

end Init

/-! ### Is it a schedule? -/

/-- **A valid schedule** of the installed cards: every slot is in the frame, no two cards share one,
every chip is programmed for its own, and the slots of a codec that runs are left to it. -/
structure Schedule {σ : Type} (port : Card → PortType) (log : List Event) (after : World σ) :
    Prop where
  inFrame : ∀ x, after.cell (.cardflag x) ≠ 0 →
    0 ≤ after.cell (.slot x) ∧ after.cell (.slot x) ≤ 7
  apart : ∀ x y, after.cell (.cardflag x) ≠ 0 → after.cell (.cardflag y) ≠ 0 →
    after.cell (.slot x) = after.cell (.slot y) → x = y
  programmed : ∀ x, after.cell (.cardflag x) ≠ 0 → ∀ regs ∈ startRegs (port x),
    ∃ count, written log x regs.1 = some count ∧ written log x regs.2 = some 0 ∧
      (count.toNat : Int) = 8 * after.cell (.slot x) + 1
  codec : ∀ g value answer, .uart g (.codec value) answer ∈ log → ∀ x, x ≠ g →
    after.cell (.cardflag x) ≠ 0 → after.cell (.slot x) ≠ 0 ∧ after.cell (.slot x) ≠ 1

/-- The condition on the results of the initialisers: with a module that has started, no installed card
has more than five ports before it that advance the counter; with one whose codec runs and whose modem
has not started, none has fewer than two. -/
def Fits (port : Card → PortType) (log : List Event) : Prop :=
  ∀ x, IsChip (port x) → .returned x 0 ∈ log →
    ((∃ g, Ready port log g) → ahead port log (List.finRange 8) x ≤ 5) ∧
    ((∃ g value answer, .uart g (.codec value) answer ∈ log) → (∀ g, ¬ Ready port log g) →
      2 ≤ ahead port log (List.finRange 8) x)

section Schedule

variable {params : Params} {simEnterString : List UInt8} {port : Card → PortType} {σ : Type}
  {env : Env σ} {world after : World σ} {log : List Event}

theorem before_lt (x y : Card) (less : x < y) :
    before (List.finRange 8) x ++ [x] <+: before (List.finRange 8) y := by
  revert x y
  decide

theorem length_before (x : Card) : (before (List.finRange 8) x).length = x := by
  revert x
  decide

theorem ahead_le (x : Card) : ahead port log (List.finRange 8) x ≤ 7 := by
  have bound : ahead port log (List.finRange 8) x ≤ (before (List.finRange 8) x).length :=
    List.countP_le_length
  rw [length_before] at bound
  omega

/-- An installed card advances the counter. -/
theorem ahead_lt {x y : Card} (chip : IsChip (port x)) (success : .returned x 0 ∈ log) (less : x < y) :
    ahead port log (List.finRange 8) x < ahead port log (List.finRange 8) y := by
  have counts : advances port log x = true := by
    rcases chip with fxo | fxs
    · simp [advances, fxo]
    · simp [advances, fxs, success]
  have mono := (before_lt x y less).sublist.countP_le (p := advances port log)
  rw [List.countP_append, List.countP_singleton, if_pos counts] at mono
  exact mono

theorem slotCount_toNat {slot : Int} (low : 0 ≤ slot) (high : slot ≤ 7) :
    ((slotCount slot).toNat : Int) = 8 * slot + 1 := by
  have cases : ∀ n : Fin 8, ((slotCount (n.val : Int)).toNat : Int) = 8 * (n.val : Int) + 1 := by
    decide
  obtain ⟨n, rfl⟩ := Int.eq_ofNat_of_zero_le low
  exact cases ⟨n, by omega⟩

/-- An installed card is a chip that has come up, or the module. -/
theorem Outcome.which {offset : Int} (outcome : Outcome port offset log after) {x : Card}
    (flag : after.cell (.cardflag x) ≠ 0) :
    (IsChip (port x) ∧ .returned x 0 ∈ log) ∨ (Ready port log x ∧ after.cell (.slot x) = 0) := by
  cases type : port x with
  | fxo => exact .inl ⟨.inl rfl, (outcome.installed x (.inl type)).mp flag⟩
  | fxs => exact .inl ⟨.inr rfl, (outcome.installed x (.inr type)).mp flag⟩
  | gsm => exact .inr (outcome.module x type flag)
  | none => exact absurd (outcome.empty x type) flag

/-- A valid schedule fits. -/
theorem Outcome.fits {offset : Int} (outcome : Outcome port offset log after)
    (schedule : Schedule port log after) : Fits port log := by
  intro x chip success
  have flag := (outcome.installed x chip).mpr success
  have slot := outcome.slot x chip success
  constructor
  · intro ready
    have range := (schedule.inFrame x flag).2
    rcases outcome.counted with ⟨offsetEq, -⟩ | ⟨-, nobody⟩
    · omega
    · obtain ⟨g, ready⟩ := ready
      exact absurd ready (nobody g)
  · rintro ⟨g, value, answer, member⟩ nobody
    have other : x ≠ g := by
      rintro rfl
      exact not_isChip_gsm (outcome.bridge x _ _ member) chip
    have apart := schedule.codec g value answer member x other flag
    rcases outcome.counted with ⟨-, g, ready⟩ | ⟨offsetEq, -⟩
    · exact absurd ready (nobody g)
    · omega

/-- The slots of two chips. -/
theorem Outcome.slot_lt {offset : Int} (outcome : Outcome port offset log after) {x y : Card}
    (chip : IsChip (port x)) (success : .returned x 0 ∈ log) (otherChip : IsChip (port y))
    (otherSuccess : .returned y 0 ∈ log) (less : x < y) :
    after.cell (.slot x) < after.cell (.slot y) := by
  have counts := ahead_lt chip success less
  rw [outcome.slot x chip success, outcome.slot y otherChip otherSuccess]
  omega

/-- Where the slot of a chip is, if the results fit. -/
theorem Outcome.slot_range {offset : Int} (outcome : Outcome port offset log after)
    (fits : Fits port log) {x : Card} (chip : IsChip (port x)) (success : .returned x 0 ∈ log) :
    0 ≤ after.cell (.slot x) ∧ after.cell (.slot x) ≤ 7 := by
  have slot := outcome.slot x chip success
  have bound : ahead port log (List.finRange 8) x ≤ 7 := ahead_le x
  rcases outcome.counted with ⟨offsetEq, ready⟩ | ⟨offsetEq, -⟩
  · have few := (fits x chip success).1 ready
    omega
  · omega

/-- What fits is a valid schedule. -/
theorem Outcome.schedule {offset : Int} (unique : ∀ g h, port g = .gsm → port h = .gsm → g = h)
    (outcome : Outcome port offset log after) (fits : Fits port log) : Schedule port log after := by
  -- The module takes slot 0, and then the chips start at slot 2.
  have behind : ∀ {g x}, Ready port log g → IsChip (port x) → .returned x 0 ∈ log →
      2 ≤ after.cell (.slot x) := by
    intro g x ready chip success
    have slot := outcome.slot x chip success
    rcases outcome.counted with ⟨offsetEq, -⟩ | ⟨-, nobody⟩
    · omega
    · exact absurd ready (nobody g)
  refine ⟨fun x flag => ?_, fun x y flag otherFlag same => ?_, fun x flag regs member => ?_, ?_⟩
  · rcases outcome.which flag with ⟨chip, success⟩ | ⟨-, slot⟩
    · exact outcome.slot_range fits chip success
    · omega
  · rcases outcome.which flag with ⟨chip, success⟩ | ⟨ready, slot⟩
    · rcases outcome.which otherFlag with ⟨otherChip, otherSuccess⟩ | ⟨ready, slot⟩
      · rcases Nat.lt_trichotomy x.val y.val with less | equal | more
        · exact absurd same (outcome.slot_lt chip success otherChip otherSuccess less).ne
        · exact Fin.ext equal
        · exact absurd same (outcome.slot_lt otherChip otherSuccess chip success more).ne'
      · have far := behind ready chip success
        omega
    · rcases outcome.which otherFlag with ⟨otherChip, otherSuccess⟩ | ⟨otherReady, -⟩
      · have far := behind ready otherChip otherSuccess
        omega
      · exact unique x y ready.1 otherReady.1
  · rcases outcome.which flag with ⟨chip, success⟩ | ⟨ready, -⟩
    · obtain ⟨low, high⟩ := outcome.slot_range fits chip success
      have programmed := outcome.programmed x chip success
      refine ⟨slotCount (after.cell (.slot x)), programmed (regs.1, slotCount _) ?_,
        programmed (regs.2, 0) ?_, slotCount_toNat low high⟩
      · exact List.mem_flatMap.mpr ⟨regs, member, by simp⟩
      · exact List.mem_flatMap.mpr ⟨regs, member, by simp⟩
    · rw [ready.1] at member
      exact absurd member List.not_mem_nil
  · intro g value answer member x other flag
    have gsm := outcome.bridge g _ _ member
    rcases outcome.which flag with ⟨chip, success⟩ | ⟨ready, -⟩
    · have slot := outcome.slot x chip success
      rcases outcome.counted with ⟨offsetEq, -⟩ | ⟨offsetEq, nobody⟩
      · omega
      · have many := (fits x chip success).2 ⟨g, value, answer, member⟩ nobody
        omega
    · exact absurd (unique x g ready.1 gsm) other

/-- **When the time slots are a valid schedule**, for all port types with at most one GSM module and
all results of the initialisers. -/
theorem schedule_iff {timingonly : Bool} {status : Int}
    (unique : ∀ g h, port g = .gsm → port h = .gsm → g = h)
    (clear : ∀ x, world.cell (.cardflag x) = 0)
    (ran : (wcfxsHardwareInit params simEnterString port timingonly).run (handler env) world =
      some (status, after)) :
    Schedule port (since world after) after ↔ Fits port (since world after) := by
  obtain ⟨offset, outcome⟩ := hardwareInit_finally timingonly clear status after ran
  exact ⟨outcome.fits, outcome.schedule unique⟩

end Schedule

/-! ### A bench -/

/-- The modem of the bench: is it on, and the last command sent to it. -/
structure Bench where
  powered : Bool
  command : List UInt8

/-- Hardware with FXO chips that show a part number, and a modem that starts if `works`. -/
def bench (part : UInt8) (works : Bool) : Env Bench where
  setreg := fun _ _ _ => id
  getreg := fun _ reg => (if reg = 2 then part else 0x10, ·)
  setLed := fun _ _ => id
  forgetCard := id
  gsmSend := fun _ info hw => { hw with command := info }
  gsmReceive := fun _ hw => (if hw.command = text "ate0" then text "OK"
    else if hw.command = text "at+cpin?" then text "+CPIN: READY" else codeOk, hw)
  uart := fun _ access hw => match access with
    | .read _ => (if hw.powered then 2 else 0, hw)
    | .write value => (0, if value = 0x5824 then { hw with powered := works } else hw)
    | _ => (0, hw)
  jiffies := (0, ·)
  waitJustABit := fun _ => id
  copyToUser := fun _ => (false, ·)

def secondSlot : Card := ⟨1, by decide⟩

/-- A GSM module in the first slot, an FXO card in the second. -/
def benchPort (x : Card) : PortType :=
  if x = firstSlot then .gsm else if x = secondSlot then .fxo else .none

/-- The driver before initialisation. -/
def benchWorld : World Bench := ⟨fun _ => 0, fun _ => 0, ⟨false, []⟩, []⟩

theorem benchPort_gsm {x : Card} (gsm : benchPort x = .gsm) : x = firstSlot := by
  revert x
  decide

theorem benchPort_chip {x : Card} (chip : IsChip (benchPort x)) : x = secondSlot := by
  revert x
  unfold IsChip
  decide

/-- A GSM module that starts, and an FXO card behind it in the third time slot. -/
theorem schedule_bench : ∃ after,
    (wcfxsHardwareInit Params.default [] benchPort false).run (handler (bench 3 true)) benchWorld =
      some (0, after) ∧
    after.cell (.slot firstSlot) = 0 ∧ after.cell (.slot secondSlot) = 2 ∧
    Schedule benchPort (since benchWorld after) after := by
  obtain ⟨⟨status, after⟩, ran, rfl, gsm, fxo, success⟩ : ∃ result,
      (wcfxsHardwareInit Params.default [] benchPort false).run (handler (bench 3 true)) benchWorld =
        some result ∧ result.1 = 0 ∧ result.2.cell (.slot firstSlot) = 0 ∧
      result.2.cell (.slot secondSlot) = 2 ∧ .returned firstSlot 0 ∈ since benchWorld result.2 :=
    computed (by decide +kernel)
  have ready : Ready benchPort (since benchWorld after) firstSlot := ⟨rfl, success⟩
  refine ⟨after, ran, gsm, fxo, (schedule_iff ?_ (fun _ => rfl) ran).mpr ?_⟩
  · intro g h first second
    rw [benchPort_gsm first, benchPort_gsm second]
  · intro x chip _
    obtain rfl := benchPort_chip chip
    refine ⟨fun _ => ?_, fun _ nobody => absurd ready (nobody firstSlot)⟩
    show (before (List.finRange 8) secondSlot).countP _ ≤ 5
    exact List.countP_le_length.trans (by decide)

/-- The codec runs, the modem does not start, and the FXO card is given the codec's first slot. -/
theorem codec_slot_given_away : ∃ after,
    (wcfxsHardwareInit Params.default [] benchPort false).run (handler (bench 3 false)) benchWorld =
      some (0, after) ∧
    after.cell (.slot secondSlot) = 0 ∧ ¬ Schedule benchPort (since benchWorld after) after := by
  obtain ⟨⟨status, after⟩, ran, rfl, flag, slot, codec⟩ : ∃ result,
      (wcfxsHardwareInit Params.default [] benchPort false).run (handler (bench 3 false)) benchWorld =
        some result ∧ result.1 = 0 ∧ result.2.cell (.cardflag secondSlot) = 1 ∧
      result.2.cell (.slot secondSlot) = 0 ∧
      .uart firstSlot (.codec 0x000F) 0 ∈ since benchWorld result.2 :=
    computed (by decide +kernel)
  refine ⟨after, ran, slot, fun schedule => ?_⟩
  have apart := schedule.codec firstSlot 0x000F 0 codec secondSlot (by decide) (by rw [flag]; decide)
  exact apart.1 slot

end Baps.Gsm
