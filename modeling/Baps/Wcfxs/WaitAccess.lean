/-
**The wait for an indirect access.**

Every indirect access waits first, and a reading access once more inside, for I_STATUS to read zero, at
most 6000 times. `__wait_access` returns 0 at the end of its attempts as well, so the error branches of
its callers, and of the two loops over the register table, are never taken.

* `setregIndirect_ends`, `getregIndirect_ends` — **what an access does**, whatever the chip answers.
* `initFrom_ends`, `verifyFrom_ends` — what the loops over the table do.
* `busy_reported_iff` — **when a busy chip is reported**.
* `busy_unreported` — a chip that stays busy.
-/

import Baps.Wcfxs.Proslic

namespace Baps.Wcfxs

open Interaction Memory

/-! ### The log of an access -/

section Log

variable (params : Params) (card : Card)

/-- I_STATUS read, and the chip still busy. -/
def Busy (event : Event) : Prop := ∃ value ≠ 0, event = .read card params.regs.iStatus value

/-- A wait has timed out: I_STATUS was not zero on 6000 readings in a row. Between two waits there always
is another exchange. -/
def TimedOut (log : List Event) : Prop :=
  ∃ wait : List Event, wait <:+: log ∧ wait.length = 6000 ∧ ∀ event ∈ wait, Busy params card event

/-- The value of IDA_LO or IDA_HI, if this exchange reads one of them. -/
def dataOf : Event → Option UInt8
  | .read c reg value => if c = card ∧ reg ∈ [params.regs.idaLo, params.regs.idaHi] then some value else none
  | _ => none

/-- What has been read from IDA_LO and IDA_HI. -/
def dataRead (log : List Event) : List UInt8 := log.filterMap (dataOf params card)

/-- IDA_LO, IDA_HI or IAA has been written. -/
def Written (log : List Event) : Prop := ∃ reg ∈ indirectWrites params, ∃ value, .wrote card reg value ∈ log

end Log

/-- Where the driver looks for an indirect register: nowhere, if a 3215 does not have it. -/
def locate (flags : Int) (address : UInt8) : Option UInt8 :=
  if is3215 flags then
    if translate3215 address = 255 then none else some (translate3215 address)
  else some address

/-- The two bytes of a word, low one first. -/
def dataBytes (word : UInt16) : List UInt8 := [word.toUInt8, (word >>> 8).toUInt8]

theorem word_eq_iff (low high : UInt8) (word : UInt16) :
    (low.toNat + 256 * high.toNat : Int) = word.toNat ↔ [low, high] = dataBytes word := by
  have smallLow := low.toNat_lt
  have smallHigh := high.toNat_lt
  have smallWord := word.toNat_lt
  simp only [dataBytes, List.cons.injEq, and_true, ← UInt8.toNat_inj, UInt16.toNat_toUInt8,
    UInt16.toNat_shiftRight, UInt16.reduceToNat, Nat.reduceMod, Nat.shiftRight_eq_div_pow]
  omega

/-! ### Waiting -/

/-- What a wait reads: a busy chip to the last attempt, or until it is ready. -/
def Waited (attempts : Nat) (values : List UInt8) : Prop :=
  (values.length = attempts ∧ ∀ value ∈ values, value ≠ 0) ∨
    ∃ busy, values = busy ++ [0] ∧ busy.length < attempts ∧ ∀ value ∈ busy, value ≠ 0

section Access

variable {params : Params} {card : Card} {σ : Type} {env : Env σ}

/-- Readings of I_STATUS. -/
def statusReads (params : Params) (card : Card) (values : List UInt8) : List Event :=
  values.map (.read card params.regs.iStatus ·)

/-- **A wait** reads I_STATUS, changes nothing and returns 0. -/
theorem waitAccess_ends (attempts : Nat) (world : World σ) :
    Program.Ends (handler env) (waitAccessLoop params card attempts) world fun result after =>
      result = 0 ∧ after.cell = world.cell ∧ ∃ values, Waited attempts values ∧
        after.log = world.log ++ statusReads params card values := by
  induction attempts generalizing world with
  | zero => exact Program.ends_pure.mpr ⟨rfl, rfl, [], .inl ⟨rfl, by simp⟩, by simp [statusReads]⟩
  | succ attempts ih =>
    rw [waitAccessLoop, Program.ends_bind, ends_getreg, Program.ends_ite]
    split
    · rename_i ready
      refine Program.ends_pure.mpr ⟨rfl, rfl, [0], .inr ⟨[], rfl, by simp, by simp⟩, ?_⟩
      simp [statusReads, ready]
    · rename_i busy
      refine (ih _).mono ?_
      rintro result after ⟨zero, cell, values, waited, log⟩
      refine ⟨zero, cell, (env.getreg card params.regs.iStatus world.hw).1 :: values, ?_, ?_⟩
      · rcases waited with ⟨all, each⟩ | ⟨before, rfl, fewer, each⟩
        · exact .inl ⟨by simp [all], List.forall_mem_cons.mpr ⟨busy, each⟩⟩
        · exact .inr ⟨_ :: before, rfl, by simp [fewer], List.forall_mem_cons.mpr ⟨busy, each⟩⟩
      · rw [log, statusReads, statusReads, List.map_cons, List.append_assoc]
        rfl

theorem setregs_ends (row : List (UInt8 × UInt8)) (world : World σ) :
    Program.Ends (handler env) (setregs card row) world fun _ after =>
      after.cell = world.cell ∧
        after.log = world.log ++ row.map fun entry => .wrote card entry.1 entry.2 := by
  induction row generalizing world with
  | nil => exact Program.ends_pure.mpr ⟨rfl, by simp⟩
  | cons entry rest ih =>
    refine Program.ends_bind.mpr (ends_setreg.mpr ((ih _).mono ?_))
    rintro _ after ⟨cell, log⟩
    exact ⟨cell, by rw [log, List.map_cons, List.append_assoc]; rfl⟩

/-- What a writing access exchanges with the chip. -/
def SetLog (params : Params) (card : Card) (data : UInt16) (log : List Event) : Option UInt8 → Prop
  | none => log = []
  | some target => ∃ values, Waited 6000 values ∧ log = statusReads params card values ++
      [.wrote card params.regs.idaLo data.toUInt8, .wrote card params.regs.idaHi (data >>> 8).toUInt8,
        .wrote card params.regs.iaa target]

/-- What a reading access exchanges with the chip, and what it makes of it. -/
def GetLog (params : Params) (card : Card) (log : List Event) (result : Int) : Option UInt8 → Prop
  | none => log = [] ∧ result = 0
  | some target => ∃ before inside low high, Waited 6000 before ∧ Waited 6000 inside ∧
      log = statusReads params card before ++ .wrote card params.regs.iaa target ::
        (statusReads params card inside ++
          [.read card params.regs.idaLo low, .read card params.regs.idaHi high]) ∧
      result = low.toNat + 256 * high.toNat

/-- The address of an access, and whether it takes place. -/
theorem absent_iff {flags : Int} {address : UInt8} :
    (is3215 flags ∧ (if is3215 flags then translate3215 address else address) = 255) ↔
      locate flags address = none := by
  rw [locate]
  by_cases old : is3215 flags <;> simp [old]

theorem present_eq {flags : Int} {address : UInt8} (present : locate flags address ≠ none) :
    locate flags address = some (if is3215 flags then translate3215 address else address) := by
  unfold locate at present ⊢
  split at present <;> simp_all

/-- **A writing access** returns 0, the chip ready or not. -/
theorem setregIndirect_ends (address : UInt8) (data : UInt16) (world : World σ) :
    Program.Ends (handler env) (wcfxsProslicSetregIndirect params card address data) world
      fun result after => result = 0 ∧ after.cell = world.cell ∧ ∃ log, after.log = world.log ++ log ∧
        SetLog params card data log (locate (world.cell (.flags card)) address) := by
  rw [wcfxsProslicSetregIndirect, Program.ends_bind, ends_get, Program.ends_ite]
  by_cases absent : locate (world.cell (.flags card)) address = none
  · rw [if_pos (absent_iff.mpr absent), absent]
    exact Program.ends_pure.mpr ⟨rfl, rfl, [], by simp, rfl⟩
  · rw [if_neg (mt absent_iff.mp absent), present_eq absent, Program.ends_bind]
    refine (waitAccess_ends 6000 world).mono ?_
    rintro _ middle ⟨rfl, cell, values, waited, log⟩
    rw [if_pos rfl, Program.ends_bind]
    refine (setregs_ends _ middle).mono ?_
    rintro _ after ⟨cell', log'⟩
    refine Program.ends_pure.mpr ⟨rfl, cell'.trans cell, _, ?_, values, waited, rfl⟩
    rw [log', log, List.append_assoc]
    rfl

/-- **A reading access** returns what IDA_LO and IDA_HI hold, the chip ready or not. -/
theorem getregIndirect_ends (address : UInt8) (world : World σ) :
    Program.Ends (handler env) (wcfxsProslicGetregIndirect params card address) world
      fun result after => after.cell = world.cell ∧ ∃ log, after.log = world.log ++ log ∧
        GetLog params card log result (locate (world.cell (.flags card)) address) := by
  rw [wcfxsProslicGetregIndirect, Program.ends_bind, ends_get, Program.ends_ite]
  by_cases absent : locate (world.cell (.flags card)) address = none
  · rw [if_pos (absent_iff.mpr absent), absent]
    exact Program.ends_pure.mpr ⟨rfl, [], by simp, rfl, rfl⟩
  · rw [if_neg (mt absent_iff.mp absent), present_eq absent, Program.ends_bind]
    refine (waitAccess_ends 6000 world).mono ?_
    rintro _ middle ⟨rfl, cell, before, waitedBefore, log⟩
    rw [if_pos rfl, Program.ends_bind, ends_setreg, Program.ends_bind]
    refine (waitAccess_ends 6000 _).mono ?_
    rintro _ last ⟨rfl, cell', inside, waitedInside, log'⟩
    rw [if_pos rfl, Program.ends_bind, ends_getreg, Program.ends_bind, ends_getreg]
    refine Program.ends_pure.mpr ⟨cell'.trans cell, _, ?_, before, inside, _, _, waitedBefore,
      waitedInside, rfl, rfl⟩
    simp [log', log, List.append_assoc]

/-! ### The loops over the table -/

/-- A 3215 does not have the entries whose alternate address is 255. -/
def present (flags : Int) (entry : IndirectReg) : Bool := ¬ is3215 flags ∨ entry.altaddr ≠ 255

/-- The chip has answered with the values of the table. -/
def Matches (params : Params) (card : Card) (flags : Int) (table : List IndirectReg) (log : List Event) :
    Prop :=
  dataRead params card log = (table.filter (present flags)).flatMap fun entry => dataBytes entry.initial

instance (flags : Int) (table : List IndirectReg) (log : List Event) :
    Decidable (Matches params card flags table log) := inferInstanceAs (Decidable (_ = _))

theorem dataRead_append (log more : List Event) :
    dataRead params card (log ++ more) = dataRead params card log ++ dataRead params card more :=
  List.filterMap_append

/-- I_STATUS is neither IDA_LO nor IDA_HI. -/
def StatusApart (params : Params) : Prop :=
  params.regs.iStatus ∉ [params.regs.idaLo, params.regs.idaHi]

instance : Decidable (StatusApart params) := inferInstanceAs (Decidable (¬ _))

theorem dataRead_status (apart : StatusApart params) (values : List UInt8) :
    dataRead params card (statusReads params card values) = [] := by
  rw [dataRead, List.filterMap_eq_nil_iff]
  intro event member
  obtain ⟨value, -, rfl⟩ := List.mem_map.mp member
  exact if_neg fun both => apart both.2

theorem GetLog.data_some (apart : StatusApart params) {log : List Event} {result : Int} {target : UInt8}
    (exchanged : GetLog params card log result (some target)) :
    ∃ low high : UInt8, dataRead params card log = [low, high] ∧ result = low.toNat + 256 * high.toNat := by
  obtain ⟨before, inside, low, high, -, -, rfl, value⟩ := exchanged
  refine ⟨low, high, ?_, value⟩
  rw [dataRead_append, dataRead_status apart, dataRead, List.filterMap_cons_none rfl, List.filterMap_append]
  show dataRead params card (statusReads params card inside) ++ _ = _
  rw [dataRead_status apart]
  simp [dataOf]

/-- `wcfxs_proslic_init_indirect_regs` returns 0. -/
theorem initFrom_ends (table : List IndirectReg) (world : World σ) :
    Program.Ends (handler env) (initIndirectRegsFrom params card table) world fun result _ => result = 0 := by
  induction table generalizing world with
  | nil => exact Program.ends_pure.mpr rfl
  | cons entry rest ih =>
    refine Program.ends_bind.mpr ((setregIndirect_ends _ _ world).mono ?_)
    rintro _ middle ⟨rfl, -⟩
    rw [Program.ends_ite, if_neg (not_not.mpr rfl)]
    exact ih middle

theorem locate_entry {flags : Int} {entry : IndirectReg}
    (first : translate3215 entry.address = entry.altaddr) :
    locate flags entry.address = none ↔ present flags entry = false := by
  rw [locate, first, present]
  by_cases old : is3215 flags <;> by_cases gone : entry.altaddr = 255 <;> simp [old, gone]

/-- No entry of the table hides another. -/
theorem translate_table : ∀ entry ∈ indirectRegs, translate3215 entry.address = entry.altaddr := by
  decide

/-- The answer to an entry, and what it says about the table. -/
theorem GetLog.matches_cons (apart : StatusApart params) {flags : Int} {entry : IndirectReg}
    (first : translate3215 entry.address = entry.altaddr) {log : List Event} {value : Int}
    (exchanged : GetLog params card log value (locate flags entry.address)) :
    0 ≤ value ∧ ∀ rest more, Matches params card flags (entry :: rest) (log ++ more) ↔
      ¬ (value ≠ entry.initial.toNat ∧ present flags entry) ∧ Matches params card flags rest more := by
  cases located : locate flags entry.address with
  | none =>
    rw [located] at exchanged
    obtain ⟨rfl, rfl⟩ := exchanged
    have gone := (locate_entry first).mp located
    exact ⟨le_rfl, fun rest more => by simp [Matches, gone]⟩
  | some target =>
    rw [located] at exchanged
    have here : present flags entry = true := by
      rw [← Bool.not_eq_false, ← locate_entry first, located]
      exact nofun
    obtain ⟨low, high, data, rfl⟩ := exchanged.data_some apart
    refine ⟨by omega, fun rest more => ?_⟩
    rw [Matches, Matches, dataRead_append, data, List.filter_cons_of_pos here, List.flatMap_cons]
    simp [here, word_eq_iff, dataBytes, and_assoc]

/-- **`wcfxs_proslic_verify_indirect_regs`** returns 0 just if what it has read is what the table says. -/
theorem verifyFrom_ends (apart : StatusApart params) (table : List IndirectReg)
    (first : ∀ entry ∈ table, translate3215 entry.address = entry.altaddr) (passed : Bool)
    (world : World σ) :
    Program.Ends (handler env) (verifyIndirectRegsFrom params card table passed) world fun result after =>
      ∃ log, after.log = world.log ++ log ∧
        result = if passed ∧ Matches params card (world.cell (.flags card)) table log then 0 else -1 := by
  induction table generalizing passed world with
  | nil =>
    refine Program.ends_pure.mpr ⟨[], by simp, ?_⟩
    simp [Matches, dataRead]
  | cons entry rest ih =>
    have others := fun other member => first other (List.mem_cons_of_mem entry member)
    refine Program.ends_bind.mpr ((getregIndirect_ends _ world).mono ?_)
    rintro value middle ⟨cell, log, logEq, exchanged⟩
    have answer := exchanged.matches_cons apart (first entry List.mem_cons_self)
    rw [if_neg (not_lt.mpr answer.1), Program.ends_bind, ends_get, cell]
    have step : ∀ passed, Program.Ends (handler env) (verifyIndirectRegsFrom params card rest passed) middle
        fun result after => ∃ more, after.log = world.log ++ (log ++ more) ∧ result =
          if passed ∧ Matches params card (world.cell (.flags card)) rest more then 0 else -1 := by
      intro passed
      refine (ih others passed middle).mono ?_
      rintro result after ⟨more, moreEq, value⟩
      exact ⟨more, by rw [moreEq, logEq, List.append_assoc], by rw [value, cell]⟩
    rw [Program.ends_ite]
    split
    · rename_i wrong
      refine (step false).mono ?_
      rintro _ after ⟨more, moreEq, rfl⟩
      refine ⟨log ++ more, moreEq, ?_⟩
      rw [if_neg (by simp), if_neg]
      exact fun both => ((answer.2 rest more).mp both.2).1 (by simpa [present] using wrong)
    · rename_i right
      refine (step passed).mono ?_
      rintro _ after ⟨more, moreEq, rfl⟩
      refine ⟨log ++ more, moreEq, if_congr (and_congr_right' ?_) rfl rfl⟩
      rw [answer.2 rest more, and_iff_right]
      simpa [present] using right

/-! ### Reporting -/

/-- A writing access reports a chip that stays busy, without touching it, and returns 0 otherwise. -/
def SetReports (params : Params) (card : Card) (log : List Event) (result : Int) : Prop :=
  (TimedOut params card log → result = -1 ∧ ¬ Written params card log) ∧
    (¬ TimedOut params card log → result = 0)

/-- The value of a register from what was read of it; 0 for a register that is not there. -/
def valueOf : List UInt8 → Int
  | [low, high] => low.toNat + 256 * high.toNat
  | _ => 0

/-- A reading access reports a chip that stays busy, and returns the value otherwise. -/
def GetReports (params : Params) (card : Card) (log : List Event) (result : Int) : Prop :=
  (TimedOut params card log → result = -1) ∧
    (¬ TimedOut params card log → result = valueOf (dataRead params card log))

/-- Setting up the table reports a chip that stays busy, and returns 0 otherwise. -/
def InitReports (params : Params) (card : Card) (log : List Event) (result : Int) : Prop :=
  (TimedOut params card log → result = -1) ∧ (¬ TimedOut params card log → result = 0)

/-- Checking the table reports a chip that stays busy, and otherwise returns 0 if the chip has answered
with the values of the table. -/
def VerifyReports (params : Params) (card : Card) (flags : Int) (log : List Event) (result : Int) : Prop :=
  (TimedOut params card log → result = -1) ∧
    (¬ TimedOut params card log →
      result = if Matches params card flags indirectRegs log then 0 else -1)

/-- What a reading access returns is what it has read. -/
theorem getregIndirect_value (apart : StatusApart params) (address : UInt8) (world : World σ) :
    Program.Ends (handler env) (wcfxsProslicGetregIndirect params card address) world fun value after =>
      value = valueOf (dataRead params card (since world after)) ∧ 0 ≤ value := by
  refine (getregIndirect_ends address world).mono ?_
  rintro value after ⟨-, log, logEq, exchanged⟩
  rw [since_eq logEq]
  cases located : locate (world.cell (.flags card)) address with
  | none =>
    rw [located] at exchanged
    obtain ⟨rfl, rfl⟩ := exchanged
    exact ⟨rfl, le_rfl⟩
  | some target =>
    rw [located] at exchanged
    obtain ⟨low, high, data, rfl⟩ := exchanged.data_some apart
    exact ⟨by rw [data]; rfl, by omega⟩

/-- A call that never fails reports a chip that is not late, and no other. -/
theorem reports_iff {late failed fine : Prop} (never : ¬ failed) (always : fine) :
    ((late → failed) ∧ (¬ late → fine)) ↔ ¬ late :=
  ⟨fun reports isLate => never (reports.1 isLate),
    fun ready => ⟨fun isLate => absurd isLate ready, fun _ => always⟩⟩

/-- **A busy chip is reported just if** no chip is: no wait of the access, or of the loop, times out. The
check of the table also returns -1 when the chip has answered with other values. -/
theorem busy_reported_iff (params : Params) (card : Card) (apart : StatusApart params) {σ : Type}
    (env : Env σ) (world : World σ) :
    (∀ address data, Program.Ends (handler env) (wcfxsProslicSetregIndirect params card address data) world
      fun result after => SetReports params card (since world after) result ↔
        ¬ TimedOut params card (since world after)) ∧
    (∀ address, Program.Ends (handler env) (wcfxsProslicGetregIndirect params card address) world
      fun result after => GetReports params card (since world after) result ↔
        ¬ TimedOut params card (since world after)) ∧
    (Program.Ends (handler env) (wcfxsProslicInitIndirectRegs params card) world
      fun result after => InitReports params card (since world after) result ↔
        ¬ TimedOut params card (since world after)) ∧
    (Program.Ends (handler env) (wcfxsProslicVerifyIndirectRegs params card) world
      fun result after => VerifyReports params card (world.cell (.flags card)) (since world after) result ↔
        (TimedOut params card (since world after) →
          ¬ Matches params card (world.cell (.flags card)) indirectRegs (since world after))) := by
  refine ⟨fun address data => ?_, fun address => ?_, ?_, ?_⟩
  · refine (setregIndirect_ends address data world).mono ?_
    rintro _ after ⟨rfl, -⟩
    exact reports_iff (fun failed => absurd failed.1 (by decide)) rfl
  · refine (getregIndirect_value apart address world).mono ?_
    rintro value after ⟨read, nonneg⟩
    exact reports_iff (fun failed => by omega) read
  · refine (initFrom_ends indirectRegs world).mono ?_
    rintro _ after rfl
    exact reports_iff (by decide) rfl
  · refine (verifyFrom_ends apart indirectRegs translate_table true world).mono ?_
    rintro _ after ⟨log, logEq, rfl⟩
    rw [since_eq logEq]
    simp only [VerifyReports, true_and]
    by_cases right : Matches params card (world.cell (.flags card)) indirectRegs log
    · simp [right]
    · simp [right]

/-- A card whose registers all read the same. -/
def constantCard (value : UInt8) : Env Unit where
  setreg _ _ _ state := state
  getreg _ _ state := (value, state)
  setLed _ _ state := state
  forgetCard state := state
  gsmSend _ _ state := state
  gsmReceive _ state := ([], state)
  uart _ _ state := (0, state)
  jiffies state := (0, state)
  waitJustABit _ state := state
  copyToUser _ state := (true, state)

/-- A world in which nothing has happened. -/
def idleWorld : World Unit := ⟨fun _ => 0, fun _ => 0, (), []⟩

/-- A card that is always ready. -/
theorem busy_reported_ready :
    Program.Ends (handler (constantCard 0)) (wcfxsProslicGetregIndirect .default 0 13) idleWorld
      fun result after => GetReports .default 0 (since idleWorld after) result ↔
        ¬ TimedOut .default 0 (since idleWorld after) :=
  (busy_reported_iff .default 0 (by decide) (constantCard 0) idleWorld).2.1 13

/-- A wait for a card that is always busy. -/
theorem waitAccess_busy (attempts : Nat) (world : World Unit) :
    Program.Ends (handler (constantCard 1)) (waitAccessLoop .default 0 attempts) world fun result after =>
      result = 0 ∧ after = { world with
        log := world.log ++ List.replicate attempts (.read 0 Params.default.regs.iStatus 1) } := by
  induction attempts generalizing world with
  | zero => exact Program.ends_pure.mpr ⟨rfl, by simp⟩
  | succ attempts ih =>
    have busy : ¬ ((constantCard 1).getreg 0 Params.default.regs.iStatus world.hw).1 = 0 :=
      show ¬ (1 : UInt8) = 0 by decide
    rw [waitAccessLoop, Program.ends_bind, ends_getreg, Program.ends_ite, if_neg busy]
    refine (ih _).mono ?_
    rintro result after ⟨zero, rfl⟩
    refine ⟨zero, ?_⟩
    rw [List.replicate_succ, List.append_assoc]
    rfl

/-- **A card that is always busy** is written to all the same, and 0 is returned. -/
theorem busy_unreported :
    Program.Ends (handler (constantCard 1)) (wcfxsProslicSetregIndirect .default 0 13 0x7B30) idleWorld
      fun result after => TimedOut .default 0 (since idleWorld after) ∧ result = 0 ∧
        Written .default 0 (since idleWorld after) ∧
        ¬ SetReports .default 0 (since idleWorld after) result := by
  rw [wcfxsProslicSetregIndirect, Program.ends_bind, ends_get, Program.ends_ite, if_neg (by decide),
    Program.ends_bind]
  refine (waitAccess_busy 6000 idleWorld).mono ?_
  rintro _ _ ⟨rfl, rfl⟩
  rw [if_pos rfl, Program.ends_bind]
  refine (setregs_ends _ _).mono ?_
  rintro _ after ⟨-, log⟩
  refine Program.ends_pure.mpr ?_
  rw [since_eq (log.trans (List.append_assoc _ _ _))]
  have late : ∀ more, TimedOut .default 0
      (List.replicate 6000 (.read 0 Params.default.regs.iStatus 1) ++ more) := by
    intro more
    refine ⟨_, (List.prefix_append _ _).isInfix, List.length_replicate, fun event member => ?_⟩
    exact ⟨1, by decide, List.eq_of_mem_replicate member⟩
  refine ⟨late _, rfl, ⟨_, List.mem_cons_self, _, List.mem_append_right _ List.mem_cons_self⟩, ?_⟩
  exact fun reports => absurd (reports.1 (late _)).1 (by decide)

end Access

end Baps.Wcfxs
