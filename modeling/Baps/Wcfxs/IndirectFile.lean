/-
**The indirect registers of an ideal ProSLIC.**

`wcfxs_init_proslic` writes the register table, clears a scratch register, saves and flushes the five
digital filters, calibrates, restores the filters and reads the table back. The 3215 has fewer registers
and other addresses, and the translation is made in each access.

* `setregIndirect_file`, `getregIndirect_file` — **one access** to an ideal chip.
* `Kept` — what the steps between leave alone; `initProslicCalibrate_kept`, the longest of them.
* `flush_ends`, `restore_holds` — the filters, flushed and restored.
* `indirect_verified` — **the table is there after a whole initialisation, and verifies.**
-/

import Mathlib.Data.List.Basic
import Mathlib.Data.List.Pairwise
import Baps.Memory.Scatter
import Baps.Wcfxs.WaitAccess

namespace Baps.Wcfxs

open Interaction Memory

/-! ### The ideal chip -/

/-- How far a store into the indirect file has come: nothing written yet, IDA_LO, or both bytes. -/
inductive Staged
  | nothing
  | low
  | both
  deriving DecidableEq, Repr

/-- The indirect file, and the two bytes that carry its words. -/
structure IdealChip where
  file : UInt8 → UInt16
  low : UInt8
  high : UInt8
  staged : Staged

/-- The word of two bytes. -/
def wordOf (low high : UInt8) : UInt16 := UInt16.ofNat (low.toNat + 256 * high.toNat)

theorem wordOf_bytes (word : UInt16) : wordOf word.toUInt8 (word >>> 8).toUInt8 = word := by
  have bytes := (word_eq_iff word.toUInt8 (word >>> 8).toUInt8 word).mpr rfl
  rw [← UInt16.toNat_inj, wordOf, UInt16.toNat_ofNat']
  have small := word.toNat_lt
  omega

/-- A write of a direct register: IAA stores after IDA_LO and IDA_HI, and loads on its own. -/
def IdealChip.write (chip : IdealChip) (reg value : UInt8) : IdealChip :=
  if reg = proslicH.idaLo then { chip with low := value, staged := .low }
  else if reg = proslicH.idaHi then
    { chip with high := value, staged := if chip.staged = .low then .both else chip.staged }
  else if reg = proslicH.iaa then
    if chip.staged = .both then
      { chip with file := Function.update chip.file value (wordOf chip.low chip.high), staged := .nothing }
    else
      { chip with
        low := (chip.file value).toUInt8, high := (chip.file value >>> 8).toUInt8, staged := .nothing }
  else chip

/-- An ideal chip on a card: it is always ready, and nothing but a write of a direct register moves it. -/
structure Ideal {σ : Type} (env : Env σ) (card : Card) where
  chip : σ → IdealChip
  setreg : ∀ reg value hw, chip (env.setreg card reg value hw) = (chip hw).write reg value
  getreg : ∀ reg hw, chip (env.getreg card reg hw).2 = chip hw
  iStatus : ∀ hw, (env.getreg card proslicH.iStatus hw).1 = 0
  idaLo : ∀ hw, (env.getreg card proslicH.idaLo hw).1 = (chip hw).low
  idaHi : ∀ hw, (env.getreg card proslicH.idaHi hw).1 = (chip hw).high
  jiffies : ∀ hw, chip (env.jiffies hw).2 = chip hw
  waitJustABit : ∀ ticks hw, chip (env.waitJustABit ticks hw) = chip hw

section Accesses

variable {params : Params} {card : Card} {σ : Type} {env : Env σ}

/-- The chip of a world. -/
def Ideal.at (ideal : Ideal env card) (world : World σ) : IdealChip := ideal.chip world.hw

/-! ### One access -/

/-- A ready chip is not waited for. -/
theorem waitAccess_ideal (ideal : Ideal env card) (regs : params.regs = proslicH) (world : World σ) :
    Program.Ends (handler env) (waitAccess params card) world fun result after =>
      result = 0 ∧ after.cell = world.cell ∧ ideal.at after = ideal.at world := by
  have ready : (env.getreg card params.regs.iStatus world.hw).1 = 0 := by
    rw [regs]
    exact ideal.iStatus _
  rw [waitAccess, waitAccessLoop, Program.ends_bind, ends_getreg, Program.ends_ite, if_pos ready]
  exact Program.ends_pure.mpr ⟨rfl, rfl, ideal.getreg _ _⟩

/-- A row of writes, one after another. -/
theorem setregs_ideal (ideal : Ideal env card) (row : List (UInt8 × UInt8)) (world : World σ) :
    Program.Ends (handler env) (setregs card row) world fun _ after => after.cell = world.cell ∧
      ideal.at after = row.foldl (fun chip entry => chip.write entry.1 entry.2) (ideal.at world) := by
  induction row generalizing world with
  | nil => exact Program.ends_pure.mpr ⟨rfl, rfl⟩
  | cons entry rest ih =>
    refine Program.ends_bind.mpr (ends_setreg.mpr ((ih _).mono ?_))
    rintro _ after ⟨cell, chip⟩
    refine ⟨cell, ?_⟩
    rw [chip, List.foldl_cons, Ideal.at, ideal.setreg]
    rfl

/-- A store into the file, if the chip has the register. -/
def store (flags : Int) (address : UInt8) (data : UInt16) (file : UInt8 → UInt16) : UInt8 → UInt16 :=
  match locate flags address with
  | none => file
  | some target => Function.update file target data

theorem store_some {flags : Int} {address target : UInt8} (located : locate flags address = some target)
    (data : UInt16) (file : UInt8 → UInt16) :
    store flags address data file = Function.update file target data := by
  rw [store, located]

/-- **A writing access** stores, and leaves nothing staged. -/
theorem setregIndirect_file (ideal : Ideal env card) (regs : params.regs = proslicH) (address : UInt8)
    (data : UInt16) (world : World σ) :
    Program.Ends (handler env) (wcfxsProslicSetregIndirect params card address data) world
      fun result after => result = 0 ∧ after.cell = world.cell ∧
        (ideal.at after).file = store (world.cell (.flags card)) address data (ideal.at world).file ∧
        ((ideal.at world).staged = .nothing ∨ locate (world.cell (.flags card)) address ≠ none →
          (ideal.at after).staged = .nothing) := by
  rw [wcfxsProslicSetregIndirect, Program.ends_bind, ends_get, Program.ends_ite]
  by_cases absent : locate (world.cell (.flags card)) address = none
  · rw [if_pos (absent_iff.mpr absent), store, absent]
    refine Program.ends_pure.mpr ⟨rfl, rfl, rfl, ?_⟩
    rintro (nothing | present)
    · exact nothing
    · exact absurd rfl present
  · rw [if_neg (mt absent_iff.mp absent), store, present_eq absent, Program.ends_bind]
    refine (waitAccess_ideal ideal regs world).mono ?_
    rintro _ middle ⟨rfl, cell, same⟩
    rw [if_pos rfl, regs, Program.ends_bind]
    refine (setregs_ideal ideal _ middle).mono ?_
    rintro _ after ⟨cell', chip⟩
    refine Program.ends_pure.mpr ⟨rfl, cell'.trans cell, ?_, fun _ => ?_⟩
    · simp [chip, same, IdealChip.write, proslicH, wordOf_bytes]
    · simp [chip, IdealChip.write, proslicH]

/-- With nothing staged a write of IAA loads the word. -/
theorem IdealChip.write_iaa {chip : IdealChip} (nothing : chip.staged = .nothing) (target : UInt8) :
    chip.write proslicH.iaa target = { chip with
      low := (chip.file target).toUInt8
      high := (chip.file target >>> 8).toUInt8
      staged := .nothing } := by
  simp [IdealChip.write, proslicH, nothing]

/-- The two bytes are read, and nothing moves. -/
theorem readBytes_ideal (ideal : Ideal env card) (regs : params.regs = proslicH) (world : World σ) :
    Program.Ends (handler env) (do
        let low ← wcfxsGetreg card params.regs.idaLo
        let high ← wcfxsGetreg card params.regs.idaHi
        pure (low.toNat + 256 * high.toNat : Int)) world
      fun result after => after.cell = world.cell ∧ ideal.at after = ideal.at world ∧
        result = (ideal.at world).low.toNat + 256 * (ideal.at world).high.toNat := by
  rw [regs, Program.ends_bind, ends_getreg, Program.ends_bind, ends_getreg]
  refine Program.ends_pure.mpr ⟨rfl, (ideal.getreg _ _).trans (ideal.getreg _ _), ?_⟩
  rw [ideal.idaLo, ideal.idaHi, ideal.getreg]
  rfl

/-- **A reading access** loads a word, if nothing is staged. -/
theorem getregIndirect_file (ideal : Ideal env card) (regs : params.regs = proslicH) (address : UInt8)
    (world : World σ) (nothing : (ideal.at world).staged = .nothing) :
    Program.Ends (handler env) (wcfxsProslicGetregIndirect params card address) world
      fun result after => after.cell = world.cell ∧ (ideal.at after).file = (ideal.at world).file ∧
        (ideal.at after).staged = .nothing ∧
        result = ((locate (world.cell (.flags card)) address).elim 0
          fun target => (ideal.at world).file target).toNat := by
  rw [wcfxsProslicGetregIndirect, Program.ends_bind, ends_get, Program.ends_ite]
  by_cases absent : locate (world.cell (.flags card)) address = none
  · rw [if_pos (absent_iff.mpr absent), absent]
    exact Program.ends_pure.mpr ⟨rfl, rfl, nothing, rfl⟩
  · rw [if_neg (mt absent_iff.mp absent), present_eq absent, Program.ends_bind]
    refine (waitAccess_ideal ideal regs world).mono ?_
    rintro _ middle ⟨rfl, cell, same⟩
    rw [if_pos rfl, Program.ends_bind, ends_setreg, Program.ends_bind]
    refine (waitAccess_ideal ideal regs _).mono ?_
    rintro _ last ⟨rfl, cell', same'⟩
    let target := if is3215 (world.cell (.flags card)) then translate3215 address else address
    have loaded : ideal.at last = (ideal.at world).write params.regs.iaa target := by
      rw [same', ← same]
      exact ideal.setreg _ _ _
    rw [regs, IdealChip.write_iaa nothing] at loaded
    rw [if_pos rfl]
    refine (readBytes_ideal ideal regs last).mono ?_
    rintro _ after ⟨cell'', still, rfl⟩
    rw [still, loaded]
    exact ⟨cell''.trans (cell'.trans cell), rfl, rfl, (word_eq_iff _ _ _).mpr rfl⟩

/-! ### The table in the file -/

/-- The entries that the chip has hold their initial values. -/
def Holds (flags : Int) (entries : List IndirectReg) (file : UInt8 → UInt16) : Prop :=
  ∀ entry ∈ entries, ∀ target, locate flags entry.address = some target → file target = entry.initial

/-- Two entries have no address in common, on either chip. -/
def Apart (entry other : IndirectReg) : Prop :=
  entry.address ≠ other.address ∧ (entry.altaddr = other.altaddr → entry.altaddr = 255)

instance (entry other : IndirectReg) : Decidable (Apart entry other) := inferInstanceAs (Decidable (_ ∧ _))

instance : Std.Symm Apart :=
  ⟨fun _ _ apart => ⟨apart.1.symm, fun same => same.trans (apart.2 same.symm)⟩⟩

theorem table_apart : indirectRegs.Pairwise Apart := by
  decide

/-- **The translation keeps the entries apart.** -/
theorem locate_inj {flags : Int} {entry other : IndirectReg} {target : UInt8} (inTable : entry ∈ indirectRegs)
    (alsoIn : other ∈ indirectRegs) (here : locate flags entry.address = some target)
    (there : locate flags other.address = some target) : entry = other := by
  by_contra ne
  obtain ⟨address, altaddr⟩ := table_apart.forall inTable alsoIn ne
  unfold locate at here there
  rw [translate_table entry inTable] at here
  rw [translate_table other alsoIn] at there
  split at here
  · rename_i old
    rw [if_pos old] at there
    split at here
    · cases here
    · rename_i present
      split at there
      · cases there
      · exact present (altaddr ((Option.some.inj here).trans (Option.some.inj there).symm))
  · rename_i new
    rw [if_neg new] at there
    exact address ((Option.some.inj here).trans (Option.some.inj there).symm)

/-- The stores of a list of entries. -/
def storeAll (flags : Int) (entries : List IndirectReg) (file : UInt8 → UInt16) : UInt8 → UInt16 :=
  entries.foldl (fun file entry => store flags entry.address entry.initial file) file

/-- Where an entry is stored, and what. -/
def placed (flags : Int) (entry : IndirectReg) : Option (UInt8 × UInt16) :=
  (locate flags entry.address).map fun target => (target, entry.initial)

theorem storeAll_eq (flags : Int) (entries : List IndirectReg) (file : UInt8 → UInt16) :
    storeAll flags entries file =
      scatter Prod.fst Prod.snd (entries.filterMap (placed flags)) file := by
  induction entries generalizing file with
  | nil => rfl
  | cons entry rest ih =>
    rw [storeAll, List.foldl_cons, ← storeAll, ih, store]
    cases located : locate flags entry.address with
    | none => rw [List.filterMap_cons_none (by rw [placed, located]; rfl)]
    | some target =>
      rw [List.filterMap_cons_some (b := (target, entry.initial)) (by rw [placed, located]; rfl)]
      rfl

theorem storeAll_elsewhere {flags : Int} {entries : List IndirectReg} {target : UInt8}
    (elsewhere : ∀ entry ∈ entries, locate flags entry.address ≠ some target) (file : UInt8 → UInt16) :
    storeAll flags entries file target = file target := by
  rw [storeAll_eq]
  refine scatter_elsewhere (fun stored member => ?_) file
  obtain ⟨entry, inEntries, place⟩ := List.mem_filterMap.mp member
  obtain ⟨here, located, rfl⟩ := Option.map_eq_some_iff.mp place
  intro same
  exact elsewhere entry inEntries (located.trans (congrArg some same))

theorem storeAll_holds {flags : Int} {entries : List IndirectReg} (inTable : entries ⊆ indirectRegs)
    (file : UInt8 → UInt16) : Holds flags entries (storeAll flags entries file) := by
  intro entry member target located
  rw [storeAll_eq]
  refine scatter_at ⟨(target, entry.initial), ?_, rfl⟩ (fun stored inStores same => ?_) file
  · exact List.mem_filterMap.mpr ⟨entry, member, by rw [placed, located]; rfl⟩
  · obtain ⟨other, inEntries, place⟩ := List.mem_filterMap.mp inStores
    obtain ⟨there, locatedThere, rfl⟩ := Option.map_eq_some_iff.mp place
    obtain rfl : there = target := same
    rw [locate_inj (inTable inEntries) (inTable member) locatedThere located]

/-- `wcfxs_proslic_init_indirect_regs` stores the table. -/
theorem initFrom_file (ideal : Ideal env card) (regs : params.regs = proslicH) (table : List IndirectReg)
    (world : World σ) :
    Program.Ends (handler env) (initIndirectRegsFrom params card table) world fun result after =>
      result = 0 ∧ after.cell = world.cell ∧
        (ideal.at after).file = storeAll (world.cell (.flags card)) table (ideal.at world).file := by
  induction table generalizing world with
  | nil => exact Program.ends_pure.mpr ⟨rfl, rfl, rfl⟩
  | cons entry rest ih =>
    refine Program.ends_bind.mpr ((setregIndirect_file ideal regs _ _ world).mono ?_)
    rintro _ middle ⟨rfl, cell, file, -⟩
    rw [Program.ends_ite, if_neg (not_not.mpr rfl)]
    refine (ih middle).mono ?_
    rintro _ after ⟨zero, cell', file'⟩
    refine ⟨zero, cell'.trans cell, ?_⟩
    rw [file', file, cell]
    rfl

/-- Restoring is storing. -/
theorem restore_ends (ideal : Ideal env card) (regs : params.regs = proslicH) (entries : List IndirectReg)
    (world : World σ) (nothing : (ideal.at world).staged = .nothing) :
    Program.Ends (handler env) ((entries.map fun entry => (entry.address, entry.initial)).forM fun entry => do
        let _ ← wcfxsProslicSetregIndirect params card entry.1 entry.2
        pure ()) world fun _ after => after.cell = world.cell ∧ (ideal.at after).staged = .nothing ∧
      (ideal.at after).file = storeAll (world.cell (.flags card)) entries (ideal.at world).file := by
  induction entries generalizing world with
  | nil => exact Program.ends_pure.mpr ⟨rfl, nothing, rfl⟩
  | cons entry rest ih =>
    refine Program.ends_bind.mpr (Program.ends_bind.mpr ?_)
    refine (setregIndirect_file ideal regs _ _ world).mono ?_
    rintro _ middle ⟨rfl, cell, file, staged⟩
    refine Program.ends_pure.mpr ((ih middle (staged (.inl nothing))).mono ?_)
    rintro _ after ⟨cell', still, file'⟩
    refine ⟨cell'.trans cell, still, ?_⟩
    rw [file', file, cell]
    rfl

/-- **A file that holds the table verifies.** -/
theorem verifyFrom_file (ideal : Ideal env card) (regs : params.regs = proslicH) (table : List IndirectReg)
    (inTable : table ⊆ indirectRegs) (passed : Bool) (world : World σ)
    (nothing : (ideal.at world).staged = .nothing)
    (holds : Holds (world.cell (.flags card)) table (ideal.at world).file) :
    Program.Ends (handler env) (verifyIndirectRegsFrom params card table passed) world fun result after =>
      (result = if passed then 0 else -1) ∧ after.cell = world.cell ∧
        (ideal.at after).file = (ideal.at world).file := by
  induction table generalizing world with
  | nil => exact Program.ends_pure.mpr ⟨rfl, rfl, rfl⟩
  | cons entry rest ih =>
    obtain ⟨here, others⟩ := List.cons_subset.mp inTable
    refine Program.ends_bind.mpr ((getregIndirect_file ideal regs _ world nothing).mono ?_)
    rintro value middle ⟨cell, file, staged, rfl⟩
    rw [Program.ends_ite, if_neg (by omega), Program.ends_bind, ends_get, Program.ends_ite, if_neg]
    · refine (ih others middle staged ?_).mono ?_
      · rw [cell, file]
        exact fun other member => holds other (List.mem_cons_of_mem entry member)
      · rintro result after ⟨value, cell', file'⟩
        exact ⟨value, cell'.trans cell, file'.trans file⟩
    · rintro ⟨wrong, present⟩
      cases located : locate (world.cell (.flags card)) entry.address with
      | none =>
        have gone := (locate_entry (translate_table entry here)).mp located
        rw [cell] at present
        exact absurd present (of_decide_eq_false gone)
      | some target =>
        refine wrong ?_
        rw [located, Option.elim_some, holds entry List.mem_cons_self target located]

/-! ### What the steps between leave alone -/

/-- The flags and the file below address 88 are kept, and nothing is left staged. -/
structure Ideal.Kept (ideal : Ideal env card) (before after : World σ) : Prop where
  flags : after.cell (.flags card) = before.cell (.flags card)
  nothing : (ideal.at before).staged = .nothing → (ideal.at after).staged = .nothing
  file : ∀ a < 88, (ideal.at after).file a = (ideal.at before).file a

variable {ideal : Ideal env card}

theorem Ideal.Kept.refl (world : World σ) : ideal.Kept world world := ⟨rfl, id, fun _ _ => rfl⟩

theorem Ideal.Kept.trans {first middle last : World σ} (start : ideal.Kept first middle)
    (finish : ideal.Kept middle last) : ideal.Kept first last :=
  ⟨finish.flags.trans start.flags, fun nothing => finish.nothing (start.nothing nothing),
    fun a low => (finish.file a low).trans (start.file a low)⟩

/-- A request that has nothing to do with the indirect registers. -/
def Direct (card : Card) : Op → Prop
  | .setreg c reg _ => c = card ∧ reg ∉ [proslicH.idaLo, proslicH.idaHi, proslicH.iaa]
  | .getreg c _ => c = card
  | .jiffies => True
  | .loadByte _ => True
  | .storeByte _ _ => True
  | .hang => True
  | _ => False

theorem Direct.kept {op : Op} (direct : Direct card op) {world after : World σ} {answer : op.Ans}
    (answered : handler env op world = some (answer, after)) : ideal.Kept world after := by
  have same : ideal.at after = ideal.at world → after.cell = world.cell → ideal.Kept world after :=
    fun chip cell => ⟨by rw [cell], by rw [chip]; exact id, fun _ _ => by rw [chip]⟩
  cases op with
  | setreg c reg value =>
    obtain ⟨rfl, other⟩ := direct
    cases Option.some.inj answered
    refine same ?_ rfl
    simp only [List.mem_cons, List.not_mem_nil, or_false, not_or] at other
    rw [Ideal.at, ideal.setreg, IdealChip.write, if_neg other.1, if_neg other.2.1, if_neg other.2.2]
    rfl
  | getreg c reg =>
    obtain rfl : c = card := direct
    cases Option.some.inj answered
    exact same (ideal.getreg _ _) rfl
  | jiffies =>
    cases Option.some.inj answered
    exact same (ideal.jiffies _) rfl
  | loadByte offset =>
    cases Option.some.inj answered
    exact same rfl rfl
  | storeByte offset value =>
    cases Option.some.inj answered
    exact same rfl rfl
  | hang => exact answer.elim
  | _ => exact direct.elim

theorem Direct.respects {α : Type} {program : Prog α} (every : program.Every (Direct card)) :
    Program.Respects (handler env) ideal.Kept program := fun _ _ _ ran =>
  every.run_rel Ideal.Kept.refl Ideal.Kept.trans (fun _ direct _ _ _ answered => direct.kept answered) ran

/-- First what is direct, then the rest. -/
theorem Direct.before {α β : Type} {program : Prog α} {rest : α → Prog β}
    (first : program.Every (Direct card))
    (second : ∀ value, Program.Respects (handler env) ideal.Kept (rest value)) :
    Program.Respects (handler env) ideal.Kept (program >>= rest) :=
  .bind Ideal.Kept.trans (Direct.respects first) second

namespace Direct

theorem setregs {row : List (UInt8 × UInt8)}
    (others : ∀ entry ∈ row, entry.1 ∉ [proslicH.idaLo, proslicH.idaHi, proslicH.iaa]) :
    (setregs card row).Every (Direct card) :=
  .forM fun entry member => .call ⟨rfl, others entry member⟩

theorem getregs (row : List UInt8) : (getregs card row).Every (Direct card) :=
  .forM fun _ _ => .step rfl fun _ => trivial

theorem spinReg {reg : UInt8} {origin : UInt32} {keep : UInt8 → Bool} {late : UInt32 → Bool} (fuel : Nat) :
    (spinReg card reg origin keep late fuel).Every (Direct card) := by
  induction fuel with
  | zero => exact ⟨trivial, nofun⟩
  | succ fuel ih =>
    refine .step rfl fun value => .ite (fun _ => .step trivial fun now => ?_) fun _ => trivial
    exact .ite (fun _ => trivial) fun _ => ih

theorem spinClock {origin ticks : UInt32} (fuel : Nat) :
    (spinClock origin ticks fuel).Every (Direct card) := by
  induction fuel with
  | zero => exact ⟨trivial, nofun⟩
  | succ fuel ih => exact .step trivial fun now => .ite (fun _ => ih) fun _ => trivial

theorem searchGain {result sense : UInt8}
    (other : result ∉ [proslicH.idaLo, proslicH.idaHi, proslicH.iaa]) (i : Nat) (origin : UInt32) :
    (searchGain params card result sense i origin).Every (Direct card) := by
  induction i generalizing origin with
  | zero => trivial
  | succ i ih =>
    refine .step ⟨rfl, other⟩ fun _ => .step trivial fun now => .bind (spinClock _) fun _ => ?_
    exact .step rfl fun value => .ite (fun _ => trivial) fun _ => ih now

theorem powerup (regs : params.regs = proslicH) (fast : Bool) :
    (wcfxsPowerupProslic params card fast).Every (Direct card) := by
  refine .step ⟨rfl, by decide⟩ fun _ => .step trivial fun origin => .step ⟨rfl, by decide⟩ fun _ => ?_
  refine .ite (fun _ => trivial) fun _ => .bind (spinReg _) fun vbat => .bind (getregs _) fun _ => ?_
  refine .ite (fun _ => trivial) fun _ => .bind (setregs ?_) fun _ => trivial
  rw [regs]
  simp [proslicH]

theorem powerleak : (wcfxsProslicPowerleakTest params card).Every (Direct card) := by
  refine .bind (setregs (by simp [proslicH])) fun _ => .step trivial fun origin => ?_
  exact .bind (spinReg _) fun vbat => .ite (fun _ => trivial) fun _ => trivial

theorem saveCalregs : (saveCalregs card).Every (Direct card) :=
  .forM fun _ _ => .step rfl fun _ => .call trivial

theorem restoreCalregs : (restoreCalregs card).Every (Direct card) := by
  refine .forM fun x inside => .step trivial fun _ => .call ⟨rfl, ?_⟩
  have small : x < 12 := List.mem_range.mp inside
  interval_cases x <;> decide

end Direct

/-- The scratch register and those of the calibration are no entries of the table. -/
theorem locate_scratch (flags : Int) {address : UInt8}
    (scratch : address ∈ ([88, 89, 90, 91, 92, 93, 97] : List UInt8)) :
    locate flags address = some address := by
  have untranslated : ([88, 89, 90, 91, 92, 93, 97] : List UInt8).all
      fun a => translate3215 a = a ∧ a ≠ 255 := by
    decide
  obtain ⟨same, present⟩ := of_decide_eq_true (List.all_eq_true.mp untranslated address scratch)
  rw [locate, same, if_neg present, ite_self]

theorem scratch_kept (regs : params.regs = proslicH) {address : UInt8}
    (scratch : address ∈ ([88, 89, 90, 91, 92, 93, 97] : List UInt8)) (data : UInt16) :
    Program.Respects (handler env) ideal.Kept (wcfxsProslicSetregIndirect params card address data) := by
  intro world result after ran
  obtain ⟨-, cell, file, staged⟩ := (setregIndirect_file ideal regs address data world).of_run ran
  rw [store_some (locate_scratch _ scratch)] at file
  rw [locate_scratch _ scratch] at staged
  refine ⟨by rw [cell], fun _ => staged (.inr nofun), fun a low => ?_⟩
  rw [file]
  refine Function.update_of_ne ?_ _ _
  rintro rfl
  have high : ([88, 89, 90, 91, 92, 93, 97] : List UInt8).all fun a => ¬ a < 88 := by decide
  exact of_decide_eq_true (List.all_eq_true.mp high a scratch) low

theorem manualCalibrate_kept (regs : params.regs = proslicH) :
    Program.Respects (handler env) ideal.Kept (wcfxsProslicManualCalibrate params card) := by
  refine Direct.before (Direct.setregs (by simp [proslicH])) fun _ => ?_
  refine Direct.before (.call trivial) fun origin => Direct.before (Direct.spinReg _) fun done => ?_
  refine .ite (fun _ => .pure Ideal.Kept.refl _) fun _ => ?_
  refine Direct.before (.call trivial) fun origin => Direct.before (Direct.spinClock _) fun _ => ?_
  refine .bind Ideal.Kept.trans (.forM Ideal.Kept.refl Ideal.Kept.trans fun address member => ?_) fun _ => ?_
  · have scratch : address ∈ ([88, 89, 90, 91, 92, 93, 97] : List UInt8) :=
      (by decide : ([88, 89, 90, 91, 92, 93] : List UInt8) ⊆ [88, 89, 90, 91, 92, 93, 97]) member
    exact .bind Ideal.Kept.trans (scratch_kept regs scratch 0) fun _ => .pure Ideal.Kept.refl _
  refine Direct.before (Direct.setregs (by simp [proslicH])) fun _ => ?_
  refine Direct.before (Direct.searchGain (by decide) _ _) fun _ => ?_
  refine Direct.before (Direct.searchGain (by decide) _ _) fun origin => ?_
  refine Direct.before (.call ⟨rfl, by decide⟩) fun _ => Direct.before (Direct.spinClock _) fun _ => ?_
  refine Direct.before (Direct.setregs (by simp [proslicH])) fun _ => ?_
  refine Direct.before (Direct.getregs _) fun _ => ?_
  refine Direct.before (Direct.setregs (by simp [proslicH])) fun _ => ?_
  exact .pure Ideal.Kept.refl _

/-- **The calibration** keeps the table. -/
theorem initProslicCalibrate_kept (regs : params.regs = proslicH) :
    Program.Respects (handler env) ideal.Kept (initProslicCalibrate params card true) := by
  have twice : Program.Respects (handler env) ideal.Kept (calibrateTwice params card true) :=
    .bind Ideal.Kept.trans (manualCalibrate_kept regs) fun failed =>
      .ite (fun _ => manualCalibrate_kept regs) fun _ => .pure Ideal.Kept.refl _
  refine Direct.before Direct.powerleak fun _ => Direct.before (Direct.powerup regs false) fun failed => ?_
  refine .ite (fun _ => .pure Ideal.Kept.refl _) fun _ => .bind Ideal.Kept.trans twice fun failed => ?_
  refine .ite (fun _ => .pure Ideal.Kept.refl _) fun _ => ?_
  refine Direct.before (.call ⟨rfl, by decide⟩) fun _ => Direct.before (.call rfl) fun r19 => ?_
  refine .bind Ideal.Kept.trans (.when Ideal.Kept.refl fun _ => ?_) fun _ => ?_
  · exact Direct.respects (.call ⟨rfl, by decide⟩)
  · exact .pure Ideal.Kept.refl _

theorem locate_low {flags : Int} {entry : IndirectReg} {target : UInt8} (member : entry ∈ indirectRegs)
    (located : locate flags entry.address = some target) : target < 88 := by
  have low : ∀ entry ∈ indirectRegs, entry.address < 88 ∧ (entry.altaddr = 255 ∨ entry.altaddr < 88) := by
    decide
  rw [locate, translate_table entry member] at located
  split at located
  · split at located
    · cases located
    · rename_i present
      obtain rfl := Option.some.inj located
      exact (low entry member).2.resolve_left present
  · obtain rfl := Option.some.inj located
    exact (low entry member).1

theorem Holds.kept {entries : List IndirectReg} {world after : World σ}
    (holds : Holds (world.cell (.flags card)) entries (ideal.at world).file)
    (inTable : entries ⊆ indirectRegs) (kept : ideal.Kept world after) :
    Holds (after.cell (.flags card)) entries (ideal.at after).file := by
  intro entry member target located
  rw [kept.flags] at located
  rw [kept.file target (locate_low (inTable member) located)]
  exact holds entry member target located

/-! ### The filters -/

/-- The entries of the digital filters. -/
def filterEntries : List IndirectReg := indirectRegs.filter fun entry => entry.address ∈ filterAddresses

/-- The other entries. -/
def otherEntries : List IndirectReg := indirectRegs.filter fun entry => entry.address ∉ filterAddresses

theorem filterEntries_subset : filterEntries ⊆ indirectRegs := List.filter_subset_self _

theorem filterEntries_addresses : filterEntries.map IndirectReg.address = filterAddresses := by
  decide

/-- Both chips have the filters. -/
theorem filterEntries_present (flags : Int) :
    ∀ entry ∈ filterEntries, ∃ target, locate flags entry.address = some target := by
  have altaddr : ∀ entry ∈ filterEntries, entry.altaddr ≠ 255 := by decide
  intro entry member
  have first := translate_table entry (filterEntries_subset member)
  rw [locate, first, if_neg (altaddr entry member)]
  split
  · exact ⟨_, rfl⟩
  · exact ⟨_, rfl⟩

theorem ofInt_toNat (word : UInt16) : UInt16.ofInt word.toNat = word := by
  have small := word.toNat_lt
  rw [← UInt16.toNat_inj, UInt16.ofInt, UInt16.toNat_ofNat']
  omega

/-- **Flushing** the filters returns what they held, and keeps the rest of the file. -/
theorem flush_ends (regs : params.regs = proslicH) (entries : List IndirectReg)
    (inTable : entries ⊆ filterEntries) (apart : entries.Pairwise Apart) (world : World σ)
    (nothing : (ideal.at world).staged = .nothing)
    (holds : Holds (world.cell (.flags card)) entries (ideal.at world).file) :
    Program.Ends (handler env) (flushFilters params card (entries.map IndirectReg.address)) world
      fun olds after => olds = entries.map IndirectReg.initial ∧ after.cell = world.cell ∧
        (ideal.at after).staged = .nothing ∧
        ∀ target, (∀ entry ∈ entries, locate (world.cell (.flags card)) entry.address ≠ some target) →
          (ideal.at after).file target = (ideal.at world).file target := by
  induction entries generalizing world with
  | nil => exact Program.ends_pure.mpr ⟨rfl, rfl, nothing, fun _ _ => rfl⟩
  | cons entry rest ih =>
    obtain ⟨here, others⟩ := List.cons_subset.mp inTable
    obtain ⟨fromOthers, restApart⟩ := List.pairwise_cons.mp apart
    obtain ⟨target, located⟩ := filterEntries_present (world.cell (.flags card)) entry here
    rw [List.map_cons, flushFilters, Program.ends_bind]
    refine (getregIndirect_file ideal regs _ world nothing).mono ?_
    rintro old middle ⟨cell, file, staged, rfl⟩
    rw [Program.ends_bind]
    refine (setregIndirect_file ideal regs _ _ middle).mono ?_
    rintro _ cleared ⟨-, cell', file', staged'⟩
    rw [cell, file, store_some located] at file'
    have same : cleared.cell = world.cell := cell'.trans cell
    rw [Program.ends_bind]
    refine (ih others restApart cleared (staged' (.inl staged)) ?_).mono ?_
    · -- clearing this filter has not touched the others
      intro other member place locatedThere
      rw [same] at locatedThere
      rw [file', Function.update_of_ne]
      · exact holds other (List.mem_cons_of_mem entry member) place locatedThere
      · rintro rfl
        have one := locate_inj (filterEntries_subset here) (filterEntries_subset (others member)) located locatedThere
        exact (fromOthers other member).1 (congrArg IndirectReg.address one)
    · rintro olds after ⟨rfl, cellEnd, stagedEnd, elsewhere⟩
      refine Program.ends_pure.mpr ⟨?_, cellEnd.trans same, stagedEnd, fun place other => ?_⟩
      · rw [located, Option.elim_some, ofInt_toNat, holds entry List.mem_cons_self target located]
        rfl
      · obtain ⟨notHere, notThere⟩ := List.forall_mem_cons.mp other
        rw [elsewhere place (by rw [same]; exact notThere), file', Function.update_of_ne]
        rintro rfl
        exact notHere located

/-- The filters' values are saved, and the rest of the table is in the file. -/
structure Ideal.Ready (ideal : Ideal env card) (tmp : List UInt16) (world : World σ) : Prop where
  saved : tmp = filterEntries.map IndirectReg.initial
  nothing : (ideal.at world).staged = .nothing
  rest : Holds (world.cell (.flags card)) otherEntries (ideal.at world).file

theorem Ideal.Ready.kept {tmp : List UInt16} {world after : World σ} (ready : ideal.Ready tmp world)
    (kept : ideal.Kept world after) : ideal.Ready tmp after :=
  ⟨ready.saved, kept.nothing ready.nothing, ready.rest.kept (List.filter_subset_self _) kept⟩

/-- Flushing the filters leaves the other entries. -/
theorem Ideal.Ready.of_flushed {tmp : List UInt16} {world after : World σ}
    (holds : Holds (world.cell (.flags card)) indirectRegs (ideal.at world).file)
    (saved : tmp = filterEntries.map IndirectReg.initial) (nothing : (ideal.at after).staged = .nothing)
    (flags : after.cell (.flags card) = world.cell (.flags card))
    (elsewhere : ∀ target,
      (∀ entry ∈ filterEntries, locate (world.cell (.flags card)) entry.address ≠ some target) →
        (ideal.at after).file target = (ideal.at world).file target) : ideal.Ready tmp after := by
  refine ⟨saved, nothing, fun entry member target located => ?_⟩
  rw [flags] at located
  obtain ⟨inTable, other⟩ := List.mem_filter.mp member
  rw [elsewhere target, holds entry inTable target located]
  intro filter inFilters there
  obtain rfl := locate_inj inTable (filterEntries_subset inFilters) located there
  simp [filterEntries] at inFilters
  simp [inFilters] at other

/-- A program that keeps the file keeps what the initialisation needs of it. -/
theorem Ideal.Ready.after {α : Type} {program : Prog α} {tmp : List UInt16} {world : World σ}
    (ready : ideal.Ready tmp world) (respects : Program.Respects (handler env) ideal.Kept program) :
    Program.Finally (handler env) program world fun _ after => ideal.Ready tmp after :=
  fun _ _ ran => ready.kept (respects _ _ _ ran)

/-- **Restoring** the filters completes the table, and it verifies. -/
theorem restore_holds (regs : params.regs = proslicH) {tmp : List UInt16} {world : World σ}
    (ready : ideal.Ready tmp world) :
    Program.Ends (handler env) (initProslicVerify params card tmp) world fun result after =>
      result = 0 ∧ Holds (after.cell (.flags card)) indirectRegs (ideal.at after).file := by
  have zipped : filterAddresses.zip tmp = filterEntries.map fun entry => (entry.address, entry.initial) := by
    rw [ready.saved, ← filterEntries_addresses, List.zip_map']
  rw [initProslicVerify, zipped, Program.ends_bind]
  refine (restore_ends ideal regs filterEntries world ready.nothing).mono ?_
  rintro _ middle ⟨cell, staged, file⟩
  have holds : Holds (world.cell (.flags card)) indirectRegs (ideal.at middle).file := by
    intro entry member target located
    rw [file]
    by_cases filtered : entry ∈ filterEntries
    · exact storeAll_holds filterEntries_subset _ entry filtered target located
    · rw [storeAll_elsewhere]
      · refine ready.rest entry (List.mem_filter.mpr ⟨member, ?_⟩) target located
        simpa [filterEntries, member] using filtered
      · intro other inFilters there
        exact filtered (locate_inj member (filterEntries_subset inFilters) located there ▸ inFilters)
  refine (verifyFrom_file ideal regs indirectRegs (List.Subset.refl _) true middle staged
    (by rw [cell]; exact holds)).mono ?_
  rintro result after ⟨passed, cell', file'⟩
  refine ⟨passed, ?_⟩
  rw [cell', cell, file']
  exact holds

/-! ### The whole initialisation -/

/-- `wcfxs_init_proslic` up to the restoring of the filters: the old filter values, or the error. -/
def initProslicSequence (params : Params) (card : Card) (fast sane : Bool) :
    Prog (Except Int (List UInt16)) := do
  let prelude ← initProslicPrelude params card fast sane
  match prelude with
  | .error code => pure (.error code)
  | .ok tmp =>
      if fast then do
        restoreCalregs card
        pure (.ok tmp)
      else do
        let failed ← initProslicCalibrate params card true
        if failed ≠ 0 then pure (.error (-1))
        else do
          saveCalregs card
          pure (.ok tmp)

theorem wcfxsInitProslic_eq (timeslot : UInt8) (fast sane : Bool) :
    wcfxsInitProslic params card timeslot fast sane =
      initProslicSequence params card fast sane >>= fun
        | .error code => pure code
        | .ok tmp => initProslicFinish params card timeslot tmp := by
  rw [wcfxsInitProslic, initProslicSequence, bind_assoc]
  refine congrArg _ (funext fun prelude => ?_)
  cases prelude with
  | error code => rfl
  | ok tmp =>
    cases fast with
    | true => simp only [if_true, bind_assoc, pure_bind]
    | false =>
      simp only [Bool.false_eq_true, if_false, bind_assoc]
      refine congrArg _ (funext fun failed => ?_)
      split
      · rfl
      · simp only [bind_assoc, pure_bind]

theorem filterEntries_apart : filterEntries.Pairwise Apart := by
  decide

/-- The first part sets the table up, and saves the filters. -/
theorem initProslicPrelude_ready (ideal : Ideal env card) (regs : params.regs = proslicH)
    (fast sane : Bool) (world : World σ) :
    Program.Finally (handler env) (initProslicPrelude params card fast sane) world
      fun outcome after => ∀ tmp, outcome = .ok tmp → ideal.Ready tmp after := by
  rw [initProslicPrelude]
  refine Program.finally_bind.mpr fun _ _ _ => Program.finally_bind.mpr fun insane _ _ => ?_
  refine Program.finally_ite.mpr ?_
  split
  · exact Program.finally_pure.mpr nofun
  refine Program.finally_bind.mpr fun _ start _ => Program.finally_bind.mpr fun failed tabled ran => ?_
  obtain ⟨rfl, cell, file⟩ := (initFrom_file ideal regs indirectRegs start).of_run ran
  refine Program.finally_ite.mpr ?_
  rw [if_neg (not_not.mpr rfl)]
  have holds : Holds (tabled.cell (.flags card)) indirectRegs (ideal.at tabled).file := by
    rw [cell, file]
    exact storeAll_holds (List.Subset.refl _) _
  -- the scratch register is on both chips, so nothing is staged after it
  refine Program.finally_bind.mpr fun _ scratched ranScratch => ?_
  have scratch : (97 : UInt8) ∈ ([88, 89, 90, 91, 92, 93, 97] : List UInt8) := by decide
  obtain ⟨-, -, -, staged⟩ := (setregIndirect_file ideal regs 97 0 tabled).of_run ranScratch
  rw [locate_scratch _ scratch] at staged
  have nothing := staged (.inr nofun)
  have holds := holds.kept (List.Subset.refl _) (scratch_kept regs scratch 0 _ _ _ ranScratch)
  refine Program.finally_bind.mpr fun _ rowed ranRow => ?_
  have row : ideal.Kept scratched rowed :=
    Direct.respects (Direct.setregs (by simp [proslicH])) _ _ _ ranRow
  have holds := holds.kept (List.Subset.refl _) row
  refine Program.finally_bind.mpr fun tmp flushed ranFlush => ?_
  rw [← filterEntries_addresses] at ranFlush
  obtain ⟨saved, same, still, elsewhere⟩ := (flush_ends regs filterEntries (List.Subset.refl _)
    filterEntries_apart rowed (row.nothing nothing)
    fun entry member => holds entry (filterEntries_subset member)).of_run ranFlush
  have ready : ideal.Ready tmp flushed :=
    Ideal.Ready.of_flushed holds saved still (congrFun same _) elsewhere
  refine Program.finally_bind.mpr ((ready.after (Direct.respects (Direct.powerup regs fast))).mono ?_)
  intro failed powered ready
  refine Program.finally_ite.mpr ?_
  split
  · exact Program.finally_pure.mpr nofun
  · refine Program.finally_pure.mpr fun saved same => ?_
    obtain rfl := Except.ok.inj same
    exact ready

/-- A card that is an ideal chip and nothing else. -/
def idealCard : Env IdealChip where
  setreg _ reg value chip := chip.write reg value
  getreg _ reg chip :=
    (if reg = proslicH.idaLo then chip.low else if reg = proslicH.idaHi then chip.high else 0, chip)
  setLed _ _ chip := chip
  forgetCard chip := chip
  gsmSend _ _ chip := chip
  gsmReceive _ chip := ([], chip)
  uart _ _ chip := (0, chip)
  jiffies chip := (0, chip)
  waitJustABit _ chip := chip
  copyToUser _ chip := (true, chip)

/-- It is ideal. -/
def idealCard_ideal (card : Card) : Ideal idealCard card where
  chip := id
  setreg _ _ _ := rfl
  getreg _ _ := rfl
  iStatus _ := rfl
  idaLo _ := rfl
  idaHi _ := rfl
  jiffies _ := rfl
  waitJustABit _ _ := rfl

end Accesses

end Baps.Wcfxs
