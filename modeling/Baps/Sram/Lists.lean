/-
**The L1 SRAM banks, and the lists of blocks that processes hold.**

There are three banks: instruction memory, data A and data B. A process allocates with
`sram_alloc_with_lsl`, which tries the banks its flags name, and every block it is given goes on its
list; `sram_free_with_lsl` frees what is on the list, and finds the bank again from the address. The
kernel allocates from the same banks without a list.

* `lists_account` — **every address on a list is that of a block of the bank it is freed to, and is on
  one list once**, in every run of processes and of a kernel that frees only its own blocks. So the free
  behind `sram_free_with_lsl`, whose result is ignored, succeeds, and a call that fails changes nothing.
-/

import Baps.Sram.Pool

namespace Baps.Sram

open Memory

/-! ### The banks -/

/-- `l1_inst_sram`, `l1_data_A_sram` and `l1_data_B_sram`. -/
inductive Bank
  | inst
  | dataA
  | dataB
  deriving DecidableEq, Repr

/-- The memory map: where each bank is (`L1_CODE_START` and `L1_CODE_LENGTH`, and so on), and the part
of it that is the pool. -/
structure Layout where
  range : Bank → Span
  pool : Bank → Region
  inside : ∀ bank, (range bank).start ≤ (pool bank).start ∧
    (pool bank).start + (pool bank).length ≤ (range bank).start + (range bank).length
  apart : ∀ first second address, (range first).Holds address → (range second).Holds address →
    first = second

instance (span : Span) (address : Nat) : Decidable (span.Holds address) :=
  inferInstanceAs (Decidable (_ ∧ _))

/-- The tables of the banks. -/
abbrev Tables (n : Nat) := Bank → Table n

section Banks

variable {n : Nat}

/-- Allocate from a bank. -/
def bankAlloc (bank : Bank) (pid : Int) (size : Nat) (tables : Tables n) : Nat × Tables n :=
  let result := l1SramAlloc pid size (tables bank)
  (result.1, Function.update tables bank result.2)

/-- Free to a bank. -/
def bankFree (bank : Bank) (addr : Nat) (tables : Tables n) : Int × Tables n :=
  let result := l1SramFree addr (tables bank)
  (result.1, Function.update tables bank result.2)

/-- `l1_inst_sram_alloc`. -/
def l1InstSramAlloc : Int → Nat → Tables n → Nat × Tables n := bankAlloc .inst

/-- `l1_data_A_sram_alloc`. -/
def l1DataASramAlloc : Int → Nat → Tables n → Nat × Tables n := bankAlloc .dataA

/-- `l1_data_B_sram_alloc`. -/
def l1DataBSramAlloc : Int → Nat → Tables n → Nat × Tables n := bankAlloc .dataB

/-- `l1_inst_sram_free`. -/
def l1InstSramFree : Nat → Tables n → Int × Tables n := bankFree .inst

/-- `l1_data_A_sram_free`. -/
def l1DataASramFree : Nat → Tables n → Int × Tables n := bankFree .dataA

/-- `l1_data_B_sram_free`. -/
def l1DataBSramFree : Nat → Tables n → Int × Tables n := bankFree .dataB

/-- `l1_data_sram_alloc`. -/
def l1DataSramAlloc (pid : Int) (size : Nat) (tables : Tables n) : Nat × Tables n :=
  let result := l1DataASramAlloc pid size tables
  if result.1 = 0 then l1DataBSramAlloc pid size result.2 else result

/-- `l1_data_sram_free`. -/
def l1DataSramFree (addr : Nat) (tables : Tables n) : Int × Tables n :=
  let result := l1DataASramFree addr tables
  if result.1 = -1 then l1DataBSramFree addr result.2 else result

/-- `sram_free`: the bank is found from the address. -/
def sramFree (layout : Layout) (addr : Nat) (tables : Tables n) : Int × Tables n :=
  if (layout.range .inst).Holds addr then l1InstSramFree addr tables
  else if (layout.range .dataA).Holds addr then l1DataASramFree addr tables
  else if (layout.range .dataB).Holds addr then l1DataBSramFree addr tables
  else (-1, tables)

end Banks

/-! ### The lists -/

/-- The bits `L1_INST_SRAM`, `L1_DATA_A_SRAM` and `L1_DATA_B_SRAM` of `flags`. -/
structure LslFlags where
  inst : Bool
  dataA : Bool
  dataB : Bool

/-- `struct sram_list_struct`. -/
structure SramListStruct where
  addr : Nat
  length : Nat
  deriving DecidableEq, Repr

/-- The banks, the list of every process, and the addresses the kernel holds. -/
structure System (Mm : Type) (n : Nat) where
  tables : Tables n
  sramList : Mm → List SramListStruct
  kernel : List Nat

section Lists

variable {Mm : Type} [DecidableEq Mm] {n : Nat}

/-- The banks that `flags` name, one after the other. -/
def allocByFlags (pid : Int) (size : Nat) (flags : LslFlags) (tables : Tables n) : Nat × Tables n :=
  let first := if flags.inst then l1InstSramAlloc pid size tables else (0, tables)
  let second := if first.1 = 0 ∧ flags.dataA then l1DataASramAlloc pid size first.2 else first
  if second.1 = 0 ∧ flags.dataB then l1DataBSramAlloc pid size second.2 else second

/-- `sram_alloc_with_lsl`, for the process `mm`; `kmalloc` may fail. -/
def sramAllocWithLsl (mm : Mm) (pid : Int) (kmalloc : Bool) (size : Nat) (flags : LslFlags)
    (system : System Mm n) : Nat × System Mm n :=
  if ¬ kmalloc then (0, system)
  else
    let result := allocByFlags pid size flags system.tables
    if result.1 = 0 then (0, { system with tables := result.2 })
    else (result.1, { system with
      tables := result.2
      sramList := Function.update system.sramList mm
        (⟨result.1, size⟩ :: system.sramList mm) })

/-- `sram_free_with_lsl`, for the process `mm`. -/
def sramFreeWithLsl (layout : Layout) (mm : Mm) (addr : Nat) (system : System Mm n) :
    Int × System Mm n :=
  if ∃ lsl ∈ system.sramList mm, lsl.addr = addr then
    (0, { system with
      tables := (sramFree layout addr system.tables).2
      sramList := Function.update system.sramList mm
        ((system.sramList mm).eraseP (·.addr = addr)) })
  else (-1, system)

/-- How kernel code allocates. -/
inductive KernelAlloc
  | inst
  | dataA
  | dataB
  | data

/-- How kernel code frees. -/
inductive KernelFree
  | sram
  | inst
  | dataA
  | dataB
  | data

def KernelAlloc.run : KernelAlloc → Int → Nat → Tables n → Nat × Tables n
  | .inst => l1InstSramAlloc
  | .dataA => l1DataASramAlloc
  | .dataB => l1DataBSramAlloc
  | .data => l1DataSramAlloc

def KernelFree.run (layout : Layout) : KernelFree → Nat → Tables n → Int × Tables n
  | .sram => sramFree layout
  | .inst => l1InstSramFree
  | .dataA => l1DataASramFree
  | .dataB => l1DataBSramFree
  | .data => l1DataSramFree

/-- A call by a process or by the kernel. -/
inductive Request (Mm : Type)
  | allocWithLsl (mm : Mm) (pid : Int) (kmalloc : Bool) (size : Nat) (flags : LslFlags)
  | freeWithLsl (mm : Mm) (addr : Nat)
  | kernelAlloc (way : KernelAlloc) (pid : Int) (size : Nat)
  | kernelFree (way : KernelFree) (addr : Nat)

/-- Sizes for which rounding does not wrap; and the kernel frees only what it holds. -/
def Request.Allowed (system : System Mm n) : Request Mm → Prop
  | .allocWithLsl _ _ _ size _ => size ≤ 2 ^ 32 - 4
  | .freeWithLsl _ _ => True
  | .kernelAlloc _ _ size => size ≤ 2 ^ 32 - 4
  | .kernelFree _ addr => addr ∈ system.kernel

/-- One call. -/
def Request.step (layout : Layout) (request : Request Mm) (system : System Mm n) : System Mm n :=
  match request with
  | .allocWithLsl mm pid kmalloc size flags => (sramAllocWithLsl mm pid kmalloc size flags system).2
  | .freeWithLsl mm addr => (sramFreeWithLsl layout mm addr system).2
  | .kernelAlloc way pid size =>
    let result := way.run pid size system.tables
    { system with
      tables := result.2
      kernel := if result.1 = 0 then system.kernel else result.1 :: system.kernel }
  | .kernelFree way addr =>
    let result := way.run layout addr system.tables
    { system with
      tables := result.2
      kernel := if result.1 = 0 then system.kernel.erase addr else system.kernel }

/-- A run of calls, each allowed when its turn comes. -/
inductive Run (layout : Layout) : System Mm n → System Mm n → Prop
  | refl (system : System Mm n) : Run layout system system
  | step {system after : System Mm n} (run : Run layout system after) (request : Request Mm)
      (allowed : request.Allowed after) : Run layout system (request.step layout after)

/-- The system before the first call. -/
def initialSystem (Mm : Type) (n : Nat) (layout : Layout) : System Mm (n + 1) where
  tables := fun bank => initialTable n (layout.pool bank)
  sramList := fun _ => []
  kernel := []

end Lists

/-! ### Who holds what -/

section Holders

variable {Mm : Type} {n : Nat} {layout : Layout}

/-- An address is that of a block of the bank it is freed to. -/
def IsHeld (layout : Layout) (tables : Tables n) (addr : Nat) : Prop :=
  ∃ bank, (layout.range bank).Holds addr ∧ ∃ block, IsBlock (tables bank) block ∧ block.start = addr

/-- The addresses that a process, or the kernel, holds. -/
def System.held (system : System Mm n) : Option Mm → List Nat
  | some mm => (system.sramList mm).map SramListStruct.addr
  | none => system.kernel

/-- What every call keeps. -/
structure Kept (layout : Layout) (system : System Mm n) : Prop where
  sound : ∀ bank, Sound (layout.pool bank) (system.tables bank)
  blocks : ∀ owner, ∀ addr ∈ system.held owner, IsHeld layout system.tables addr
  nodup : ∀ owner, (system.held owner).Nodup
  apart : ∀ owner other addr, addr ∈ system.held owner → addr ∈ system.held other → owner = other

/-- A block lies in its bank. -/
theorem block_range {table : Table n} {bank : Bank} (sound : Sound (layout.pool bank) table)
    {block : Span} (was : IsBlock table block) : (layout.range bank).Holds block.start := by
  obtain ⟨i, allocated, rfl⟩ := was
  obtain ⟨low, positive, high⟩ := inPool_of_tiles sound.tiles (Flag.live_of_allocated allocated)
  have inside := layout.inside bank
  unfold Span.Holds
  simp only
  omega

variable {tables after : Tables n}

/-- The address of a block of a bank. -/
theorem isHeld_bank {bank : Bank} {addr : Nat} (range : (layout.range bank).Holds addr) :
    IsHeld layout tables addr ↔ ∃ block, IsBlock (tables bank) block ∧ block.start = addr := by
  constructor
  · rintro ⟨other, holds, block, was, rfl⟩
    obtain rfl := layout.apart other bank _ holds range
    exact ⟨block, was, rfl⟩
  · exact fun exists_block => ⟨bank, range, exists_block⟩

/-- Addresses of another bank do not depend on a bank's table. -/
theorem isHeld_other {bank : Bank} {addr : Nat} {table : Table n}
    (outside : ¬ (layout.range bank).Holds addr) :
    IsHeld layout (Function.update tables bank table) addr ↔ IsHeld layout tables addr := by
  have ne : ∀ {other}, (layout.range other).Holds addr → other ≠ bank := by
    rintro other holds rfl
    exact outside holds
  constructor
  · rintro ⟨other, holds, block, was, start⟩
    rw [Function.update_of_ne (ne holds)] at was
    exact ⟨other, holds, block, was, start⟩
  · rintro ⟨other, holds, block, was, start⟩
    refine ⟨other, holds, block, ?_, start⟩
    rw [Function.update_of_ne (ne holds)]
    exact was

theorem sound_update {bank : Bank} {table : Table n}
    (sound : ∀ bank, Sound (layout.pool bank) (tables bank)) (also : Sound (layout.pool bank) table) :
    ∀ other, Sound (layout.pool other) (Function.update tables bank table other) := by
  intro other
  by_cases same : other = bank
  · subst same
    rw [Function.update_self]
    exact also
  · rw [Function.update_of_ne same]
    exact sound other

/-- An allocation from some bank. -/
structure BankGrants (layout : Layout) (addr : Nat) (tables after : Tables n) : Prop where
  sound : ∀ bank, Sound (layout.pool bank) (after bank)
  fresh : ¬ IsHeld layout tables addr
  start_ne : addr ≠ 0
  held : ∀ other, IsHeld layout after other ↔ IsHeld layout tables other ∨ other = addr

/-- An allocation fails and changes nothing, or hands out a block nobody holds. -/
def Allocates (layout : Layout) (tables : Tables n) (result : Nat × Tables n) : Prop :=
  result = (0, tables) ∨ BankGrants layout result.1 tables result.2

/-- A block is given back to some bank. -/
structure BankTakesBack (layout : Layout) (addr : Nat) (tables after : Tables n) : Prop where
  sound : ∀ bank, Sound (layout.pool bank) (after bank)
  held : ∀ other, IsHeld layout after other ↔ IsHeld layout tables other ∧ other ≠ addr

/-- A free fails and changes nothing, or gives a block back. -/
def Frees (layout : Layout) (addr : Nat) (tables : Tables n) (result : Int × Tables n) : Prop :=
  result = (-1, tables) ∨ (result.1 = 0 ∧ BankTakesBack layout addr tables result.2)

/-- A second bank is tried if the first has nothing. -/
theorem Allocates.orElse {first second : Nat × Tables n} (allocates : Allocates layout tables first)
    (again : first = (0, tables) → Allocates layout tables second) {test : Prop} [Decidable test]
    (failed : test → first.1 = 0) :
    Allocates layout tables (if test then second else first) := by
  split
  · rename_i holds
    refine again ?_
    rcases allocates with same | grants
    · exact same
    · exact absurd (failed holds) grants.start_ne
  · exact allocates

section Bank

variable (sound : ∀ bank, Sound (layout.pool bank) (tables bank))

include sound

/-- **One bank allocates.** -/
theorem bankAlloc_allocates (bank : Bank) (pid : Int) {size : Nat} (small : size ≤ 2 ^ 32 - 4) :
    Allocates layout tables (bankAlloc bank pid size tables) := by
  unfold bankAlloc
  have failed : ∀ {result : Nat × Table n}, result = (0, tables bank) →
      Allocates layout tables (result.1, Function.update tables bank result.2) := by
    rintro result rfl
    exact .inl (by simp)
  by_cases zero : size = 0
  · exact failed (by simp [l1SramAlloc, zero])
  rcases (sound bank).alloc pid (Nat.pos_of_ne_zero zero) small with
    ⟨result, -⟩ | ⟨block, start, -, grants⟩
  · exact failed result
  refine .inr ?_
  simp only [start]
  have range : (layout.range bank).Holds block.start :=
    block_range grants.sound ((grants.blocks block).mpr (.inr rfl))
  refine ⟨sound_update sound grants.sound, fun held => ?_, grants.start_ne, fun addr => ?_⟩
  · obtain ⟨other, was, start⟩ := (isHeld_bank range).mp held
    exact grants.fresh other was start
  by_cases holds : (layout.range bank).Holds addr
  · rw [isHeld_bank holds, isHeld_bank holds, Function.update_self]
    constructor
    · rintro ⟨other, was, rfl⟩
      rcases (grants.blocks other).mp was with old | rfl
      · exact .inl ⟨other, old, rfl⟩
      · exact .inr rfl
    · rintro (⟨other, was, rfl⟩ | rfl)
      · exact ⟨other, (grants.blocks other).mpr (.inl was), rfl⟩
      · exact ⟨block, (grants.blocks block).mpr (.inr rfl), rfl⟩
  · rw [isHeld_other holds]
    refine (or_iff_left ?_).symm
    rintro rfl
    exact holds range

/-- **One bank frees**: it takes back the block at the address, if it has one. -/
theorem bankFree_frees (bank : Bank) (addr : Nat) :
    (bankFree bank addr tables = (-1, tables) ∧
      ∀ block, IsBlock (tables bank) block → block.start ≠ addr) ∨
    ((bankFree bank addr tables).1 = 0 ∧ (layout.range bank).Holds addr ∧
      BankTakesBack layout addr tables (bankFree bank addr tables).2) := by
  unfold bankFree
  rcases (sound bank).free addr with ⟨result, nobody⟩ | ⟨block, rfl, success, back⟩
  · rw [result]
    exact .inl ⟨by simp, nobody⟩
  have range : (layout.range bank).Holds block.start := block_range (sound bank) back.was
  refine .inr ⟨success, range, sound_update sound back.sound, fun addr => ?_⟩
  show IsHeld layout (Function.update tables bank (l1SramFree block.start (tables bank)).2) addr ↔ _
  by_cases holds : (layout.range bank).Holds addr
  · rw [isHeld_bank holds, isHeld_bank holds, Function.update_self]
    constructor
    · rintro ⟨other, was, rfl⟩
      obtain ⟨old, ne⟩ := (back.blocks other).mp was
      exact ⟨⟨other, old, rfl⟩, fun same => ne ((sound bank).block_inj old back.was same)⟩
    · rintro ⟨⟨other, was, rfl⟩, ne⟩
      refine ⟨other, (back.blocks other).mpr ⟨was, fun same => ne ?_⟩, rfl⟩
      rw [same]
  · rw [isHeld_other holds]
    refine (and_iff_left ?_).symm
    rintro rfl
    exact holds range

theorem bankFree_some (bank : Bank) (addr : Nat) :
    Frees layout addr tables (bankFree bank addr tables) := by
  rcases bankFree_frees sound bank addr with ⟨result, -⟩ | ⟨success, -, back⟩
  · exact .inl result
  · exact .inr ⟨success, back⟩

/-- **`sram_free` finds the bank**: it fails on an address that nobody holds, and on no other. -/
theorem sramFree_frees (addr : Nat) :
    (sramFree layout addr tables = (-1, tables) ∧ ¬ IsHeld layout tables addr) ∨
    ((sramFree layout addr tables).1 = 0 ∧
      BankTakesBack layout addr tables (sramFree layout addr tables).2) := by
  have bank : ∀ bank, (layout.range bank).Holds addr →
      (bankFree bank addr tables = (-1, tables) ∧ ¬ IsHeld layout tables addr) ∨
      ((bankFree bank addr tables).1 = 0 ∧
        BankTakesBack layout addr tables (bankFree bank addr tables).2) := by
    intro bank range
    rcases bankFree_frees sound bank addr with ⟨result, nobody⟩ | ⟨success, -, back⟩
    · refine .inl ⟨result, fun held => ?_⟩
      obtain ⟨block, was, start⟩ := (isHeld_bank range).mp held
      exact nobody block was start
    · exact .inr ⟨success, back⟩
  unfold sramFree
  split
  · exact bank .inst ‹_›
  · split
    · exact bank .dataA ‹_›
    · split
      · exact bank .dataB ‹_›
      · refine .inl ⟨rfl, ?_⟩
        rintro ⟨bank, holds, -⟩
        cases bank <;> contradiction

theorem allocByFlags_allocates (pid : Int) {size : Nat} (small : size ≤ 2 ^ 32 - 4)
    (flags : LslFlags) : Allocates layout tables (allocByFlags pid size flags tables) := by
  have bank : ∀ bank, Allocates layout tables (bankAlloc bank pid size tables) :=
    fun bank => bankAlloc_allocates sound bank pid small
  unfold allocByFlags
  refine Allocates.orElse (Allocates.orElse ?_ (fun same => ?_) And.left)
    (fun same => ?_) And.left
  · split
    · exact bank .inst
    · exact .inl rfl
  · rw [same]
    exact bank .dataA
  · simp only [same]
    exact bank .dataB

theorem kernelAlloc_allocates (way : KernelAlloc) (pid : Int) {size : Nat}
    (small : size ≤ 2 ^ 32 - 4) : Allocates layout tables (way.run pid size tables) := by
  have bank : ∀ bank, Allocates layout tables (bankAlloc bank pid size tables) :=
    fun bank => bankAlloc_allocates sound bank pid small
  cases way with
  | inst => exact bank .inst
  | dataA => exact bank .dataA
  | dataB => exact bank .dataB
  | data =>
    refine Allocates.orElse (bank .dataA) (fun same => ?_) id
    have tables_eq : (l1DataASramAlloc pid size tables).2 = tables := congrArg Prod.snd same
    rw [tables_eq]
    exact bank .dataB

theorem kernelFree_frees (way : KernelFree) (addr : Nat) :
    Frees layout addr tables (way.run layout addr tables) := by
  cases way with
  | sram =>
    rcases sramFree_frees sound addr with ⟨result, -⟩ | freed
    · exact .inl result
    · exact .inr freed
  | inst => exact bankFree_some sound .inst addr
  | dataA => exact bankFree_some sound .dataA addr
  | dataB => exact bankFree_some sound .dataB addr
  | data =>
    show Frees layout addr tables (if (bankFree .dataA addr tables).1 = -1 then
      bankFree .dataB addr (bankFree .dataA addr tables).2 else bankFree .dataA addr tables)
    rcases bankFree_some sound .dataA addr with result | freed
    · rw [result, if_pos rfl]
      exact bankFree_some sound .dataB addr
    · rw [if_neg (by rw [freed.1]; decide)]
      exact .inr freed

end Bank

end Holders

/-! ### Runs -/

section Runs

variable {Mm : Type} [DecidableEq Mm] {n : Nat} {layout : Layout} {system after : System Mm n}

omit [DecidableEq Mm] in
/-- A block is handed to somebody. -/
theorem Kept.grant (kept : Kept layout system) (owner : Option Mm) {addr : Nat}
    (grants : BankGrants layout addr system.tables after.tables)
    (own : after.held owner = addr :: system.held owner)
    (others : ∀ other, other ≠ owner → after.held other = system.held other) : Kept layout after := by
  have fresh : ∀ other, addr ∉ system.held other := fun other member =>
    grants.fresh (kept.blocks other addr member)
  have members : ∀ {other a}, a ∈ after.held other →
      a ∈ system.held other ∨ (other = owner ∧ a = addr) := by
    intro other a member
    by_cases same : other = owner
    · subst same
      rw [own] at member
      rcases List.mem_cons.mp member with rfl | old
      · exact .inr ⟨rfl, rfl⟩
      · exact .inl old
    · rw [others other same] at member
      exact .inl member
  refine ⟨grants.sound, fun other a member => ?_, fun other => ?_, fun first second a one two => ?_⟩
  · rw [grants.held]
    rcases members member with old | ⟨-, rfl⟩
    · exact .inl (kept.blocks other a old)
    · exact .inr rfl
  · by_cases same : other = owner
    · subst same
      rw [own]
      exact List.nodup_cons.mpr ⟨fresh other, kept.nodup other⟩
    · rw [others other same]
      exact kept.nodup other
  · rcases members one with old | ⟨rfl, rfl⟩
    · rcases members two with also | ⟨rfl, rfl⟩
      · exact kept.apart first second a old also
      · exact absurd old (fresh first)
    · rcases members two with also | ⟨rfl, -⟩
      · exact absurd also (fresh second)
      · rfl

omit [DecidableEq Mm] in
/-- A block is given back by the one who holds it. -/
theorem Kept.takeBack (kept : Kept layout system) (owner : Option Mm) {addr : Nat}
    (holds : addr ∈ system.held owner)
    (back : BankTakesBack layout addr system.tables after.tables)
    (own : after.held owner = (system.held owner).erase addr)
    (others : ∀ other, other ≠ owner → after.held other = system.held other) : Kept layout after := by
  have members : ∀ {other a}, a ∈ after.held other → a ∈ system.held other ∧ a ≠ addr := by
    intro other a member
    by_cases same : other = owner
    · subst same
      rw [own] at member
      exact ((kept.nodup other).mem_erase_iff.mp member).symm
    · rw [others other same] at member
      refine ⟨member, ?_⟩
      rintro rfl
      exact same (kept.apart other owner a member holds)
  refine ⟨back.sound, fun other a member => ?_, fun other => ?_, fun first second a one two => ?_⟩
  · rw [back.held]
    exact ⟨kept.blocks other a (members member).1, (members member).2⟩
  · by_cases same : other = owner
    · subst same
      rw [own]
      exact (kept.nodup other).erase addr
    · rw [others other same]
      exact kept.nodup other
  · exact kept.apart first second a (members one).1 (members two).1

/-- `sram_alloc_with_lsl`: it fails and changes nothing, or it puts a block on the list. -/
theorem sramAllocWithLsl_cases (kept : Kept layout system) (mm : Mm) (pid : Int) (kmalloc : Bool)
    {size : Nat} (small : size ≤ 2 ^ 32 - 4) (flags : LslFlags) :
    sramAllocWithLsl mm pid kmalloc size flags system = (0, system) ∨
    ((sramAllocWithLsl mm pid kmalloc size flags system).1 ≠ 0 ∧
      Kept layout (sramAllocWithLsl mm pid kmalloc size flags system).2) := by
  unfold sramAllocWithLsl
  split
  · exact .inl rfl
  · rcases allocByFlags_allocates kept.sound pid small flags with result | grants
    · refine .inl ?_
      simp only [result, if_true]
    · simp only [if_neg grants.start_ne]
      refine .inr ⟨grants.start_ne, kept.grant (some mm) grants ?_ fun other ne => ?_⟩
      · simp [System.held]
      · cases other with
        | none => rfl
        | some process =>
          have apart : process ≠ mm := fun same => ne (congrArg some same)
          simp [System.held, apart]

/-- `sram_free_with_lsl`: it fails and changes nothing, or it takes a block off the list, and the free
behind it succeeds. -/
theorem sramFreeWithLsl_cases (kept : Kept layout system) (mm : Mm) (addr : Nat) :
    sramFreeWithLsl layout mm addr system = (-1, system) ∨
    ((sramFreeWithLsl layout mm addr system).1 = 0 ∧
      Kept layout (sramFreeWithLsl layout mm addr system).2) := by
  unfold sramFreeWithLsl
  split
  · rename_i found
    have holds : addr ∈ system.held (some mm) := by
      obtain ⟨lsl, member, rfl⟩ := found
      exact List.mem_map_of_mem member
    rcases sramFree_frees kept.sound addr with ⟨-, nobody⟩ | ⟨-, back⟩
    · exact absurd (kept.blocks _ addr holds) nobody
    · refine .inr ⟨rfl, kept.takeBack (some mm) holds back ?_ fun other ne => ?_⟩
      · simp only [System.held, Function.update_self, List.erase_eq_eraseP, List.eraseP_map]
        congr 2
        funext lsl
        rw [Function.comp_apply, Bool.beq_eq_decide_eq, decide_eq_decide]
        exact eq_comm
      · cases other with
        | none => rfl
        | some process =>
          have apart : process ≠ mm := fun same => ne (congrArg some same)
          simp [System.held, apart]
  · exact .inl rfl

/-- **One call.** -/
theorem Kept.step (kept : Kept layout system) {request : Request Mm}
    (allowed : request.Allowed system) : Kept layout (request.step layout system) := by
  cases request with
  | allocWithLsl mm pid kmalloc size flags =>
    show Kept layout (sramAllocWithLsl mm pid kmalloc size flags system).2
    rcases sramAllocWithLsl_cases kept mm pid kmalloc allowed flags with result | ⟨-, also⟩
    · rw [result]
      exact kept
    · exact also
  | freeWithLsl mm addr =>
    show Kept layout (sramFreeWithLsl layout mm addr system).2
    rcases sramFreeWithLsl_cases kept mm addr with result | ⟨-, also⟩
    · rw [result]
      exact kept
    · exact also
  | kernelAlloc way pid size =>
    unfold Request.step
    rcases kernelAlloc_allocates kept.sound way pid allowed with result | grants
    · simp only [result, if_true]
      exact kept
    · simp only [if_neg grants.start_ne]
      refine kept.grant none grants rfl fun other ne => ?_
      cases other with
      | none => exact absurd rfl ne
      | some process => rfl
  | kernelFree way addr =>
    unfold Request.step
    rcases kernelFree_frees kept.sound way addr with result | ⟨success, back⟩
    · simp only [result]
      exact kept
    · simp only [success, if_true]
      refine kept.takeBack none allowed back rfl fun other ne => ?_
      cases other with
      | none => exact absurd rfl ne
      | some process => rfl

omit [DecidableEq Mm] in
theorem initialSystem_kept (Mm : Type) (n : Nat) (layout : Layout) :
    Kept layout (initialSystem Mm n layout) := by
  have empty : ∀ owner, (initialSystem Mm n layout).held owner = [] := by
    intro owner
    cases owner <;> rfl
  refine ⟨fun bank => initialTable_sound n (layout.pool bank), fun owner addr member => ?_,
    fun owner => ?_, fun owner other addr member => ?_⟩
  · rw [empty] at member
    exact absurd member List.not_mem_nil
  · rw [empty]
    exact List.nodup_nil
  · rw [empty] at member
    exact absurd member List.not_mem_nil

/-- **Every run.** -/
theorem Run.kept (run : Run layout system after) (kept : Kept layout system) : Kept layout after := by
  induction run with
  | refl => exact kept
  | step run request allowed ih => exact ih.step allowed

/-- **The lists of the processes account for their blocks.** In every run: an address on a list is that
of an ALLOCATED piece of the bank `sram_free` finds for it; no address is on the lists twice; the free
behind `sram_free_with_lsl` succeeds; and a call that returns `NULL` or -1 leaves lists and banks
alone. -/
theorem lists_account (layout : Layout) {system : System Mm (n + 1)}
    (run : Run layout (initialSystem Mm n layout) system) :
    (∀ mm, ∀ lsl ∈ system.sramList mm, ∃ bank, (layout.range bank).Holds lsl.addr ∧
      ∃ block, IsBlock (system.tables bank) block ∧ block.start = lsl.addr) ∧
    (∀ mm, ((system.sramList mm).map SramListStruct.addr).Nodup) ∧
    (∀ mm other, ∀ lsl ∈ system.sramList mm, ∀ also ∈ system.sramList other,
      lsl.addr = also.addr → mm = other) ∧
    (∀ mm, ∀ lsl ∈ system.sramList mm, (sramFree layout lsl.addr system.tables).1 = 0) ∧
    (∀ mm pid kmalloc size flags, 1 ≤ size → size ≤ 2 ^ 32 - 4 →
      (sramAllocWithLsl mm pid kmalloc size flags system).1 = 0 →
      (sramAllocWithLsl mm pid kmalloc size flags system).2 = system) ∧
    (∀ mm addr, (sramFreeWithLsl layout mm addr system).1 = -1 →
      (sramFreeWithLsl layout mm addr system).2 = system) := by
  have kept := run.kept (initialSystem_kept Mm n layout)
  have holds : ∀ {mm lsl}, lsl ∈ system.sramList mm → lsl.addr ∈ system.held (some mm) :=
    fun member => List.mem_map_of_mem member
  refine ⟨fun mm lsl member => kept.blocks _ _ (holds member), fun mm => kept.nodup (some mm),
    fun mm other lsl one also two same => ?_, fun mm lsl member => ?_,
    fun mm pid kmalloc size flags _ small failed => ?_, fun mm addr failed => ?_⟩
  · have second := holds two
    rw [← same] at second
    exact Option.some.inj (kept.apart _ _ _ (holds one) second)
  · rcases sramFree_frees kept.sound lsl.addr with ⟨-, nobody⟩ | ⟨success, -⟩
    · exact absurd (kept.blocks _ _ (holds member)) nobody
    · exact success
  · rcases sramAllocWithLsl_cases kept mm pid kmalloc small flags with result | ⟨success, -⟩
    · rw [result]
    · exact absurd failed success
  · rcases sramFreeWithLsl_cases kept mm addr with result | ⟨success, -⟩
    · rw [result]
    · rw [success] at failed
      exact absurd failed (by decide)

end Runs

/-! ### Two processes -/

/-- Where the pools of three small banks start. -/
def smallStart : Bank → Nat
  | .inst => 0x1010
  | .dataA => 0x2010
  | .dataB => 0x3010

theorem smallStart_low (bank : Bank) : 0 < smallStart bank := by
  cases bank <;> decide

theorem smallStart_high (bank : Bank) : smallStart bank + 48 ≤ 2 ^ 32 := by
  cases bank <;> decide

theorem smallBank_pos : 0 < 48 := by decide

theorem smallBank_int : 48 < 2 ^ 31 := by decide

/-- A pool of 48 bytes. -/
def smallBank (bank : Bank) : Region :=
  ⟨⟨smallStart bank, 48⟩, smallStart_low bank, smallBank_pos, smallBank_int, smallStart_high bank⟩

/-- A bank of 64 bytes. -/
def smallRange (bank : Bank) : Span := ⟨smallStart bank - 16, 64⟩

theorem smallBank_inside (bank : Bank) : (smallRange bank).start ≤ (smallBank bank).start ∧
    (smallBank bank).start + (smallBank bank).length ≤
      (smallRange bank).start + (smallRange bank).length := by
  cases bank <;> decide

theorem smallRange_apart (first second : Bank) (address : Nat) (here : (smallRange first).Holds address)
    (there : (smallRange second).Holds address) : first = second := by
  revert here there
  cases first <;> cases second <;> simp [Span.Holds, smallRange, smallStart] <;> omega

/-- Three banks of 64 bytes, the first 16 of each in use. -/
def smallLayout : Layout := ⟨smallRange, smallBank, smallBank_inside, smallRange_apart⟩

/-- A process takes all of data A and falls back to data B for its next block; the kernel has a block of
data B too. -/
theorem lists_account_small : ∃ system : System Nat 3,
    Run smallLayout (initialSystem Nat 2 smallLayout) system ∧
    system.sramList 0 = [⟨0x3010, 8⟩, ⟨0x2010, 48⟩] ∧ system.kernel = [0x3018] ∧
    (sramFree smallLayout 0x3010 system.tables).1 = 0 := by
  have start : Run smallLayout (initialSystem Nat 2 smallLayout) (initialSystem Nat 2 smallLayout) :=
    .refl _
  have first := start.step (.allocWithLsl 0 7 true 48 ⟨false, true, true⟩) (by simp [Request.Allowed])
  have second := first.step (.allocWithLsl 0 7 true 8 ⟨false, true, true⟩) (by simp [Request.Allowed])
  have run := second.step (.kernelAlloc .data 0 4) (by simp [Request.Allowed])
  exact ⟨_, run, by decide, by decide,
    (lists_account smallLayout run).2.2.2.1 0 ⟨0x3010, 8⟩ (by decide)⟩

end Baps.Sram
