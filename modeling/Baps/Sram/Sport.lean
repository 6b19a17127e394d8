/-
**SPORT start-up: two DMA buffers from the data A bank.**

`bfsi_sport_init` takes two buffers from L1, programs the DMA channels of the serial port with them,
enables the channels and then asks for the interrupt. Neither allocation is checked, and nothing is
undone when the interrupt is refused.

* `sport_owns_iff` — **when start-up owns its buffers or changes nothing**: only if the interrupt is
  granted and the pool has room for both buffers before the call.
-/

import Baps.Sram.Pool

namespace Baps.Sram

open Memory

/-! ### The registers -/

/-- The registers of a DMA channel. -/
structure Dma where
  peripheralMap : UInt16
  irqStatus : UInt16
  startAddr : Nat
  xCount : Nat
  xModify : Nat
  yModify : Nat
  yCount : Nat
  config : UInt16

/-- The builds: `CONFIG_BF533` or `CONFIG_BF532` with SPORT0, and `CONFIG_BF537` with SPORT1. -/
inductive Build
  | bf533
  | bf537
  deriving DecidableEq, Repr

/-- The DMA channel that receives. -/
def Build.rx : Build → Nat
  | .bf533 => 1
  | .bf537 => 5

/-- The DMA channel that transmits. -/
def Build.tx (build : Build) : Nat := build.rx + 1

/-- The bit of the receive interrupt in `SIC_IMASK`. -/
def Build.irqBit : Build → UInt32
  | .bf533 => 0x200
  | .bf537 => 0x80

/-- The driver's variables, the data A bank, and the registers it programs. -/
structure Sport (n : Nat) where
  table : Table n
  iRxBuffer1 : Nat
  iTxBuffer1 : Nat
  samplesPerChunk : Nat
  internalclock : Bool
  initOk : Bool
  irq : Bool
  dma : Nat → Dma
  tcr1 : UInt16
  rcr1 : UInt16
  sicImask : UInt32

section Code

variable {n : Nat} (build : Build)

/-- Program a channel. -/
def Sport.setDma (sport : Sport n) (channel : Nat) (change : Dma → Dma) : Sport n :=
  { sport with dma := Function.update sport.dma channel (change (sport.dma channel)) }

/-- `init_sport0` or `init_sport1`: the control registers, `IRFS` and `IRCLK`. -/
def initSport (sport : Sport n) : Sport n :=
  { sport with tcr1 := 0, rcr1 := if sport.internalclock then 0x202 else 0x200 }

/-- `2*samples_per_chunk*8`, as a `size_t`. -/
def Sport.bufferSize (sport : Sport n) : Nat := 2 * sport.samplesPerChunk * 8 % 2 ^ 32

/-- The counts of a channel: two lines of `samples_per_chunk*8` bytes from a buffer. -/
def Dma.buffer (buffer samples : Nat) (dma : Dma) : Dma :=
  { dma with
    startAddr := buffer, xCount := samples * 8 % 2 ^ 16, xModify := 1, yModify := 1, yCount := 2 }

/-- `init_dma_wc`, up to the transmit buffer: the receive buffer, and both configurations. -/
def initDmaRx (pid : Int) (sport : Sport n) : Sport n :=
  let sport := sport.setDma build.rx fun dma => { dma with
    peripheralMap := UInt16.ofNat (0x1000 * build.rx), irqStatus := dma.irqStatus ||| 2 }
  let result := l1SramAlloc pid sport.bufferSize sport.table
  let sport := { sport with iRxBuffer1 := result.1, table := result.2 }
  let sport := sport.setDma build.rx fun dma =>
    { dma.buffer sport.iRxBuffer1 sport.samplesPerChunk with config := 0x10d2 }
  sport.setDma build.tx fun dma =>
    { dma with peripheralMap := UInt16.ofNat (0x1000 * build.tx), config := 0x1010 }

/-- `init_dma_wc`, the transmit buffer. -/
def initDmaTx (pid : Int) (sport : Sport n) : Sport n :=
  let result := l1SramAlloc pid sport.bufferSize sport.table
  let sport := { sport with iTxBuffer1 := result.1, table := result.2 }
  sport.setDma build.tx fun dma => dma.buffer sport.iTxBuffer1 sport.samplesPerChunk

/-- `DMAEN`. -/
def dmaEn : UInt16 := 1

/-- `enable_dma_sport`. -/
def enableDmaSport (sport : Sport n) : Sport n :=
  let sport := sport.setDma build.tx fun dma => { dma with config := dma.config ||| dmaEn }
  let sport := sport.setDma build.rx fun dma => { dma with config := dma.config ||| dmaEn }
  { sport with tcr1 := sport.tcr1 ||| 1, rcr1 := sport.rcr1 ||| 1 }

/-- `init_sport_interrupts`: `-EBUSY` if `request_irq` refuses. -/
def initSportInterrupts (granted : Bool) (sport : Sport n) : Int × Sport n :=
  if ¬ granted then (-16, sport)
  else (0, { sport with irq := true, sicImask := sport.sicImask ||| build.irqBit })

/-- `bfsi_sport_init`. -/
def bfsiSportInit (pid : Int) (granted : Bool) (samples : Nat) (sport : Sport n) : Int × Sport n :=
  let sport := initSport { sport with samplesPerChunk := samples }
  let sport := enableDmaSport build (initDmaTx build pid (initDmaRx build pid sport))
  let result := initSportInterrupts build granted sport
  if result.1 ≠ 0 then (0, { result.2 with initOk := false })
  else (1, { result.2 with initOk := true })

/-- `disable_sport`. -/
def disableSport (sport : Sport n) : Sport n :=
  let sport := { sport with tcr1 := sport.tcr1 &&& ~~~1, rcr1 := sport.rcr1 &&& ~~~1 }
  let sport := sport.setDma build.tx fun dma => { dma with config := dma.config &&& ~~~dmaEn }
  let sport := sport.setDma build.rx fun dma => { dma with config := dma.config &&& ~~~dmaEn }
  { sport with sicImask := sport.sicImask &&& ~~~build.irqBit }

/-- `bfsi_sport_close`. -/
def bfsiSportClose (sport : Sport n) : Sport n :=
  let sport := disableSport build sport
  let sport := if sport.initOk then { sport with irq := false } else sport
  let sport := { sport with table := (l1SramFree sport.iTxBuffer1 sport.table).2 }
  { sport with table := (l1SramFree sport.iRxBuffer1 sport.table).2 }

end Code

/-! ### What start-up leaves behind -/

section Results

variable {n : Nat} (build : Build) (pid : Int) (granted : Bool) (samples : Nat) (sport : Sport n)

theorem Build.rx_ne_tx : build.rx ≠ build.tx := by
  cases build <;> decide

/-- The bank after the first buffer, and its address. -/
def firstBuffer : Nat × Table n := l1SramAlloc pid (2 * samples * 8 % 2 ^ 32) sport.table

/-- The bank after the second. -/
def secondBuffer : Nat × Table n :=
  l1SramAlloc pid (2 * samples * 8 % 2 ^ 32) (firstBuffer pid samples sport).2

/-- The driver when start-up ends. -/
structure Started (result : Int × Sport n) : Prop where
  ret : result.1 = if granted then 1 else 0
  table : result.2.table = (secondBuffer pid samples sport).2
  rx : result.2.iRxBuffer1 = (firstBuffer pid samples sport).1
  tx : result.2.iTxBuffer1 = (secondBuffer pid samples sport).1
  rxStart : (result.2.dma build.rx).startAddr = result.2.iRxBuffer1
  txStart : (result.2.dma build.tx).startAddr = result.2.iTxBuffer1
  enabled : (result.2.dma build.rx).config &&& dmaEn ≠ 0

theorem bfsiSportInit_started :
    Started build pid granted samples sport (bfsiSportInit build pid granted samples sport) := by
  have ne := build.rx_ne_tx
  cases granted
  all_goals
    refine ⟨rfl, rfl, rfl, rfl, ?_, ?_, ?_⟩
    · simp [bfsiSportInit, initSport, initDmaRx, initDmaTx, enableDmaSport, initSportInterrupts,
        Sport.setDma, Dma.buffer, ne]
    · simp [bfsiSportInit, initSport, initDmaRx, initDmaTx, enableDmaSport, initSportInterrupts,
        Sport.setDma, Dma.buffer, ne.symm]
    · simp [bfsiSportInit, initSport, initDmaRx, initDmaTx, enableDmaSport, initSportInterrupts,
        Sport.setDma, ne, dmaEn]
      decide

/-- The bank when the port is closed. -/
theorem bfsiSportClose_table : (bfsiSportClose build sport).table =
    (l1SramFree sport.iRxBuffer1 (l1SramFree sport.iTxBuffer1 sport.table).2).2 := by
  simp only [bfsiSportClose]
  split
  · rfl
  · rfl

end Results

/-! ### Room for two buffers -/

/-- A FREE piece of a size. -/
def Fits {n : Nat} (table : Table n) (size : Nat) (i : Fin n) : Prop :=
  (table i).flag = .free ∧ size ≤ (table i).size

/-- Two buffers of a size can be allocated one after the other: from two FREE pieces, or from one and
its rest, which needs a NULL slot. -/
def Room {n : Nat} (table : Table n) (size : Nat) : Prop :=
  (∃ i j, i ≠ j ∧ Fits table size i ∧ Fits table size j) ∨
  (∃ i, Fits table (2 * size) i) ∧ ∃ j, (table j).flag = .null

section Rooms

variable {n : Nat} {pool : Region} {table : Table n} {size : Nat} {i j k : Fin n}

theorem align_multiple (small : size ≤ 2 ^ 32 - 4) (multiple : size % 4 = 0) : align size = size := by
  unfold align
  omega

/-- Room beside a piece, or in it. -/
theorem room_beside (fits : Fits table size i) : Room table size ↔
    (∃ k, k ≠ i ∧ Fits table size k) ∨
      2 * size ≤ (table i).size ∧ ∃ j, (table j).flag = .null := by
  constructor
  · rintro (⟨k, l, ne, first, second⟩ | ⟨⟨k, free, double⟩, null⟩)
    · by_cases same : k = i
      · exact .inl ⟨l, fun equal => ne (same.trans equal.symm), second⟩
      · exact .inl ⟨k, same, first⟩
    · by_cases same : k = i
      · subst same
        exact .inr ⟨double, null⟩
      · exact .inl ⟨k, same, free, by omega⟩
  · rintro (⟨k, ne, second⟩ | ⟨double, null⟩)
    · exact .inl ⟨k, i, ne, second, fits⟩
    · exact .inr ⟨⟨i, fits.1, double⟩, null⟩

/-- The pieces that fit once a slot has become a block. -/
theorem fits_update {piece : Piece} (allocated : piece.flag = .allocated) :
    (∃ k, Fits (Function.update table i piece) size k) ↔ ∃ k, k ≠ i ∧ Fits table size k := by
  constructor
  · rintro ⟨k, free, large⟩
    have ne : k ≠ i := by
      rintro rfl
      simp [allocated] at free
    rw [Function.update_of_ne ne] at free large
    exact ⟨k, ne, free, large⟩
  · rintro ⟨k, ne, free, large⟩
    refine ⟨k, ?_, ?_⟩
    · rw [Function.update_of_ne ne, free]
    · rw [Function.update_of_ne ne]
      exact large

/-- The pieces that fit once a NULL slot has become a FREE piece. -/
theorem fits_fill {piece : Piece} (null : (table j).flag = .null) (free : piece.flag = .free)
    (ne : j ≠ i) :
    (∃ k, k ≠ i ∧ Fits (Function.update table j piece) size k) ↔
      (∃ k, k ≠ i ∧ Fits table size k) ∨ size ≤ piece.size := by
  constructor
  · rintro ⟨k, k_ne, free_k, large⟩
    by_cases same : k = j
    · subst same
      rw [Function.update_self] at large
      exact .inr large
    · rw [Function.update_of_ne same] at free_k large
      exact .inl ⟨k, k_ne, free_k, large⟩
  · rintro (⟨k, k_ne, free_k, large⟩ | large)
    · have other : k ≠ j := by
        rintro rfl
        exact Flag.live_of_free free_k null
      refine ⟨k, k_ne, ?_, ?_⟩
      · rw [Function.update_of_ne other, free_k]
      · rw [Function.update_of_ne other]
        exact large
    · refine ⟨j, ne, ?_, ?_⟩
      · rw [Function.update_self, free]
      · rw [Function.update_self]
        exact large

/-- A request is served if and only if a FREE piece has the size. -/
theorem Sound.served_iff (sound : Sound pool table) (pid : Int) (positive : 0 < size)
    (small : size ≤ 2 ^ 32 - 4) (multiple : size % 4 = 0) :
    (l1SramAlloc pid size table).1 ≠ 0 ↔ ∃ i, Fits table size i := by
  have rounded := align_multiple small multiple
  rcases alloc_cases pid positive table with ⟨result, nothing⟩ | ⟨i, free, large, whole | ⟨j, -, -, cut⟩⟩
  · rw [result]
    refine iff_of_false (fun ne => ne rfl) ?_
    rintro ⟨i, free, large⟩
    have short := nothing i free
    omega
  · rw [whole.1]
    exact iff_of_true (sound.start_ne (Flag.live_of_free free)) ⟨i, free, by omega⟩
  · rw [cut.2]
    exact iff_of_true (sound.start_ne (Flag.live_of_free free)) ⟨i, free, by omega⟩

theorem Sound.afterAlloc (sound : Sound pool table) (pid : Int) (small : size ≤ 2 ^ 32 - 4) :
    Sound pool (l1SramAlloc pid size table).2 := by
  rcases Nat.eq_zero_or_pos size with rfl | positive
  · exact sound
  · rcases sound.alloc pid positive small with ⟨result, -⟩ | ⟨block, -, -, grants⟩
    · rw [result]
      exact sound
    · exact grants.sound

/-- **Two requests in a row**: the second finds another piece, or the rest of the one the first has
cut. -/
theorem Sound.room_iff (sound : Sound pool table) (pid : Int) (positive : 0 < size)
    (small : size ≤ 2 ^ 32 - 4) (multiple : size % 4 = 0) :
    ((l1SramAlloc pid size table).1 ≠ 0 ∧
      (l1SramAlloc pid size (l1SramAlloc pid size table).2).1 ≠ 0) ↔ Room table size := by
  have rounded := align_multiple small multiple
  rw [sound.served_iff pid positive small multiple,
    (sound.afterAlloc pid small).served_iff pid positive small multiple]
  rcases alloc_cases pid positive table with ⟨-, nothing⟩ | ⟨i, free, large, whole | ⟨j, null, -, cut⟩⟩
  · have none : ∀ i, ¬ Fits table size i := by
      rintro i ⟨free, large⟩
      have short := nothing i free
      omega
    refine iff_of_false (fun served => none _ served.1.choose_spec) ?_
    rintro (⟨i, -, -, fits, -⟩ | ⟨⟨i, free, double⟩, -⟩)
    · exact none i fits
    · exact none i ⟨free, by omega⟩
  · obtain ⟨result, full⟩ := whole
    have fits : Fits table size i := ⟨free, by omega⟩
    have tight : ¬ (2 * size ≤ (table i).size ∧ ∃ j, (table j).flag = .null) := by
      rintro ⟨double, j, null⟩
      rcases full with same | full
      · omega
      · exact full j null
    rw [result, room_beside fits, fits_update rfl, or_iff_left tight]
    exact and_iff_right ⟨i, fits⟩
  · obtain ⟨less, result⟩ := cut
    have fits : Fits table size i := ⟨free, by omega⟩
    have ne : j ≠ i := by
      rintro rfl
      exact Flag.live_of_free free null
    rw [result, room_beside fits, fits_update rfl, fits_fill null rfl ne, and_iff_right ⟨i, fits⟩]
    refine or_congr_right ⟨fun rest => ⟨by simp only at rest; omega, j, null⟩, fun double => ?_⟩
    simp only
    omega

end Rooms

/-! ### Start-up -/

/-- Start-up owns its DMA buffers or changes nothing. -/
structure Owned {n : Nat} (build : Build) (samples : Nat) (before : Sport n)
    (result : Int × Sport n) : Prop where
  owns : result.1 = 1 → ∃ rx tx, IsBlock result.2.table rx ∧ IsBlock result.2.table tx ∧
    rx.start = result.2.iRxBuffer1 ∧ tx.start = result.2.iTxBuffer1 ∧
    rx ≠ tx ∧ (∀ address, ¬ (rx.Holds address ∧ tx.Holds address)) ∧
    16 * samples ≤ rx.length ∧ 16 * samples ≤ tx.length ∧
    (result.2.dma build.rx).startAddr = rx.start ∧ (result.2.dma build.tx).startAddr = tx.start
  undone : result.1 = 0 → (∀ block, IsBlock result.2.table block ↔ IsBlock before.table block) ∧
    (result.2.dma build.rx).config &&& dmaEn = 0 ∧ (result.2.dma build.tx).config &&& dmaEn = 0
  closed : result.1 = 1 → ∀ block,
    IsBlock (bfsiSportClose build result.2).table block ↔ IsBlock before.table block

section Startup

variable {n : Nat} {pool : Region} {build : Build} {pid : Int} {samples : Nat} {sport : Sport n}

/-- Freeing a block takes it back. -/
theorem Sound.free_block {table : Table n} {block : Span} (sound : Sound pool table)
    (was : IsBlock table block) : TakesBack pool block table (l1SramFree block.start table).2 := by
  rcases sound.free block.start with ⟨-, nobody⟩ | ⟨other, start, -, back⟩
  · exact absurd rfl (nobody block was)
  · obtain rfl := sound.block_inj was back.was start.symm
    exact back

/-- The blocks without the one that was granted. -/
theorem Grants.cancel {table after : Table n} {block : Span} (grants : Grants pool block table after)
    (other : Span) : IsBlock after other ∧ other ≠ block ↔ IsBlock table other := by
  rw [grants.blocks]
  constructor
  · rintro ⟨was | same, ne⟩
    · exact was
    · exact absurd same ne
  · intro was
    exact ⟨.inl was, fun same => grants.fresh other was (congrArg Span.start same)⟩

/-- Blocks at different addresses share none. -/
theorem Sound.blocks_apart {table : Table n} {rx tx : Span} (sound : Sound pool table)
    (first : IsBlock table rx) (second : IsBlock table tx) (ne : rx ≠ tx) (address : Nat) :
    ¬ (rx.Holds address ∧ tx.Holds address) := by
  rintro ⟨inside, also⟩
  obtain ⟨i, flag_i, rfl⟩ := first
  obtain ⟨j, flag_j, rfl⟩ := second
  refine ne ?_
  obtain rfl := sound.tiles.unique i j _ _ address (pieces_live (Flag.live_of_allocated flag_i))
    (pieces_live (Flag.live_of_allocated flag_j)) inside also
  rfl

/-- With room and the interrupt, start-up owns its buffers and closing gives them back. -/
theorem owned_of_room (sound : Sound pool sport.table) (positive : 0 < samples)
    (room : Room sport.table (16 * samples)) :
    Owned build samples sport (bfsiSportInit build pid true samples sport) := by
  have int := pool.length_int
  have small : 16 * samples < 2 ^ 31 := by
    have short : ∀ {i}, Fits sport.table (16 * samples) i → 16 * samples < 2 ^ 31 := by
      rintro i ⟨free, large⟩
      have inside := inPool_of_tiles sound.tiles (Flag.live_of_free free)
      have low := inside.low
      have high := inside.high
      omega
    rcases room with ⟨i, -, -, fits, -⟩ | ⟨⟨i, free, double⟩, -⟩
    · exact short fits
    · exact short ⟨free, Nat.le_trans (by omega) double⟩
  have size : 2 * samples * 8 % 2 ^ 32 = 16 * samples := by omega
  have served := (sound.room_iff pid (by omega) (by omega) (by omega)).mpr room
  have started := bfsiSportInit_started build pid true samples sport
  obtain ⟨ret, table, rxIs, txIs, rxStart, txStart, -⟩ := started
  unfold firstBuffer at rxIs
  unfold secondBuffer firstBuffer at table txIs
  rw [size] at table rxIs txIs
  have bytes : 0 < 16 * samples := by omega
  have fit : 16 * samples ≤ 2 ^ 32 - 4 := by omega
  rcases sound.alloc pid bytes fit with
    ⟨result, -⟩ | ⟨rx, start, large, grants⟩
  · rw [result] at served
    exact absurd rfl served.1
  rcases grants.sound.alloc pid bytes fit with
    ⟨result, -⟩ | ⟨tx, start', large', grants'⟩
  · rw [result] at served
    exact absurd rfl served.2
  rw [start] at rxIs
  rw [start'] at txIs
  rw [← table] at grants'
  have rxBlock := (grants'.blocks rx).mpr (.inl ((grants.blocks rx).mpr (.inr rfl)))
  have txBlock := (grants'.blocks tx).mpr (.inr rfl)
  have ne : rx ≠ tx := fun same =>
    grants'.fresh rx ((grants.blocks rx).mpr (.inr rfl)) (congrArg Span.start same)
  refine ⟨fun _ => ⟨rx, tx, rxBlock, txBlock, rxIs.symm, txIs.symm, ne,
    grants'.sound.blocks_apart rxBlock txBlock ne, large, large', rxStart.trans rxIs,
    txStart.trans txIs⟩, fun zero => ?_, fun _ block => ?_⟩
  · rw [ret] at zero
    cases zero
  · rw [bfsiSportClose_table, rxIs, txIs]
    have first := grants'.sound.free_block txBlock
    have second := first.sound.free_block ((first.blocks rx).mpr ⟨rxBlock, ne⟩)
    rw [second.blocks, first.blocks, grants'.cancel, grants.cancel]

/-- Start-up that owns its buffers had room for them. -/
theorem room_of_owned (sound : Sound pool sport.table) (positive : 0 < samples)
    (owned : Owned build samples sport (bfsiSportInit build pid true samples sport)) :
    Room sport.table (16 * samples) := by
  have int := pool.length_int
  have started := bfsiSportInit_started build pid true samples sport
  obtain ⟨rx, tx, rxBlock, txBlock, rxStart, txStart, -, -, large, -⟩ := owned.owns started.ret
  have fit : 2 * samples * 8 % 2 ^ 32 ≤ 2 ^ 32 - 4 := by omega
  have second := (sound.afterAlloc pid fit).afterAlloc pid fit
  rw [started.table] at rxBlock txBlock
  obtain ⟨i, flag_i, rfl⟩ := rxBlock
  obtain ⟨j, flag_j, rfl⟩ := txBlock
  have inside := inPool_of_tiles second.tiles (Flag.live_of_allocated flag_i)
  have low := inside.low
  have high := inside.high
  have size : 2 * samples * 8 % 2 ^ 32 = 16 * samples := by
    simp only at large
    unfold secondBuffer firstBuffer at large
    omega
  have rxNe := second.start_ne (Flag.live_of_allocated flag_i)
  have txNe := second.start_ne (Flag.live_of_allocated flag_j)
  rw [size] at rxNe txNe
  refine (sound.room_iff pid (by omega) (by omega) (by omega)).mp ⟨?_, ?_⟩
  · have address := rxStart.trans started.rx
    unfold secondBuffer firstBuffer at address
    rw [size] at address
    rw [← address]
    exact rxNe
  · have address := txStart.trans started.tx
    unfold secondBuffer firstBuffer at address
    rw [size] at address
    rw [← address]
    exact txNe

/-- **When start-up owns its buffers or changes nothing**: if and only if the interrupt is granted and
the bank has room for both buffers. -/
theorem owned_iff (sound : Sound pool sport.table) (positive : 0 < samples) (granted : Bool) :
    Owned build samples sport (bfsiSportInit build pid granted samples sport) ↔
      granted = true ∧ Room sport.table (16 * samples) := by
  cases granted with
  | false =>
    have started := bfsiSportInit_started build pid false samples sport
    refine iff_of_false (fun owned => ?_) (fun granted => Bool.false_ne_true granted.1)
    exact started.enabled (owned.undone started.ret).2.1
  | true =>
    rw [and_iff_right rfl]
    exact ⟨room_of_owned sound positive, owned_of_room sound positive⟩

end Startup

/-- **Start-up over every pool in use**: after any calls of the allocator, `bfsi_sport_init` owns its
buffers or changes nothing if and only if `request_irq` succeeds and the data A bank has room for two
buffers of `16 * samples` bytes. -/
theorem sport_owns_iff (n : Nat) (pool : Region) (calls : List Call)
    (allowed : ∀ call ∈ calls, call.Allowed) (build : Build) (sport : Sport (n + 1))
    (reached : sport.table = (runCalls calls (initialPool n pool)).table)
    (pid : Int) (granted : Bool) (samples : Nat) (positive : 0 < samples) :
    Owned build samples sport (bfsiSportInit build pid granted samples sport) ↔
      granted = true ∧ Room sport.table (16 * samples) := by
  have sound := (runCalls_accounts (initialPool_accounts n pool) allowed).sound
  rw [← reached] at sound
  exact owned_iff sound positive granted

/-! ### A small bank -/

/-- The driver before start-up, with a fresh bank of 64 bytes. -/
def smallSport : Sport 3 :=
  ⟨initialTable 2 smallPool, 0, 0, 0, false, false, false, fun _ => ⟨0, 0, 0, 0, 0, 0, 0, 0⟩, 0, 0, 0⟩

/-- Two samples fit. -/
theorem sport_owns_two :
    Owned .bf533 2 smallSport (bfsiSportInit .bf533 1 true 2 smallSport) :=
  (sport_owns_iff 2 smallPool [] (by simp) .bf533 smallSport rfl 1 true 2 (by decide)).mpr
    ⟨rfl, .inr ⟨⟨0, by decide, by decide⟩, 1, by decide⟩⟩

/-- Three do not: start-up reports success, and the transmit channel is enabled at address 0. And if the
interrupt is refused both blocks stay allocated and the channels enabled. -/
theorem sport_null_buffer :
    ((bfsiSportInit .bf533 1 true 3 smallSport).1 = 1 ∧
      ((bfsiSportInit .bf533 1 true 3 smallSport).2.dma 2).startAddr = 0 ∧
      ((bfsiSportInit .bf533 1 true 3 smallSport).2.dma 2).config &&& dmaEn = 1 ∧
      ¬ Owned .bf533 3 smallSport (bfsiSportInit .bf533 1 true 3 smallSport)) ∧
    (bfsiSportInit .bf533 1 false 2 smallSport).1 = 0 ∧
      ((bfsiSportInit .bf533 1 false 2 smallSport).2.dma 1).config &&& dmaEn = 1 ∧
      ¬ Owned .bf533 2 smallSport (bfsiSportInit .bf533 1 false 2 smallSport) := by
  refine ⟨⟨by decide, by decide, by decide, fun owned => ?_⟩, by decide, by decide, fun owned => ?_⟩
  · obtain ⟨rx, tx, -, ⟨i, flag, rfl⟩, -, start, -⟩ := owned.owns (by decide)
    revert i
    decide
  · exact absurd (owned.undone (by decide)).2.1 (by decide)

end Baps.Sram
