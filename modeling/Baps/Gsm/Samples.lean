/-
**The samples of the TDM frame: what the interrupt copies while the cards are being initialised.**

The interrupt runs from `bfsi_sport_init` on. Until initialisation is over it only copies samples:
`wcfxs_transmitprep` stores those of every published card into the transmit chunk, at the card's time
slot, and `wcfxs_receiveprep` loads them from the receive chunk.

* `inside_iff` — **when every index lies in the chunk**: only while no FXO or FXS card is installed,
  since both are published before their slot is known. The GSM module is given its slot first.
-/

import Baps.Gsm.Slots
import Baps.Memory.Scatter
import Mathlib.Data.List.Basic

namespace Baps.Gsm

open Interaction Wcfxs

/-! ### The interrupt -/

/-- The copies of the two loops, in their order: for each of the `ZT_CHUNKSIZE` samples the published
cards from the last to the first, with the index into the chunk. -/
def sampleCopies (cell : Cell → Int) : List (Nat × Card × Int) :=
  (List.range 8).flatMap fun x => (List.finRange 8).reverse.filterMap fun card =>
    if cell (.cardflag card) ≠ 0 then some (x, card, 8 * (x : Int) + cell (.slot card)) else none

/-- `wcfxs_transmitprep` on the memory around the chunk, which starts at address 0. -/
def wcfxsTransmitprep (cell : Cell → Int) (writechunk : Card → Nat → UInt8) (memory : Int → UInt8) :
    Int → UInt8 :=
  (sampleCopies cell).foldl (fun memory copy =>
    Function.update memory copy.2.2 (writechunk copy.2.1 copy.1)) memory

/-- `wcfxs_receiveprep`: the samples of every channel. -/
def wcfxsReceiveprep (cell : Cell → Int) (memory : Int → UInt8) (readchunk : Card × Nat → UInt8) :
    Card × Nat → UInt8 :=
  (sampleCopies cell).foldl (fun readchunk copy =>
    Function.update readchunk (copy.2.1, copy.1) (memory copy.2.2)) readchunk

theorem transmitprep_eq (cell : Cell → Int) (writechunk : Card → Nat → UInt8) (memory : Int → UInt8) :
    wcfxsTransmitprep cell writechunk memory = Memory.scatter (fun copy => copy.2.2)
      (fun copy => writechunk copy.2.1 copy.1) (sampleCopies cell) memory :=
  rfl

theorem receiveprep_eq (cell : Cell → Int) (memory : Int → UInt8) (readchunk : Card × Nat → UInt8) :
    wcfxsReceiveprep cell memory readchunk = Memory.scatter (fun copy => (copy.2.1, copy.1))
      (fun copy => memory copy.2.2) (sampleCopies cell) readchunk :=
  rfl

/-- Every published card has a slot of the frame, and every index lies in the chunk. -/
structure Inside {σ : Type} (point : World σ) : Prop where
  slots : ∀ x, point.cell (.cardflag x) ≠ 0 →
    0 ≤ point.cell (.slot x) ∧ point.cell (.slot x) ≤ 7
  indices : ∀ copy ∈ sampleCopies point.cell, 0 ≤ copy.2.2 ∧ copy.2.2 ≤ 63

theorem mem_sampleCopies {cell : Cell → Int} {x : Nat} {card : Card} {index : Int} :
    (x, card, index) ∈ sampleCopies cell ↔
      x < 8 ∧ cell (.cardflag card) ≠ 0 ∧ index = 8 * (x : Int) + cell (.slot card) := by
  simp only [sampleCopies, List.mem_flatMap, List.mem_range, List.mem_filterMap,
    List.mem_reverse, List.mem_finRange, true_and, Option.ite_none_right_eq_some, Option.some.injEq,
    Prod.mk.injEq]
  constructor
  · rintro ⟨x, less, card, flag, rfl, rfl, rfl⟩
    exact ⟨less, flag, rfl⟩
  · rintro ⟨less, flag, rfl⟩
    exact ⟨x, less, card, flag, rfl, rfl, rfl⟩

/-- Slots of the frame are enough. -/
theorem Inside.of_slots {σ : Type} {point : World σ}
    (slots : ∀ x, point.cell (.cardflag x) ≠ 0 →
      0 ≤ point.cell (.slot x) ∧ point.cell (.slot x) ≤ 7) : Inside point := by
  refine ⟨slots, ?_⟩
  rintro ⟨x, card, index⟩ member
  obtain ⟨less, flag, rfl⟩ := mem_sampleCopies.mp member
  have range := slots card flag
  show 0 ≤ 8 * (x : Int) + _ ∧ 8 * (x : Int) + _ ≤ 63
  omega

/-- **Then the interrupt leaves the memory around the chunk alone.** -/
theorem Inside.transmit {σ : Type} {point : World σ} (inside : Inside point)
    (writechunk : Card → Nat → UInt8) (memory : Int → UInt8) {address : Int}
    (outside : address < 0 ∨ 63 < address) :
    wcfxsTransmitprep point.cell writechunk memory address = memory address := by
  rw [transmitprep_eq]
  refine Memory.scatter_elsewhere (fun copy member same => ?_) memory
  have range := inside.indices copy member
  omega

/-- It reads nothing but the chunk. -/
theorem Inside.receive {σ : Type} {point : World σ} (inside : Inside point)
    {memory other : Int → UInt8} (same : ∀ address, 0 ≤ address → address ≤ 63 →
      memory address = other address) (readchunk : Card × Nat → UInt8) :
    wcfxsReceiveprep point.cell memory readchunk = wcfxsReceiveprep point.cell other readchunk := by
  refine List.foldl_ext _ _ readchunk fun readchunk copy member => ?_
  obtain ⟨low, high⟩ := inside.indices copy member
  rw [same _ low high]

/-! ### Points at which no chip has come up -/

/-- No FXO or FXS card has been installed. -/
def NoChip {σ : Type} (port : Card → PortType) (start point : World σ) : Prop :=
  ∀ x, IsChip (port x) → .returned x 0 ∉ since start point

/-- A point before any chip comes up: chips have no slot yet, and only a GSM module is published. -/
structure Calm {σ : Type} (port : Card → PortType) (start point : World σ) : Prop where
  grows : ∃ log, point.log = start.log ++ log
  quiet : NoChip port start point
  slot : ∀ x, IsChip (port x) → point.cell (.slot x) = -1
  published : ∀ x, point.cell (.cardflag x) ≠ 0 → port x = .gsm ∧ point.cell (.slot x) = 0

section Calm

variable {params : Params} {simEnterString : List UInt8} {port : Card → PortType} {σ : Type}
  {env : Env σ} {start point next : World σ} {x : Card}

theorem Calm.inside (calm : Calm port start point) : Inside point :=
  Inside.of_slots fun x flag => by
    rw [(calm.published x flag).2]
    decide

/-- Exchanges that are not a chip's success. -/
theorem NoChip.later {E : Event → Prop} (quiet : NoChip port start point)
    (grows : ∃ log, point.log = start.log ++ log) (spoken : Says E point next)
    (apart : ∀ x, IsChip (port x) → ¬ E (.returned x 0)) : NoChip port start next := by
  intro x chip member
  rw [since_trans grows spoken.grows] at member
  rcases List.mem_append.mp member with early | late
  · exact quiet x chip early
  · exact apart x chip (spoken.since _ late)

/-- An initialiser at work. -/
theorem Calm.frame {E : Event → Prop} (calm : Calm port start point) (frame : Frame E point next)
    (silent : ∀ c ret, ¬ E (.returned c ret)) : Calm port start next := by
  obtain ⟨log, logEq⟩ := calm.grows
  obtain ⟨more, moreEq⟩ := frame.log.grows
  refine ⟨⟨log ++ more, by rw [moreEq, logEq, List.append_assoc]⟩,
    calm.quiet.later calm.grows frame.log fun x _ => silent x 0, fun x chip => ?_, fun x flag => ?_⟩
  · rw [frame.slot, calm.slot x chip]
  · rw [frame.cardflag] at flag
    rw [frame.slot]
    exact calm.published x flag

/-- A program that stays calm, unless a chip comes up: then it leaves the chunk. -/
abbrev Careful {α : Type} (env : Env σ) (port : Card → PortType) (start : World σ)
    (program : Prog α) : Prop :=
  Program.Agree (handler env) Inside (NoChip port start) (Calm port start) (Calm port start) program

theorem Careful.of_always {α : Type} {program : Prog α}
    (always : ∀ point, Calm port start point →
      Program.Always (handler env) program point (Calm port start)) :
    Careful env port start program :=
  Program.Agree.of_always (fun _ calm => calm.inside) (fun _ calm => calm.quiet) always

theorem Careful.pure {α : Type} (value : α) : Careful env port start (pure value) :=
  Careful.of_always fun _ calm => Program.always_pure.mpr calm

theorem Careful.frame {program : Prog Int} {E : Event → Prop}
    (frame : ∀ world, Program.Always (handler env) program world (Frame E world))
    (silent : ∀ c ret, ¬ E (.returned c ret)) : Careful env port start program :=
  Careful.of_always fun point calm => (frame point).mono fun _ moved => calm.frame moved silent

/-- A result that is not a chip's success. -/
theorem Careful.returned {ret : Int} (other : IsChip (port x) → ret ≠ 0) :
    Careful env port start (Program.call (Op.returned x ret)) := by
  refine Careful.of_always fun point calm => (Program.always_call rfl).mpr ⟨calm, ?_⟩
  obtain ⟨log, logEq⟩ := calm.grows
  refine ⟨⟨log ++ [.returned x ret], ?_⟩, ?_, calm.slot, calm.published⟩
  · show point.log ++ [.returned x ret] = _
    rw [logEq, List.append_assoc]
  · refine calm.quiet.later calm.grows (E := fun event => event = .returned x ret)
      ⟨[.returned x ret], rfl, by simp⟩ fun y chip same => ?_
    cases same
    exact other chip rfl

/-- A chip that comes up, and is published before its slot is known. -/
theorem Careful.broken {α : Type} {rest : Prog α} (chip : IsChip (port x)) :
    Careful env port start (Program.call (Op.returned x 0) >>= fun _ =>
      setCell (.cardflag x) 1 >>= fun _ => rest) := by
  refine Program.Agree.of_broken (fun point calm kept => ?_) fun point calm kept => ?_
  · have published := (Program.finally_call rfl).mp (Program.always_bind.mp kept).2
    have inside := ((Program.always_call rfl).mp (Program.always_bind.mp published).1).2
    have slot := (inside.slots x (by simp)).1
    simp [calm.slot x chip] at slot
  · have quiet := ((Program.always_call rfl).mp (Program.always_bind.mp kept).1).2
    refine quiet x chip ?_
    rw [since_trans calm.grows ⟨[.returned x 0], rfl⟩]
    exact List.mem_append_right _ (by simp [since])

theorem noted_bind {α : Type} (initialise : Prog Int) (rest : Int → Prog α) :
    noted x initialise >>= rest =
      initialise >>= fun ret => Program.call (Op.returned x ret) >>= fun _ => rest ret := by
  unfold noted
  simp only [bind_assoc, pure_bind]

/-- An initialiser, and what depends on its result. -/
theorem Careful.noted {α : Type} {initialise : Prog Int} {rest : Int → Prog α}
    (careful : Careful env port start initialise)
    (success : Careful env port start (Program.call (Op.returned x 0) >>= fun _ => rest 0))
    (failure : ∀ ret, ret ≠ 0 → Careful env port start (rest ret)) :
    Careful env port start (Gsm.noted x initialise >>= rest) := by
  rw [noted_bind]
  refine careful.bind fun ret => ?_
  by_cases zero : ret = 0
  · rw [zero]
    exact success
  · exact (Careful.returned fun _ => zero).bind fun _ => failure ret zero

theorem placeFxo_careful (fxo : port x = .fxo) (offset : Int) :
    Careful env port start (placeFxo params x offset) := by
  refine Careful.noted ?_ ?_ fun ret failed => ?_
  · exact Careful.frame (initVoicedaa_frame x _ false) fun _ _ silent => silent.elim
  · exact Careful.broken (.inl fxo)
  · rw [Program.when, if_neg failed]
    exact (Careful.pure ()).bind fun _ => Careful.pure _

theorem placeFxs_careful (fxs : port x = .fxs) (offset : Int) :
    Careful env port start (placeFxs params x offset) := by
  have initialise : ∀ sane, Careful env port start
      (wcfxsInitProslic params x (slotCount offset) false sane) :=
    fun sane => Careful.frame (initProslic_frame x _ sane) fun _ _ silent => silent.elim
  refine Careful.noted (initialise false) (Careful.broken (.inr fxs)) fun ret failed => ?_
  rw [if_neg failed]
  refine .ite (fun _ => ?_) fun _ => Careful.pure _
  refine Careful.noted (initialise true) (Careful.broken (.inr fxs)) fun ret failed => ?_
  rw [if_neg failed]
  exact Careful.pure _

theorem placeCards_careful (cards : List Card) (offset : Int) :
    Careful env port start (placeCards params port cards offset) := by
  induction cards generalizing offset with
  | nil => exact Careful.pure _
  | cons x rest ih =>
    refine Program.Agree.bind ?_ ih
    unfold placeCard
    cases type : port x with
    | fxo => exact placeFxo_careful type offset
    | fxs => exact placeFxs_careful type offset
    | _ => exact Careful.pure _

/-- The GSM module is given its slot before it is published. -/
theorem publishGsm_careful (gsm : port x = .gsm) :
    Careful env port start (setCell (.slot x) 0 >>= fun _ => setCell (.cardflag x) 1 >>= fun _ =>
      (pure 2 : Prog Int)) := by
  refine Careful.of_always fun point calm => ?_
  have ne : ∀ {y}, IsChip (port y) → y ≠ x := by
    rintro y chip rfl
    exact not_isChip_gsm gsm chip
  have placed : Calm port start { point with cell := Function.update point.cell (.slot x) 0 } := by
    refine ⟨calm.grows, calm.quiet, fun y chip => ?_, fun y flag => ?_⟩
    · simp [ne chip, calm.slot y chip]
    · obtain ⟨type, slot⟩ := calm.published y (by simpa using flag)
      refine ⟨type, ?_⟩
      by_cases same : y = x
      · simp [same]
      · simp [same, slot]
  refine Program.always_bind.mpr ⟨(Program.always_call rfl).mpr ⟨calm, placed⟩,
    (Program.finally_call rfl).mpr ?_⟩
  refine Program.always_bind.mpr ⟨(Program.always_call rfl).mpr ⟨placed, ?_⟩,
    (Program.finally_call rfl).mpr (Program.always_pure.mpr ?_)⟩
  all_goals
    refine ⟨placed.grows, placed.quiet, fun y chip => ?_, fun y flag => ?_⟩
    · simpa using placed.slot y chip
    · by_cases same : y = x
      · simp [same, gsm]
      · simpa using placed.published y (by simpa [same] using flag)

theorem placeGsm_careful (cards : List Card) :
    Careful env port start (placeGsm params simEnterString port cards) := by
  induction cards with
  | nil => exact Careful.pure _
  | cons x rest ih =>
    refine .ite (fun gsm => ?_) fun _ => ih
    refine Careful.noted ?_ ?_ fun ret failed => ?_
    · exact Careful.frame (initializeGsmModule_frame x simEnterString) fun _ _ silent => silent.elim
    · refine (Careful.returned fun chip => absurd chip (not_isChip_gsm gsm)).bind fun _ => ?_
      rw [if_pos rfl]
      exact publishGsm_careful gsm
    · rw [if_neg failed]
      exact ih

/-- Nothing is published while the slots are being cleared. -/
structure Unpublished (start point : World σ) : Prop where
  log : point.log = start.log
  cardflag : ∀ x, point.cell (.cardflag x) = 0

theorem Unpublished.inside (unpublished : Unpublished start point) : Inside point :=
  Inside.of_slots fun x flag => absurd (unpublished.cardflag x) flag

theorem Unpublished.quiet (unpublished : Unpublished start point) : NoChip port start point := by
  intro x _ member
  rw [since, unpublished.log, List.drop_length] at member
  exact absurd member List.not_mem_nil

theorem clearSlots_careful : Program.Agree (handler env) Inside (NoChip port start)
    (Unpublished start) (Calm port start) clearSlots := by
  intro point unpublished
  have always : Program.Always (handler env) clearSlots point (Unpublished start) := by
    have every : clearSlots.Every fun op => ∃ x, op = .set (.slot x) (-1) :=
      .forM fun x _ => .call ⟨x, rfl⟩
    refine every.visited_inv ?_ unpublished
    rintro op ⟨x, rfl⟩ state answer final answered inv
    cases Option.some.inj answered
    exact ⟨inv.log, fun y => by simpa using inv.cardflag y⟩
  refine ⟨iff_of_true (always.mono fun _ inv => inv.inside) (always.mono fun _ inv => inv.quiet),
    fun _ value final ran => ?_⟩
  have last := always.final value final ran
  have cleared := clearSlots_finally point value final ran
  refine ⟨⟨[], by rw [last.log, List.append_nil]⟩, last.quiet, fun x _ => ?_, fun x flag => ?_⟩
  · exact cleared.slot x (List.mem_finRange x)
  · exact absurd (last.cardflag x) flag

theorem readFlags_careful (cards : List Card) :
    Careful env port start (cards.mapM fun x => getCell (.cardflag x)) := by
  induction cards with
  | nil => exact Careful.pure _
  | cons x rest ih =>
    rw [List.mapM_cons]
    refine .bind ?_ fun flag => ih.bind fun flags => Careful.pure _
    exact Careful.of_always fun point calm => (Program.always_call rfl).mpr ⟨calm, calm⟩

/-- **When the interrupt finds every published card in the chunk**: at every point of the
initialisation, for all port types and all results of the initialisers. -/
theorem inside_iff {world : World σ} {timingonly : Bool}
    (clear : ∀ x, world.cell (.cardflag x) = 0) :
    (∀ point ∈ (wcfxsHardwareInit params simEnterString port timingonly).visited (handler env) world,
      Inside point) ↔
    ∀ point ∈ (wcfxsHardwareInit params simEnterString port timingonly).visited (handler env) world,
      ∀ x, IsChip (port x) → .returned x 0 ∉ since world point := by
  have careful : Program.Agree (handler env) Inside (NoChip port world) (Unpublished world)
      (Calm port world) (wcfxsHardwareInit params simEnterString port timingonly) := by
    refine clearSlots_careful.bind fun _ => (placeGsm_careful _).bind fun offset => ?_
    refine (placeCards_careful _ offset).bind fun _ => (readFlags_careful _).bind fun flags => ?_
    exact Careful.pure _
  exact (careful world ⟨rfl, clear⟩).1

end Calm

/-! ### On the bench -/

/-- A GSM module that starts and an FXO card that does not: the interrupt stays in the chunk. -/
theorem inside_bench :
    (∃ point ∈ (wcfxsHardwareInit Params.default [] benchPort false).visited
      (handler (bench 0 true)) benchWorld, point.cell (.cardflag firstSlot) = 1) ∧
    ∀ point ∈ (wcfxsHardwareInit Params.default [] benchPort false).visited
      (handler (bench 0 true)) benchWorld, Inside point := by
  refine ⟨?_, (inside_iff fun _ => rfl).mpr ?_⟩
  · have some : ((wcfxsHardwareInit Params.default [] benchPort false).visited
        (handler (bench 0 true)) benchWorld).any
          (fun point => decide (point.cell (.cardflag firstSlot) = 1)) = true := by decide +kernel
    obtain ⟨point, member, flag⟩ := List.any_eq_true.mp some
    exact ⟨point, member, of_decide_eq_true flag⟩
  · have all : ((wcfxsHardwareInit Params.default [] benchPort false).visited
        (handler (bench 0 true)) benchWorld).all
          (fun point => decide (.returned secondSlot 0 ∉ since benchWorld point)) = true := by
      decide +kernel
    intro point member x chip
    rw [benchPort_chip chip]
    exact of_decide_eq_true (List.all_eq_true.mp all point member)

/-- An FXO card that comes up: between the two stores the interrupt uses index -1. -/
theorem published_without_slot :
    (∃ point ∈ (wcfxsHardwareInit Params.default [] benchPort false).visited
      (handler (bench 3 false)) benchWorld, (0, secondSlot, -1) ∈ sampleCopies point.cell) ∧
    ¬ ∀ point ∈ (wcfxsHardwareInit Params.default [] benchPort false).visited
      (handler (bench 3 false)) benchWorld, Inside point := by
  have some : ((wcfxsHardwareInit Params.default [] benchPort false).visited
      (handler (bench 3 false)) benchWorld).any (fun point => decide
        (point.cell (.cardflag secondSlot) = 1 ∧ point.cell (.slot secondSlot) = -1)) = true := by
    decide +kernel
  obtain ⟨point, member, test⟩ := List.any_eq_true.mp some
  obtain ⟨flag, slot⟩ := of_decide_eq_true test
  refine ⟨⟨point, member, mem_sampleCopies.mpr ⟨by decide, by rw [flag]; decide, by simp [slot]⟩⟩, ?_⟩
  intro inside
  have range := (inside point member).slots secondSlot (by rw [flag]; decide)
  rw [slot] at range
  exact absurd range.1 (by decide)

end Baps.Gsm
