/-
**The round trip of the samples through the TDM frame.**

`wcfxs_transmitprep` puts the eight samples of every installed card into the chunk, each at the card's time
slot of its frame, and `wcfxs_receiveprep` takes them out of a chunk again. Here one is run on the chunk
that the other has filled. The span's own functions around the two loops (`zt_transmit`, `zt_receive`,
`zt_ec_chunk`) are taken to leave the samples alone.

* `transmitprep_at`, `transmitprep_elsewhere` — **what is in the chunk**.
* `slots_round_trip` — **every installed card gets its own samples back**, and nothing else changes: under
  any mapping of cards to slots, and in the driver that has none.
-/

import Baps.Gsm.Samples

namespace Baps.Gsm

open Interaction Wcfxs Memory

/-- `wc->cardflag & (1 << card)`. -/
def Installed (cell : Cell → Int) (card : Card) : Prop := cell (.cardflag card) ≠ 0

/-- The installed cards have slots of the frame, each its own. -/
structure Mapped (cell : Cell → Int) : Prop where
  range : ∀ card, Installed cell card → 0 ≤ cell (.slot card) ∧ cell (.slot card) ≤ 7
  apart : ∀ card other, Installed cell card → Installed cell other →
    cell (.slot card) = cell (.slot other) → card = other

/-- The driver without a GSM module, `src/wcfxs.c`, has the same loops without the mapping: the index is
`8*x+card`. -/
def ownSlots (cell : Cell → Int) : Cell → Int
  | .slot card => card.val
  | other => cell other

section RoundTrip

variable {cell : Cell → Int} {card : Card} {x : Nat} (writechunk : Card → Nat → UInt8)
  (memory : Int → UInt8) (readchunk : Card × Nat → UInt8)

/-- **A sample in the chunk.** Its index tells the frame and, as slots are apart, the card. -/
theorem transmitprep_at (mapped : Mapped cell) (installed : Installed cell card) (inside : x < 8) :
    wcfxsTransmitprep cell writechunk memory (8 * (x : Int) + cell (.slot card)) =
      writechunk card x := by
  rw [transmitprep_eq]
  refine scatter_at ⟨(x, card, _), mem_sampleCopies.mpr ⟨inside, installed, rfl⟩, rfl⟩ ?_ memory
  rintro ⟨y, other, index⟩ member same
  obtain ⟨-, also, rfl⟩ := mem_sampleCopies.mp member
  have range := mapped.range card installed
  have otherRange := mapped.range other also
  simp only at same
  obtain rfl : y = x := by omega
  obtain rfl : other = card := mapped.apart other card also installed (by omega)
  rfl

/-- **What is in no card's slot.** -/
theorem transmitprep_elsewhere (mapped : Mapped cell) {address : Int}
    (unowned : ∀ card, Installed cell card → address % 8 ≠ cell (.slot card)) :
    wcfxsTransmitprep cell writechunk memory address = memory address := by
  rw [transmitprep_eq]
  refine scatter_elsewhere ?_ memory
  rintro ⟨x, card, index⟩ member same
  obtain ⟨-, installed, rfl⟩ := mem_sampleCopies.mp member
  have range := mapped.range card installed
  refine unowned card installed ?_
  simp only at same
  omega

/-- A sample of an installed card is what the chunk has at its index. -/
theorem receiveprep_at (installed : Installed cell card) (inside : x < 8) :
    wcfxsReceiveprep cell memory readchunk (card, x) = memory (8 * (x : Int) + cell (.slot card)) := by
  rw [receiveprep_eq]
  refine scatter_at ⟨(x, card, _), mem_sampleCopies.mpr ⟨inside, installed, rfl⟩, rfl⟩ ?_ readchunk
  rintro ⟨y, other, index⟩ member same
  obtain ⟨-, -, rfl⟩ := mem_sampleCopies.mp member
  obtain ⟨rfl, rfl⟩ := Prod.mk.inj same
  rfl

theorem receiveprep_elsewhere (absent : ¬ Installed cell card) :
    wcfxsReceiveprep cell memory readchunk (card, x) = readchunk (card, x) := by
  rw [receiveprep_eq]
  refine scatter_elsewhere ?_ readchunk
  rintro ⟨y, other, index⟩ member same
  obtain ⟨-, installed, -⟩ := mem_sampleCopies.mp member
  obtain ⟨rfl, -⟩ := Prod.mk.inj same
  exact absent installed

/-- A chunk filled by `wcfxs_transmitprep` and read by `wcfxs_receiveprep`. -/
structure RoundTrips (cell : Cell → Int) (writechunk : Card → Nat → UInt8) (memory : Int → UInt8)
    (readchunk : Card × Nat → UInt8) : Prop where
  samples : ∀ card, Installed cell card → ∀ x < 8,
    wcfxsReceiveprep cell (wcfxsTransmitprep cell writechunk memory) readchunk (card, x) =
      writechunk card x
  unowned : ∀ address, (∀ card, Installed cell card → address % 8 ≠ cell (.slot card)) →
    wcfxsTransmitprep cell writechunk memory address = memory address
  absent : ∀ card, ¬ Installed cell card → ∀ x,
    wcfxsReceiveprep cell (wcfxsTransmitprep cell writechunk memory) readchunk (card, x) =
      readchunk (card, x)

theorem Mapped.roundTrips (mapped : Mapped cell) : RoundTrips cell writechunk memory readchunk := by
  refine ⟨fun card installed x inside => ?_, fun address => ?_, fun card absent x => ?_⟩
  · calc
      wcfxsReceiveprep cell (wcfxsTransmitprep cell writechunk memory) readchunk (card, x) =
          wcfxsTransmitprep cell writechunk memory (8 * (x : Int) + cell (.slot card)) :=
        receiveprep_at _ readchunk installed inside
      _ = writechunk card x := transmitprep_at writechunk memory mapped installed inside
  · exact transmitprep_elsewhere writechunk memory mapped
  · exact receiveprep_elsewhere _ readchunk absent

/-- The number of a card is a slot of its own. -/
theorem ownSlots_mapped (cell : Cell → Int) : Mapped (ownSlots cell) := by
  refine ⟨fun card _ => ?_, fun card other _ _ same => ?_⟩
  · have bound := card.isLt
    show 0 ≤ (card.val : Int) ∧ (card.val : Int) ≤ 7
    omega
  · have same : (card.val : Int) = other.val := same
    exact Fin.ext (by omega)

/-- **The samples round-trip**: each installed card gets the eight it has transmitted, bytes of slots that
no installed card owns stay, and cards that are not installed read nothing. So under every mapping that
gives the installed cards slots of their own, and in the driver without a mapping. -/
theorem slots_round_trip (mapped : Mapped cell) : RoundTrips cell writechunk memory readchunk ∧
    RoundTrips (ownSlots cell) writechunk memory readchunk :=
  ⟨mapped.roundTrips writechunk memory readchunk,
    (ownSlots_mapped cell).roundTrips writechunk memory readchunk⟩

end RoundTrip

/-- Cards 0 and 2, in slots 5 and 1. -/
def twoCards : Cell → Int
  | .cardflag card => if card.val = 0 ∨ card.val = 2 then 1 else 0
  | .slot card => if card.val = 0 then 5 else 1
  | _ => 0

/-- Two callers hear what they have said, not each other, whatever was in the chunk. -/
theorem slots_round_trip_two :
    let said : Card → Nat → UInt8 := fun card x => UInt8.ofNat (16 * card.val + x)
    let heard := wcfxsReceiveprep twoCards (wcfxsTransmitprep twoCards said fun _ => 0xff) fun _ => 0
    heard (0, 3) = 3 ∧ heard (2, 3) = 35 ∧ heard (1, 3) = 0 := by
  have mapped : Mapped twoCards := by
    refine ⟨?_, ?_⟩
    · unfold Installed
      decide
    · unfold Installed
      decide
  have trips := (slots_round_trip (fun card x => UInt8.ofNat (16 * card.val + x)) (fun _ => 0xff)
    (fun _ => 0) mapped).1
  refine ⟨trips.samples 0 ?_ 3 (by decide), trips.samples 2 ?_ 3 (by decide), trips.absent 1 ?_ 3⟩
  all_goals
    unfold Installed
    decide

end Baps.Gsm
