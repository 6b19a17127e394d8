/-
**The layout of `union mod` in `struct wcfxs`.**

The FXO and the FXS variables of all eight cards share one union of two structures of arrays. Every
array is `int x[NUM_CARDS]`, 32 bytes, except the last one of the FXS side, `calregs`, eight records
of twelve bytes; so the ninth FXO array, `polaritydebounce`, lies over `calregs[0 .. 2]`.

* `cells modtype card` — the bytes a card of that type keeps its variables in.
* `cells_disjoint_iff` — **when two cards keep apart**: always, unless one is FXO in slot `i` and the
  other FXS in slot `i / 3`.
-/

import Baps.Wcfxs.World

namespace Baps.Wcfxs

open Interaction Memory

/-- The `int` arrays of `mod.fxo`, in order (`AUDIO_RINGCHECK` is not defined). -/
inductive FxoVar
  | wasringing
  | ringdebounce
  | offhook
  | battdebounce
  | nobatttimer
  | battery
  | lastpol
  | polarity
  | polaritydebounce
  deriving DecidableEq, Repr

/-- The `int` arrays of `mod.fxs`, in order; `calregs` follows them. -/
inductive FxsVar
  | oldrxhook
  | debouncehook
  | lastrxhook
  | debounce
  | ohttimer
  | idletxhookstate
  | lasttxhook
  | palarms
  deriving DecidableEq, Repr

/-- The position of an array in `mod.fxo`. -/
def FxoVar.index : FxoVar → Nat
  | .wasringing => 0
  | .ringdebounce => 1
  | .offhook => 2
  | .battdebounce => 3
  | .nobatttimer => 4
  | .battery => 5
  | .lastpol => 6
  | .polarity => 7
  | .polaritydebounce => 8

/-- The position of an array in `mod.fxs`. -/
def FxsVar.index : FxsVar → Nat
  | .oldrxhook => 0
  | .debouncehook => 1
  | .lastrxhook => 2
  | .debounce => 3
  | .ohttimer => 4
  | .idletxhookstate => 5
  | .lasttxhook => 6
  | .palarms => 7

/-- The byte offset of `mod.fxo.var[card]`. -/
def FxoVar.offset (var : FxoVar) (card : Card) : Nat := 32 * var.index + 4 * card.val

/-- The byte offset of `mod.fxs.var[card]`. -/
def FxsVar.offset (var : FxsVar) (card : Card) : Nat := 32 * var.index + 4 * card.val

/-- The byte offset of `mod.fxs.calregs[card].vals[x]`. -/
def calregsOffset (card : Card) (x : Nat) : Nat := 256 + 12 * card.val + x

/-! ### Loads and stores -/

/-- `wc->mod.fxo.var[card]`. -/
abbrev fxoLoad (var : FxoVar) (card : Card) : Prog Int := loadInt (var.offset card)

/-- `wc->mod.fxo.var[card] = value`. -/
abbrev fxoStore (var : FxoVar) (card : Card) (value : Int) : Prog Unit :=
  storeInt (var.offset card) value

/-- `wc->mod.fxs.var[card]`. -/
abbrev fxsLoad (var : FxsVar) (card : Card) : Prog Int := loadInt (var.offset card)

/-- `wc->mod.fxs.var[card] = value`. -/
abbrev fxsStore (var : FxsVar) (card : Card) (value : Int) : Prog Unit :=
  storeInt (var.offset card) value

/-- `wc->mod.fxs.calregs[card].vals[x]`. -/
abbrev calregsLoad (card : Card) (x : Nat) : Prog UInt8 :=
  Program.call (Op.loadByte (calregsOffset card x))

/-- `wc->mod.fxs.calregs[card].vals[x] = value`. -/
abbrev calregsStore (card : Card) (x : Nat) (value : UInt8) : Prog Unit :=
  Program.call (Op.storeByte (calregsOffset card x) value)

/-! ### Which bytes belong to which card -/

/-- The bytes of `mod.fxs.calregs[card]`. -/
def calregsCells (card : Card) : Set Nat :=
  {a | calregsOffset card 0 ≤ a ∧ a < calregsOffset card 12}

/-- The bytes a card of the given type keeps its variables in. -/
def cells : ModType → Card → Set Nat
  | .fxo, card => {a | ∃ var : FxoVar, a ∈ intCells (var.offset card)}
  | .fxs, card => {a | ∃ var : FxsVar, a ∈ intCells (var.offset card)} ∪ calregsCells card

theorem mem_cells_fxo {card : Card} {a : Nat} :
    a ∈ cells .fxo card ↔ a < 288 ∧ a % 32 / 4 = card.val := by
  have bound := card.isLt
  constructor
  · rintro ⟨var, lower, upper⟩
    cases var <;> simp only [FxoVar.offset, FxoVar.index] at lower upper <;> omega
  · rintro ⟨inside, slot⟩
    have row : a / 32 < 9 := by omega
    obtain ⟨var, index⟩ : ∃ var : FxoVar, var.index = a / 32 := by
      generalize a / 32 = n at row
      interval_cases n
      exacts [⟨.wasringing, rfl⟩, ⟨.ringdebounce, rfl⟩, ⟨.offhook, rfl⟩, ⟨.battdebounce, rfl⟩,
        ⟨.nobatttimer, rfl⟩, ⟨.battery, rfl⟩, ⟨.lastpol, rfl⟩, ⟨.polarity, rfl⟩,
        ⟨.polaritydebounce, rfl⟩]
    refine ⟨var, ?_, ?_⟩ <;> simp only [FxoVar.offset, index] <;> omega

theorem mem_cells_fxs {card : Card} {a : Nat} :
    a ∈ cells .fxs card ↔
      (a < 256 ∧ a % 32 / 4 = card.val) ∨ (256 ≤ a ∧ (a - 256) / 12 = card.val) := by
  have bound := card.isLt
  constructor
  · rintro (⟨var, lower, upper⟩ | ⟨lower, upper⟩)
    · left
      cases var <;> simp only [FxsVar.offset, FxsVar.index] at lower upper <;> omega
    · right
      simp only [calregsOffset] at lower upper
      omega
  · rintro (⟨inside, slot⟩ | ⟨inside, slot⟩)
    · left
      have row : a / 32 < 8 := by omega
      obtain ⟨var, index⟩ : ∃ var : FxsVar, var.index = a / 32 := by
        generalize a / 32 = n at row
        interval_cases n
        exacts [⟨.oldrxhook, rfl⟩, ⟨.debouncehook, rfl⟩, ⟨.lastrxhook, rfl⟩, ⟨.debounce, rfl⟩,
          ⟨.ohttimer, rfl⟩, ⟨.idletxhookstate, rfl⟩, ⟨.lasttxhook, rfl⟩, ⟨.palarms, rfl⟩]
      refine ⟨var, ?_, ?_⟩ <;> simp only [FxsVar.offset, index] <;> omega
    · right
      refine ⟨?_, ?_⟩ <;> simp only [calregsOffset] <;> omega

/-- An FXO module in the first slot and an FXS module in the second have bytes in common. -/
def Overlap (modtype : Card → ModType) (fxo fxs : Card) : Prop :=
  modtype fxo = .fxo ∧ modtype fxs = .fxs ∧ fxo.val / 3 = fxs.val

/-- **When the variables of two cards keep apart.** -/
theorem cells_disjoint_iff {modtype : Card → ModType} {i j : Card} (different : i ≠ j) :
    (∀ a ∈ cells (modtype i) i, a ∉ cells (modtype j) j) ↔
      ¬ Overlap modtype i j ∧ ¬ Overlap modtype j i := by
  have ne : i.val ≠ j.val := fun same => different (Fin.ext same)
  have boundI := i.isLt
  have boundJ := j.isLt
  cases typeI : modtype i <;> cases typeJ : modtype j <;>
    simp only [Overlap, typeI, typeJ, mem_cells_fxo, mem_cells_fxs, true_and, false_and,
      reduceCtorEq, not_false_eq_true, and_true]
  · simp only [iff_true]
    omega
  · constructor
    · intro apart third
      exact apart (256 + 4 * j.val) (.inr (by omega)) (by omega)
    · omega
  · constructor
    · intro apart third
      exact apart (256 + 4 * i.val) (by omega) (.inr (by omega))
    · omega
  · simp only [iff_true]
    omega

end Baps.Wcfxs
