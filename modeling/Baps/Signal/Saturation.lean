/-
**Sums that saturate.**

A sum of samples is kept within two rails, and so is every step on the way to it. Who adds a sample to the sum
takes down how much of it got in, `added`: where the sum is at a rail, that is less than the sample. What was
taken down can then be taken out again, exactly.

* `Rails.clip_add_added` — **the sum grows by what got in**;
* `Rails.added_between` — what got in is between nothing and the sample;
* `Tallies.run` — a sum that many add to, one after the other, is **the sum of all that got in**;
* `Tallies.exact` — where the samples are small enough, all of each gets in;
* `foldl_once` — a loop of which only one step matters.
-/

import Mathlib.Algebra.BigOperators.Intervals
import Mathlib.Algebra.Order.BigOperators.Group.Finset
import Mathlib.Algebra.Order.Group.Abs

namespace Baps.Signal

open Finset

/-! ### Rails -/

/-- The least sample and the greatest one. -/
structure Rails (α : Type*) [Zero α] [LE α] where
  low : α
  high : α
  low_le : low ≤ 0
  le_high : 0 ≤ high

namespace Rails

section

variable {α : Type*} [AddCommGroup α] [LinearOrder α] (rails : Rails α) {sum x y : α}

/-- The nearest sample. -/
def clip (x : α) : α := max rails.low (min rails.high x)

/-- It is a sample. -/
def Fits (x : α) : Prop := rails.low ≤ x ∧ x ≤ rails.high

/-- How much of `x` gets in. -/
def added (sum x : α) : α := rails.clip (rails.clip (x + sum) - sum)

theorem zero_fits : rails.Fits 0 := ⟨rails.low_le, rails.le_high⟩

theorem clip_fits (x : α) : rails.Fits (rails.clip x) :=
  ⟨le_max_left _ _, max_le (rails.low_le.trans rails.le_high) (min_le_left _ _)⟩

variable {rails}

theorem Fits.clip (fits : rails.Fits x) : rails.clip x = x := by
  unfold Rails.clip
  rw [min_eq_right fits.2, max_eq_right fits.1]

/-- What lies between two samples is one. -/
theorem Fits.between (fits : rails.Fits x) (above : min 0 x ≤ y) (below : y ≤ max 0 x) : rails.Fits y :=
  ⟨(le_min rails.low_le fits.1).trans above, below.trans (max_le rails.le_high fits.2)⟩

/-- All of a sample gets in that leaves the sum within the rails. -/
theorem added_of_fits (fits : rails.Fits x) (together : rails.Fits (x + sum)) : rails.added sum x = x := by
  unfold added
  rw [together.clip, add_sub_cancel_right, fits.clip]

theorem added_zero (fits : rails.Fits sum) : rails.added sum 0 = 0 :=
  added_of_fits rails.zero_fits (by rwa [zero_add])

/-- Who takes out what got in, and adds the sum to it, has the rest of the sum. -/
theorem clip_without (fits : rails.Fits (-x)) (sum : α) :
    rails.clip (rails.clip (0 - x) + sum) = rails.clip (sum - x) := by
  rw [zero_sub, fits.clip, neg_add_eq_sub]

variable [IsOrderedAddMonoid α]

/-- A clipped sum lies between what was there and what was to be. -/
theorem clip_between (fits : rails.Fits sum) (x : α) :
    min 0 x ≤ rails.clip (x + sum) - sum ∧ rails.clip (x + sum) - sum ≤ max 0 x := by
  constructor
  · rw [le_sub_iff_add_le]
    refine le_max_of_le_right (le_min ?_ ?_)
    · exact (add_le_of_nonpos_left (min_le_left 0 x)).trans fits.2
    · exact add_le_add_left (min_le_right 0 x) sum
  · rw [sub_le_iff_le_add]
    refine max_le ?_ (min_le_of_right_le ?_)
    · exact fits.1.trans (le_add_of_nonneg_left (le_max_left 0 x))
    · exact add_le_add_left (le_max_right 0 x) sum

theorem added_eq (sum_fits : rails.Fits sum) (fits : rails.Fits x) :
    rails.added sum x = rails.clip (x + sum) - sum := by
  obtain ⟨above, below⟩ := clip_between sum_fits x
  exact (fits.between above below).clip

/-- **What gets in** lies between nothing and the sample. -/
theorem added_between (sum_fits : rails.Fits sum) (fits : rails.Fits x) :
    min 0 x ≤ rails.added sum x ∧ rails.added sum x ≤ max 0 x := by
  rw [added_eq sum_fits fits]
  exact clip_between sum_fits x

/-- **The sum grows by what gets in.** -/
theorem clip_add_added (sum_fits : rails.Fits sum) (fits : rails.Fits x) :
    rails.clip (sum + rails.added sum x) = sum + rails.added sum x := by
  have grown : sum + rails.added sum x = rails.clip (x + sum) := by
    rw [added_eq sum_fits fits, add_sub_cancel]
  rw [grown]
  exact (rails.clip_fits (x + sum)).clip

/-- What lies between nothing and a sample can be taken out as well. -/
theorem neg_fits_between (fits : rails.Fits (-x)) (above : min 0 x ≤ y) (below : y ≤ max 0 x) :
    rails.Fits (-y) := by
  rcases le_total 0 x with up | down
  · rw [min_eq_left up] at above
    rw [max_eq_right up] at below
    exact ⟨fits.1.trans (neg_le_neg below), (neg_nonpos.mpr above).trans rails.le_high⟩
  · rw [min_eq_right down] at above
    rw [max_eq_left down] at below
    exact ⟨rails.low_le.trans (neg_nonneg.mpr below), (neg_le_neg above).trans fits.2⟩

/-- What is small enough is a sample. -/
theorem fits_of_abs {bound : α} (low : bound ≤ -rails.low) (high : bound ≤ rails.high) (small : |x| ≤ bound) :
    rails.Fits x := by
  obtain ⟨above, below⟩ := abs_le.mp small
  exact ⟨(le_neg_of_le_neg low).trans above, below.trans high⟩

end

end Rails

/-! ### Many that add -/

/-- What all steps but one keep stays where that one is not taken. -/
theorem foldl_others {σ ι : Type*} {step : σ → ι → σ} {kept : σ → Prop} {i : ι} {steps : List ι}
    (keeps : ∀ s x, x ≠ i → kept s → kept (step s x)) (without : i ∉ steps) {s : σ} (start : kept s) :
    kept (steps.foldl step s) := by
  induction steps generalizing s with
  | nil => exact start
  | cons x steps ih =>
    rw [List.mem_cons, not_or] at without
    exact ih without.2 (keeps s x (Ne.symm without.1) start)

/-- Step `x` of a loop adds to the total the part that it leaves behind. -/
structure Tallies {σ M : Type*} [Add M] (step : σ → ℕ → σ) (good : σ → Prop) (total : σ → M)
    (part : σ → ℕ → M) : Prop where
  keeps_good : ∀ s x, good s → good (step s x)
  grows : ∀ s x, good s → total (step s x) = total s + part (step s x) x
  keeps : ∀ s x y, y ≠ x → part (step s x) y = part s y

namespace Tallies

section

variable {σ M : Type*} [AddCommMonoid M] {step : σ → ℕ → σ} {good : σ → Prop} {total : σ → M}
variable {part : σ → ℕ → M}

theorem good_run (tallies : Tallies step good total part) {s : σ} (start : good s) (steps : List ℕ) :
    good (steps.foldl step s) := by
  induction steps generalizing s with
  | nil => exact start
  | cons x steps ih => exact ih (tallies.keeps_good s x start)

/-- **The total is the sum of the parts.** -/
theorem run (tallies : Tallies step good total part) {s : σ} (start : good s) (count : ℕ) :
    total ((List.range' 1 count).foldl step s)
      = total s + ∑ x ∈ Ico 1 (count + 1), part ((List.range' 1 count).foldl step s) x := by
  induction count with
  | zero => exact (add_zero (total s)).symm
  | succ count ih =>
    rw [List.range'_1_concat, List.foldl_append, Finset.sum_Ico_succ_top (Nat.le_add_left 1 count)]
    rw [add_comm 1 count]
    have before := tallies.good_run start (List.range' 1 count)
    generalize (List.range' 1 count).foldl step s = t at ih before ⊢
    have others : ∑ x ∈ Ico 1 (count + 1), part (step t (count + 1)) x = ∑ x ∈ Ico 1 (count + 1), part t x := by
      refine Finset.sum_congr rfl fun x inside => tallies.keeps t (count + 1) x ?_
      exact (Finset.mem_Ico.mp inside).2.ne
    show total (step t (count + 1)) = total s + (∑ x ∈ Ico 1 (count + 1), part (step t (count + 1)) x
      + part (step t (count + 1)) (count + 1))
    rw [tallies.grows t _ before, ih, others, add_assoc]

end

section

variable {σ α : Type*} [AddCommGroup α] [LinearOrder α] [IsOrderedAddMonoid α] {rails : Rails α}
variable {step : σ → ℕ → σ} {good : σ → Prop} {total : σ → α} {part : σ → ℕ → α}

/-- **All of each gets in** where the offers are small enough together. -/
theorem exact (tallies : Tallies step good total part) (offer : ℕ → α) (fresh : σ → ℕ → Prop)
    (stays : ∀ s x y, y ≠ x → fresh s y → fresh (step s x) y)
    (adds : ∀ s x, good s → fresh s x → part (step s x) x = rails.added (total s) (offer x))
    {s : σ} (start : good s) (unused : ∀ x, fresh s x) {bound : α} (low : bound ≤ -rails.low)
    (high : bound ≤ rails.high) (count : ℕ) (small : |total s| + ∑ x ∈ Ico 1 (count + 1), |offer x| ≤ bound) :
    ∀ x ∈ Ico 1 (count + 1), part ((List.range' 1 count).foldl step s) x = offer x := by
  induction count with
  | zero => exact fun x inside => absurd inside (by rw [Finset.Ico_self]; exact Finset.notMem_empty x)
  | succ count ih =>
    rw [Finset.sum_Ico_succ_top (Nat.le_add_left 1 count), ← add_assoc] at small
    have last := abs_nonneg (offer (count + 1))
    have before := ih ((le_add_of_nonneg_right last).trans small)
    have sum := tallies.run start count
    have kept := tallies.good_run start (List.range' 1 count)
    have own : fresh ((List.range' 1 count).foldl step s) (count + 1) := by
      refine foldl_others (fun s x other => stays s x (count + 1) (Ne.symm other)) ?_ (unused (count + 1))
      rw [List.mem_range'_1]
      omega
    rw [List.range'_1_concat, List.foldl_append, add_comm 1 count]
    generalize (List.range' 1 count).foldl step s = t at before sum kept own ⊢
    rw [Finset.sum_congr rfl before] at sum
    -- what is there already, and what is to come, are small enough together
    have there : |total t| ≤ |total s| + ∑ x ∈ Ico 1 (count + 1), |offer x| := by
      rw [sum]
      refine (abs_add_le _ _).trans (add_le_add_right (Finset.abs_sum_le_sum_abs _ _) _)
    have alone : |offer (count + 1)| ≤ bound :=
      (le_add_of_nonneg_left ((abs_nonneg _).trans there)).trans small
    have together : |offer (count + 1) + total t| ≤ bound := by
      rw [add_comm]
      exact (abs_add_le _ _).trans ((add_le_add_left there _).trans small)
    intro x inside
    by_cases same : x = count + 1
    · rw [same]
      show part (step t (count + 1)) (count + 1) = _
      rw [adds t (count + 1) kept own]
      exact Rails.added_of_fits (Rails.fits_of_abs low high alone) (Rails.fits_of_abs low high together)
    · show part (step t (count + 1)) x = _
      rw [tallies.keeps t (count + 1) x same]
      refine before x (Finset.mem_Ico.mpr ?_)
      have bounds := Finset.mem_Ico.mp inside
      omega

end

end Tallies

/-- Only one step of a loop brings something about: what that step needs stays until then, and what it has
brought about stays after it. -/
theorem foldl_once {σ ι : Type*} {step : σ → ι → σ} {ready done : σ → Prop} {i : ι} {steps : List ι}
    (once : steps.Nodup) (among : i ∈ steps) (before : ∀ s x, x ≠ i → ready s → ready (step s x))
    (hit : ∀ s, ready s → done (step s i)) (after : ∀ s x, x ≠ i → done s → done (step s x)) {s : σ}
    (start : ready s) : done (steps.foldl step s) := by
  obtain ⟨early, late, rfl⟩ := List.append_of_mem among
  have apart := List.nodup_middle.mp once
  rw [List.nodup_cons, List.mem_append, not_or] at apart
  rw [List.foldl_append, List.foldl_cons]
  exact foldl_others after apart.1.2 (hit _ (foldl_others before apart.1.1 start))

end Baps.Signal
