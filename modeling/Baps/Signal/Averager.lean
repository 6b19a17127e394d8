/-
**A recursive average in whole numbers.**

An `Averager` replaces an average `y`, on a sample `x`, by `((T - 1) * y + x + r) / T`, rounded down: `T` is its
time constant, and `r` what it adds before it divides.

* `step_le`, `le_step` — bounds that a step keeps.
* `step_eq_self_iff` — **the averages that a sample leaves alone** are `T` in a row, and end at `x + r`.
* `settles` — **an average fed with one sample settles**: at the lowest of these from below, and at the
  highest from above; one that is among them stays where it is.
-/

import Mathlib.Logic.Function.Iterate
import Mathlib.Order.Lattice
import Mathlib.Order.MinMax
import Mathlib.Data.Nat.Basic

namespace Baps.Signal

/-! ### Reaching a fixed point -/

/-- A function that comes closer to a fixed point with every step, as long as it stays on one side of it,
reaches it. -/
theorem iterate_reaches {α : Type} {f : α → α} {target : α} (distance : α → Nat) (Side : α → Prop)
    (fixed : f target = target)
    (closer : ∀ y, Side y → y ≠ target → Side (f y) ∧ distance (f y) < distance y) {y : α} (side : Side y)
    {n : Nat} (enough : distance y ≤ n) : f^[n] y = target := by
  induction n generalizing y with
  | zero =>
    by_contra away
    obtain ⟨-, less⟩ := closer y side away
    omega
  | succ n ih =>
    rw [Function.iterate_succ_apply]
    by_cases there : y = target
    · rw [there, fixed]
      exact Function.iterate_fixed fixed n
    · obtain ⟨side', less⟩ := closer y side there
      exact ih side' (by omega)

/-! ### The averager -/

/-- The time constant of an average, and what it adds before it divides. -/
structure Averager where
  timeConstant : Nat
  rounding : Nat
  positive : 0 < timeConstant

namespace Averager

variable (averager : Averager)

/-- One sample. -/
def step (sample average : Nat) : Nat :=
  ((averager.timeConstant - 1) * average + sample + averager.rounding) / averager.timeConstant

/-- The highest average that a sample leaves alone. -/
def top (sample : Nat) : Nat := sample + averager.rounding

/-- The lowest average that a sample leaves alone. -/
def bottom (sample : Nat) : Nat := averager.top sample + 1 - averager.timeConstant

variable {averager} {sample average bound : Nat}

theorem le_step_iff : bound ≤ averager.step sample average ↔
    bound * averager.timeConstant ≤ (averager.timeConstant - 1) * average + averager.top sample := by
  rw [step, Nat.le_div_iff_mul_le averager.positive, Nat.add_assoc, top]

theorem step_lt_iff : averager.step sample average < bound ↔
    (averager.timeConstant - 1) * average + averager.top sample < bound * averager.timeConstant := by
  rw [← not_le, le_step_iff, not_le]

/-- The weight of the average, and one more. -/
theorem mul_timeConstant (averager : Averager) (bound : Nat) :
    bound * averager.timeConstant = (averager.timeConstant - 1) * bound + bound := by
  obtain ⟨before, same⟩ := Nat.exists_eq_succ_of_ne_zero averager.positive.ne'
  rw [same, Nat.succ_sub_one, Nat.mul_succ, Nat.mul_comm]

/-- **A bound from above** that a step keeps. -/
theorem step_le (under : average ≤ bound) (small : averager.top sample < bound + averager.timeConstant) :
    averager.step sample average ≤ bound := by
  rw [← Nat.lt_succ_iff, step_lt_iff, Nat.succ_mul, mul_timeConstant]
  have weighted : (averager.timeConstant - 1) * average ≤ (averager.timeConstant - 1) * bound :=
    Nat.mul_le_mul_left _ under
  omega

/-- **A bound from below** that a step keeps. -/
theorem le_step (high : bound ≤ average) (large : bound ≤ averager.top sample) :
    bound ≤ averager.step sample average := by
  rw [le_step_iff, mul_timeConstant]
  exact Nat.add_le_add (Nat.mul_le_mul_left _ high) large

/-- From below, a step adds a part of what is missing. -/
theorem step_below (under : average ≤ averager.top sample) : averager.step sample average =
    average + (averager.top sample - average) / averager.timeConstant := by
  have parts : (averager.timeConstant - 1) * average + sample + averager.rounding =
      averager.top sample - average + average * averager.timeConstant := by
    rw [mul_timeConstant, Nat.add_assoc _ sample, ← top]
    omega
  rw [step, parts, Nat.add_mul_div_right _ _ averager.positive, Nat.add_comm]

/-- From above, a step goes down. -/
theorem step_lt (high : averager.top sample < average) : averager.step sample average < average := by
  rw [step_lt_iff, mul_timeConstant]
  exact Nat.add_lt_add_left high _

/-- From below, a step goes up, and no further than to the lowest average that the sample leaves alone. -/
theorem lt_step (below : average < averager.bottom sample) :
    average < averager.step sample average ∧ averager.step sample average ≤ averager.bottom sample := by
  rw [bottom] at below ⊢
  obtain ⟨missing, parts⟩ : ∃ missing, averager.top sample - average = missing + averager.timeConstant :=
    ⟨averager.top sample - average - averager.timeConstant, by omega⟩
  have part : missing / averager.timeConstant ≤ missing := Nat.div_le_self _ _
  rw [step_below (by omega), parts, Nat.add_div_right _ averager.positive]
  generalize missing / averager.timeConstant = risen at part ⊢
  omega

/-- **The averages that a sample leaves alone.** -/
theorem step_eq_self_iff : averager.step sample average = average ↔
    averager.bottom sample ≤ average ∧ average ≤ averager.top sample := by
  rcases Nat.lt_or_ge (averager.top sample) average with high | under
  · exact ⟨fun same => absurd same (step_lt high).ne, fun inside => absurd inside.2 (Nat.not_le.mpr high)⟩
  · rw [step_below under, Nat.add_eq_left, Nat.div_eq_zero_iff, bottom]
    have positive := averager.positive
    omega

/-- **An average fed with one sample settles.** -/
theorem settles (averager : Averager) (sample average : Nat) : ∃ settled, ∀ n ≥ settled,
    (averager.step sample)^[n] average = max (averager.bottom sample) (min average (averager.top sample)) := by
  have positive := averager.positive
  have order : averager.bottom sample ≤ averager.top sample := by
    rw [bottom]
    omega
  rcases Nat.lt_or_ge (averager.top sample) average with high | under
  · -- down to the highest
    refine ⟨average - averager.top sample, fun n enough => ?_⟩
    rw [min_eq_right high.le, max_eq_right order]
    refine iterate_reaches (fun y => y - averager.top sample) (fun y => averager.top sample ≤ y)
      (step_eq_self_iff.mpr ⟨order, le_rfl⟩) (fun y above away => ?_) high.le enough
    have less := step_lt (Nat.lt_of_le_of_ne above away.symm)
    exact ⟨le_step above le_rfl, by omega⟩
  · rw [min_eq_left under]
    rcases Nat.lt_or_ge average (averager.bottom sample) with below | inside
    · -- up to the lowest
      refine ⟨averager.bottom sample - average, fun n enough => ?_⟩
      rw [max_eq_left below.le]
      refine iterate_reaches (fun y => averager.bottom sample - y) (fun y => y ≤ averager.bottom sample)
        (step_eq_self_iff.mpr ⟨le_rfl, order⟩) (fun y under away => ?_) below.le enough
      obtain ⟨more, inside⟩ := lt_step (Nat.lt_of_le_of_ne under away)
      exact ⟨inside, by omega⟩
    · refine ⟨0, fun n _ => ?_⟩
      rw [max_eq_right inside]
      exact Function.iterate_fixed (step_eq_self_iff.mpr ⟨inside, under⟩) n

end Averager

end Baps.Signal
