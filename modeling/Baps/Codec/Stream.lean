/-
**A function with a state, over a stream of blocks.**

* `through f state blocks` — **the outputs for the blocks in order**, and the state after them;
  `through_append` is how it runs over two streams, one behind the other.
* `foldlM_keeps` — **the run rule** for calls that could fail: what each of them keeps, any of them keep.
-/

import Mathlib.Data.List.Basic

namespace Baps.Codec

variable {σ α β : Type} {f : σ → α → σ × List β}

/-- Apply a function with a state to blocks, in order. -/
def through (f : σ → α → σ × List β) (state : σ) : List α → σ × List β
  | [] => (state, [])
  | block :: rest =>
      let here := f state block
      let later := through f here.1 rest
      (later.1, here.2 ++ later.2)

theorem through_cons (state : σ) (block : α) (rest : List α) : through f state (block :: rest) =
    ((through f (f state block).1 rest).1, (f state block).2 ++ (through f (f state block).1 rest).2) :=
  rfl

/-- **One stream behind another.** -/
theorem through_append (state : σ) (first second : List α) : through f state (first ++ second) =
    ((through f (through f state first).1 second).1,
      (through f state first).2 ++ (through f (through f state first).1 second).2) := by
  induction first generalizing state with
  | nil => rfl
  | cons block rest ih =>
    rw [List.cons_append, through_cons, ih, through_cons]
    simp only [List.append_assoc]

/-- Outputs of one size. -/
theorem length_through {size : Nat} (each : ∀ state block, (f state block).2.length = size)
    (state : σ) (blocks : List α) : (through f state blocks).2.length = size * blocks.length := by
  induction blocks generalizing state with
  | nil => rfl
  | cons block rest ih =>
    rw [through_cons, List.length_append, each, ih, List.length_cons, Nat.mul_succ]
    exact Nat.add_comm size _

/-- **What each call keeps, any calls keep.** `P` may speak of the calls so far. -/
theorem foldlM_keeps {step : σ → α → Option σ} {P : List α → σ → Prop}
    (keeps : ∀ past state call, P past state →
      ∃ next, step state call = some next ∧ P (past ++ [call]) next)
    (past : List α) {state : σ} (now : P past state) (calls : List α) :
    ∃ last, calls.foldlM step state = some last ∧ P (past ++ calls) last := by
  induction calls generalizing past state with
  | nil => exact ⟨state, rfl, by rwa [List.append_nil]⟩
  | cons call rest ih =>
    obtain ⟨next, eq, kept⟩ := keeps past state call now
    obtain ⟨last, run, holds⟩ := ih _ kept
    refine ⟨last, ?_, by rwa [List.append_assoc] at holds⟩
    rw [List.foldlM_cons, eq]
    exact run

end Baps.Codec
