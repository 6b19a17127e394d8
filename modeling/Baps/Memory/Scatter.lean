/-
**Stores one after another.**

`scatter place value stores memory` stores `value i` at `place i` for every `i` of a list, in order. Copying
out of a memory into variables is the same with the variables as places.

* `scatter_elsewhere` — **places that nothing is stored at** keep what they have.
* `scatter_at` — **the value at a place**, when the stores to it agree.
-/

import Mathlib.Logic.Function.Basic

namespace Baps.Memory

variable {ι α β : Type} [DecidableEq α]

/-- The stores of a list, in order. -/
def scatter (place : ι → α) (value : ι → β) (stores : List ι) (memory : α → β) : α → β :=
  stores.foldl (fun memory i => Function.update memory (place i) (value i)) memory

section

variable {place : ι → α} {value : ι → β} {stores : List ι} {a : α}

theorem scatter_elsewhere (elsewhere : ∀ i ∈ stores, place i ≠ a) (memory : α → β) :
    scatter place value stores memory a = memory a := by
  induction stores generalizing memory with
  | nil => rfl
  | cons i rest ih =>
    have here : a ≠ place i := (elsewhere i List.mem_cons_self).symm
    calc
      scatter place value (i :: rest) memory a = Function.update memory (place i) (value i) a :=
        ih (fun j member => elsewhere j (List.mem_cons_of_mem i member)) _
      _ = memory a := Function.update_of_ne here _ _

theorem scatter_at {b : β} (stored : ∃ i ∈ stores, place i = a)
    (agree : ∀ i ∈ stores, place i = a → value i = b) (memory : α → β) :
    scatter place value stores memory a = b := by
  induction stores generalizing memory with
  | nil =>
    obtain ⟨i, member, -⟩ := stored
    exact absurd member List.not_mem_nil
  | cons i rest ih =>
    have later : ∀ j ∈ rest, place j = a → value j = b :=
      fun j member => agree j (List.mem_cons_of_mem i member)
    by_cases again : ∃ j ∈ rest, place j = a
    · exact ih again later _
    · have last : ∀ j ∈ rest, place j ≠ a := fun j member same => again ⟨j, member, same⟩
      have here : place i = a := by
        obtain ⟨j, member, same⟩ := stored
        rcases List.mem_cons.mp member with rfl | inRest
        · exact same
        · exact absurd same (last j inRest)
      calc
        scatter place value (i :: rest) memory a = Function.update memory (place i) (value i) a :=
          scatter_elsewhere last _
        _ = value i := by rw [here, Function.update_self]
        _ = b := agree i List.mem_cons_self here

end

end Baps.Memory
