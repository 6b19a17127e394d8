/-
**Aliases: two tables that are inverse to each other.**

A name may have an alias, and an alias may stand for a name; `0` is none of either. `Paired` says that the two
tables agree. Giving an alias to a name and taking it away keep that, and one is free as long as fewer names
have an alias than there are.

* `Paired.bind`, `Paired.release` — **the two moves**;
* `Paired.exists_free` — **an alias is free**.
-/

import Mathlib.Data.Finset.Card
import Mathlib.Order.Interval.Finset.Nat
import Mathlib.Logic.Function.Basic

namespace Baps.Memory

/-- The aliases of names, and the names of aliases. -/
structure Paired (alias_ name : Nat → Nat) : Prop where
  name_alias : ∀ x, alias_ x ≠ 0 → name (alias_ x) = x
  alias_name : ∀ a, name a ≠ 0 → alias_ (name a) = a
  alias_zero : alias_ 0 = 0
  name_zero : name 0 = 0

namespace Paired

variable {alias_ name : Nat → Nat} {x y a : Nat}

theorem empty : Paired (fun _ => 0) fun _ => 0 :=
  ⟨fun _ none => absurd rfl none, fun _ none => absurd rfl none, rfl, rfl⟩

/-- Different names have different aliases. -/
theorem alias_inj (paired : Paired alias_ name) (some : alias_ x ≠ 0) (same : alias_ x = alias_ y) : x = y := by
  have other : alias_ y ≠ 0 := same ▸ some
  rw [← paired.name_alias x some, same, paired.name_alias y other]

/-- An alias is in use where it stands for a name. -/
theorem name_ne_zero (paired : Paired alias_ name) (some : alias_ x ≠ 0) : name (alias_ x) ≠ 0 := by
  rw [paired.name_alias x some]
  rintro rfl
  exact some paired.alias_zero

/-- **A name is given an alias.** -/
theorem bind (paired : Paired alias_ name) (x_pos : x ≠ 0) (a_pos : a ≠ 0) (none : alias_ x = 0)
    (free : name a = 0) : Paired (Function.update alias_ x a) (Function.update name a x) where
  name_alias y some := by
    by_cases same : y = x
    · rw [same, Function.update_self, Function.update_self]
    · rw [Function.update_of_ne same] at some ⊢
      have taken : alias_ y ≠ a := fun bad => paired.name_ne_zero some (bad ▸ free)
      rw [Function.update_of_ne taken, paired.name_alias y some]
  alias_name b some := by
    by_cases same : b = a
    · rw [same, Function.update_self, Function.update_self]
    · rw [Function.update_of_ne same] at some ⊢
      have other : name b ≠ x := fun bad => by
        have back := paired.alias_name b some
        rw [bad, none] at back
        rw [← back] at some
        exact some paired.name_zero
      rw [Function.update_of_ne other, paired.alias_name b some]
  alias_zero := by rw [Function.update_of_ne (Ne.symm x_pos), paired.alias_zero]
  name_zero := by rw [Function.update_of_ne (Ne.symm a_pos), paired.name_zero]

/-- **A name loses its alias.** -/
theorem release (paired : Paired alias_ name) (some : alias_ x ≠ 0) :
    Paired (Function.update alias_ x 0) (Function.update name (alias_ x) 0) where
  name_alias y some' := by
    by_cases same : y = x
    · rw [same, Function.update_self] at some'
      exact absurd rfl some'
    · rw [Function.update_of_ne same] at some' ⊢
      have other : alias_ y ≠ alias_ x := fun bad => same (paired.alias_inj some' bad)
      rw [Function.update_of_ne other, paired.name_alias y some']
  alias_name b some' := by
    by_cases same : b = alias_ x
    · rw [same, Function.update_self] at some'
      exact absurd rfl some'
    · rw [Function.update_of_ne same] at some' ⊢
      have other : name b ≠ x := fun bad => same (by rw [← paired.alias_name b some', bad])
      rw [Function.update_of_ne other, paired.alias_name b some']
  alias_zero := by
    by_cases zero : 0 = x
    · rw [← zero, Function.update_self]
    · rw [Function.update_of_ne zero, paired.alias_zero]
  name_zero := by rw [Function.update_of_ne (Ne.symm some), paired.name_zero]

/-- **An alias is free** where fewer names have one than there are. -/
theorem exists_free (paired : Paired alias_ name) {names : Finset Nat} {count : Nat}
    (among : ∀ y, alias_ y ≠ 0 → y ∈ names) (fewer : names.card < (Finset.Ico 1 count).card) :
    ∃ a, 1 ≤ a ∧ a < count ∧ name a = 0 := by
  by_contra all
  have taken (a : Nat) (inside : a ∈ Finset.Ico 1 count) : name a ≠ 0 := fun free => by
    rw [Finset.mem_Ico] at inside
    exact all ⟨a, inside.1, inside.2, free⟩
  have others : ∀ a ∈ Finset.Ico 1 count, name a ∈ names := by
    intro a inside
    have back := paired.alias_name a (taken a inside)
    rw [Finset.mem_Ico] at inside
    exact among _ (by omega)
  obtain ⟨a, a_in, b, b_in, differ, same⟩ := Finset.exists_ne_map_eq_of_card_lt_of_maps_to fewer others
  apply differ
  rw [← paired.alias_name a (taken a a_in), same, paired.alias_name b (taken b b_in)]

end Paired

end Baps.Memory
