/-
**A set in a table.**

A table keeps the elements of a set, each in one of its places; the other places are empty. An element goes to
any place that is empty, and leaves its place empty.

* `Stored.put`, `Stored.remove` — **the two moves**;
* `Stored.card_lt_iff` — **a place is empty** as long as there are fewer elements than places;
* `Stored.listed` — going through the places finds every element once.
-/

import Mathlib.Data.Finset.Card
import Mathlib.Data.Finset.Image
import Mathlib.Data.List.Dedup

namespace Baps.Memory

variable {α : Type}

/-- What is in the places of a table is the set, and nothing is there twice. -/
structure Stored (empty : α) (places : Finset Nat) (table : Nat → α) (set : Finset α) : Prop where
  mem_iff : ∀ a, a ∈ set ↔ a ≠ empty ∧ ∃ i ∈ places, table i = a
  apart : ∀ i ∈ places, ∀ j ∈ places, table i = table j → table i ≠ empty → i = j

namespace Stored

variable {empty a : α} {places fewer : Finset Nat} {table table' : Nat → α} {set : Finset α} {i : Nat}

theorem none (empty : α) (places : Finset Nat) : Stored empty places (fun _ => empty) ∅ where
  mem_iff a := by
    constructor
    · exact fun bad => absurd bad (Finset.notMem_empty a)
    · rintro ⟨some, -, -, rfl⟩
      exact absurd rfl some
  apart _ _ _ _ _ some := absurd rfl some

/-- Other places do not matter. -/
theorem congr (stored : Stored empty places table set) (same : ∀ i ∈ places, table' i = table i) :
    Stored empty places table' set where
  mem_iff a := by
    rw [stored.mem_iff]
    refine and_congr_right fun _ => exists_congr fun i => and_congr_right fun inside => ?_
    rw [same i inside]
  apart i left j right eq some := by
    rw [same i left, same j right] at eq
    rw [same i left] at some
    exact stored.apart i left j right eq some

/-- Empty places may be left out. -/
theorem part (stored : Stored empty places table set) (less : fewer ⊆ places)
    (rest : ∀ i ∈ places, i ∉ fewer → table i = empty) : Stored empty fewer table set where
  mem_iff a := by
    rw [stored.mem_iff]
    constructor
    · rintro ⟨some, i, inside, rfl⟩
      exact ⟨some, i, by_contra fun outside => some (rest i inside outside), rfl⟩
    · rintro ⟨some, i, inside, rfl⟩
      exact ⟨some, i, less inside, rfl⟩
  apart i left j right := stored.apart i (less left) j (less right)

variable [DecidableEq α]

/-- An element goes to an empty place. -/
theorem put (stored : Stored empty places table set) (inside : i ∈ places) (free : table i = empty)
    (some : a ≠ empty) (fresh : a ∉ set) : Stored empty places (Function.update table i a) (insert a set) where
  mem_iff b := by
    rw [Finset.mem_insert, stored.mem_iff]
    constructor
    · rintro (rfl | ⟨full, j, there, rfl⟩)
      · exact ⟨some, i, inside, Function.update_self i b table⟩
      · have other : j ≠ i := by
          rintro rfl
          exact full free
        exact ⟨full, j, there, Function.update_of_ne other a table⟩
    · rintro ⟨full, j, there, rfl⟩
      by_cases same : j = i
      · rw [same, Function.update_self]
        exact Or.inl rfl
      · rw [Function.update_of_ne same] at full ⊢
        exact Or.inr ⟨full, j, there, rfl⟩
  apart j left k right eq full := by
    have elsewhere (l : Nat) (there : l ∈ places) (eq : table l = a) : False :=
      fresh ((stored.mem_iff a).mpr ⟨some, l, there, eq⟩)
    by_cases first : j = i
    · by_cases second : k = i
      · rw [first, second]
      · rw [first, Function.update_self, Function.update_of_ne second] at eq
        exact (elsewhere k right eq.symm).elim
    · rw [Function.update_of_ne first] at eq full
      by_cases second : k = i
      · rw [second, Function.update_self] at eq
        exact (elsewhere j left eq).elim
      · rw [Function.update_of_ne second] at eq
        exact stored.apart j left k right eq full

/-- An element leaves its place empty. -/
theorem remove (stored : Stored empty places table set) (inside : i ∈ places) (some : table i ≠ empty) :
    Stored empty places (Function.update table i empty) (set.erase (table i)) where
  mem_iff b := by
    rw [Finset.mem_erase, stored.mem_iff]
    constructor
    · rintro ⟨other, full, j, there, rfl⟩
      have apart : j ≠ i := fun same => other (same ▸ rfl)
      exact ⟨full, j, there, Function.update_of_ne apart empty table⟩
    · rintro ⟨full, j, there, rfl⟩
      have apart : j ≠ i := by
        rintro rfl
        exact full (Function.update_self j empty table)
      rw [Function.update_of_ne apart] at full ⊢
      exact ⟨fun same => apart (stored.apart j there i inside same full), full, j, there, rfl⟩
  apart j left k right eq full := by
    have other (l : Nat) (full : Function.update table i empty l ≠ empty) : l ≠ i := by
      rintro rfl
      exact full (Function.update_self l empty table)
    have first := other j full
    have second := other k (eq ▸ full)
    rw [Function.update_of_ne first] at eq full
    rw [Function.update_of_ne second] at eq
    exact stored.apart j left k right eq full

/-- There are as many elements as places that are not empty. -/
theorem card_eq (stored : Stored empty places table set) :
    set.card = (places.filter fun i => table i ≠ empty).card := by
  have image : (places.filter fun i => table i ≠ empty).image table = set := by
    ext a
    rw [Finset.mem_image, stored.mem_iff]
    constructor
    · rintro ⟨i, inside, rfl⟩
      obtain ⟨there, some⟩ := Finset.mem_filter.mp inside
      exact ⟨some, i, there, rfl⟩
    · rintro ⟨some, i, there, rfl⟩
      exact ⟨i, Finset.mem_filter.mpr ⟨there, some⟩, rfl⟩
  rw [← image]
  apply Finset.card_image_of_injOn
  intro i left j right eq
  obtain ⟨there, some⟩ := Finset.mem_filter.mp left
  exact stored.apart i there j (Finset.mem_filter.mp right).1 eq some

/-- **A place is empty** just if there are fewer elements than places. -/
theorem card_lt_iff (stored : Stored empty places table set) :
    set.card < places.card ↔ ∃ i ∈ places, table i = empty := by
  have le := Finset.card_filter_le places fun i => table i ≠ empty
  rw [stored.card_eq, lt_iff_le_and_ne, and_iff_right le, Ne, Finset.card_filter_eq_iff]
  push Not
  rfl

/-- **Going through the places finds every element once.** -/
theorem listed {xs : List Nat} (nodup : xs.Nodup) (stored : Stored empty xs.toFinset table set) :
    ((xs.map table).filter (· ≠ empty)).Nodup ∧ ((xs.map table).filter (· ≠ empty)).toFinset = set := by
  constructor
  · rw [List.filter_map]
    apply List.Nodup.map_on
    · intro i left j right eq
      obtain ⟨there, some⟩ := List.mem_filter.mp left
      exact stored.apart i (List.mem_toFinset.mpr there) j
        (List.mem_toFinset.mpr (List.mem_filter.mp right).1) eq (of_decide_eq_true some)
    · exact nodup.filter _
  · ext a
    rw [List.mem_toFinset, List.mem_filter, List.mem_map, stored.mem_iff, and_comm, decide_eq_true_iff]
    refine and_congr_right fun _ => exists_congr fun i => and_congr_left fun _ => ?_
    exact List.mem_toFinset.symm

end Stored

end Baps.Memory
