/-
**Tilings: a span of addresses cut into pieces.**

A family of optional spans tiles a pool if every address of the pool lies in exactly one of them and no
other address lies in any. Splitting a piece in two and merging a piece with the one behind it keep a
tiling; what an allocator does to its table is made of these two.

* `Tiles.split`, `Tiles.merge` — **the two moves**.
* `Tiles.next` — a piece that does not end the pool is followed by another.
* `Tiles.whole` — without neighbours among them, the pieces are one piece.
-/

import Mathlib.Logic.Function.Basic
import Mathlib.Tactic.ByContra

namespace Baps.Memory

/-- The addresses from `start` on, `length` of them. -/
structure Span where
  start : Nat
  length : Nat
  deriving DecidableEq, Repr

/-- An address of the span. -/
def Span.Holds (span : Span) (address : Nat) : Prop :=
  span.start ≤ address ∧ address < span.start + span.length

/-- Pieces that cover a pool, each address once. -/
structure Tiles {ι : Type} (pool : Span) (piece : ι → Option Span) : Prop where
  nonempty : ∀ i span, piece i = some span → 0 < span.length
  unique : ∀ i j first second address, piece i = some first → piece j = some second →
    first.Holds address → second.Holds address → i = j
  covers : ∀ address, pool.Holds address ↔ ∃ i span, piece i = some span ∧ span.Holds address

namespace Tiles

variable {ι : Type} {pool first second : Span} {piece : ι → Option Span} {i j : ι}

theorem holds_start (tiles : Tiles pool piece) (at_i : piece i = some first) :
    first.Holds first.start :=
  ⟨Nat.le_refl _, Nat.lt_add_of_pos_right (tiles.nonempty i first at_i)⟩

/-- Pieces start at different addresses. -/
theorem start_inj (tiles : Tiles pool piece) (at_i : piece i = some first)
    (at_j : piece j = some second) (same : first.start = second.start) : i = j := by
  refine tiles.unique i j first second first.start at_i at_j (tiles.holds_start at_i) ?_
  rw [same]
  exact tiles.holds_start at_j

/-- Pieces lie in the pool. -/
theorem inside (tiles : Tiles pool piece) (at_i : piece i = some first) :
    pool.start ≤ first.start ∧ first.start + first.length ≤ pool.start + pool.length := by
  have positive := tiles.nonempty i first at_i
  have low : pool.Holds first.start := (tiles.covers _).mpr ⟨i, first, at_i, tiles.holds_start at_i⟩
  have high : pool.Holds (first.start + first.length - 1) :=
    (tiles.covers _).mpr ⟨i, first, at_i, by unfold Span.Holds; omega⟩
  unfold Span.Holds at low high
  omega

/-- Two pieces are one behind the other. -/
theorem apart (tiles : Tiles pool piece) (at_i : piece i = some first) (at_j : piece j = some second)
    (ne : i ≠ j) :
    first.start + first.length ≤ second.start ∨ second.start + second.length ≤ first.start := by
  by_contra overlap
  have start_i := tiles.nonempty i first at_i
  have start_j := tiles.nonempty j second at_j
  refine ne (tiles.unique i j first second (max first.start second.start) at_i at_j ?_ ?_)
  · unfold Span.Holds
    omega
  · unfold Span.Holds
    omega

/-- The piece behind a piece. -/
theorem next (tiles : Tiles pool piece) (at_i : piece i = some first)
    (more : first.start + first.length < pool.start + pool.length) :
    ∃ j second, piece j = some second ∧ second.start = first.start + first.length := by
  have within := tiles.inside at_i
  have positive := tiles.nonempty i first at_i
  obtain ⟨j, second, at_j, holds⟩ := (tiles.covers (first.start + first.length)).mp
    (by unfold Span.Holds; omega)
  refine ⟨j, second, at_j, ?_⟩
  have ne : i ≠ j := by
    rintro rfl
    obtain rfl : first = second := Option.some.inj (at_i.symm.trans at_j)
    unfold Span.Holds at holds
    omega
  have apart := tiles.apart at_i at_j ne
  unfold Span.Holds at holds
  omega

/-- A tiling without neighbours is one piece. -/
theorem whole (tiles : Tiles pool piece) (some_pool : 0 < pool.length)
    (lonely : ∀ i j first second, piece i = some first → piece j = some second →
      first.start + first.length ≠ second.start) :
    ∃ i, piece i = some pool ∧ ∀ j, j ≠ i → piece j = none := by
  obtain ⟨i, first, at_i, holds⟩ := (tiles.covers pool.start).mp ⟨Nat.le_refl _, by omega⟩
  have within := tiles.inside at_i
  have full : first.start + first.length = pool.start + pool.length := by
    by_contra short
    obtain ⟨j, second, at_j, behind⟩ := tiles.next at_i (by omega)
    exact lonely i j first second at_i at_j behind.symm
  have start : first.start = pool.start := Nat.le_antisymm holds.1 within.1
  have same : first = pool := by
    cases first
    cases pool
    simp only [Span.mk.injEq] at *
    omega
  refine ⟨i, same ▸ at_i, fun j ne => ?_⟩
  cases at_j : piece j with
  | none => rfl
  | some second =>
    have inPool := tiles.inside at_j
    have positive := tiles.nonempty j second at_j
    have apart := tiles.apart at_i at_j ne.symm
    omega

/-- The piece in place `i` has the address. -/
def Owns (piece : ι → Option Span) (i : ι) (address : Nat) : Prop :=
  ∃ span, piece i = some span ∧ span.Holds address

theorem owner (tiles : Tiles pool piece) {k l : ι} {address : Nat} (mine : Owns piece k address)
    (yours : Owns piece l address) : k = l := by
  obtain ⟨first, at_k, holds⟩ := mine
  obtain ⟨second, at_l, also⟩ := yours
  exact tiles.unique k l first second address at_k at_l holds also

/-- Two places whose pieces are cut anew. -/
structure Recut (piece after : ι → Option Span) (i j : ι) : Prop where
  outside : ∀ k, k ≠ i → k ≠ j → after k = piece k
  nonempty : ∀ k span, k = i ∨ k = j → after k = some span → 0 < span.length
  apart : ∀ address, Owns after i address → Owns after j address → i = j
  same : ∀ address, Owns after i address ∨ Owns after j address ↔
    Owns piece i address ∨ Owns piece j address

section Recut

variable {after : ι → Option Span} {k l : ι} {address : Nat}

/-- The other places keep their addresses. -/
theorem Recut.kept (cut : Recut piece after i j) (other : ¬ (k = i ∨ k = j)) :
    Owns after k address ↔ Owns piece k address := by
  rw [not_or] at other
  unfold Owns
  rw [cut.outside k other.1 other.2]

/-- An address of the two places was one before. -/
theorem Recut.before (cut : Recut piece after i j) (moved : k = i ∨ k = j)
    (owns : Owns after k address) : ∃ l, (l = i ∨ l = j) ∧ Owns piece l address := by
  have either : Owns after i address ∨ Owns after j address := by
    rcases moved with rfl | rfl
    · exact .inl owns
    · exact .inr owns
  rcases (cut.same address).mp either with first | second
  · exact ⟨i, .inl rfl, first⟩
  · exact ⟨j, .inr rfl, second⟩

/-- An address of the two places is one after. -/
theorem Recut.owned (cut : Recut piece after i j) (moved : k = i ∨ k = j)
    (owns : Owns piece k address) : ∃ l, Owns after l address := by
  have either : Owns piece i address ∨ Owns piece j address := by
    rcases moved with rfl | rfl
    · exact .inl owns
    · exact .inr owns
  rcases (cut.same address).mpr either with first | second
  · exact ⟨i, first⟩
  · exact ⟨j, second⟩

/-- An address of the two places belongs to no other. -/
theorem Recut.not_other (tiles : Tiles pool piece) (cut : Recut piece after i j) (moved : k = i ∨ k = j)
    (other : ¬ (l = i ∨ l = j)) (mine : Owns after k address) : ¬ Owns after l address := by
  intro yours
  obtain ⟨m, also, owns⟩ := cut.before moved mine
  exact other (tiles.owner owns (cut.kept other |>.mp yours) ▸ also)

theorem Recut.unique (tiles : Tiles pool piece) (cut : Recut piece after i j)
    (mine : Owns after k address) (yours : Owns after l address) : k = l := by
  by_cases moved_k : k = i ∨ k = j
  · by_cases moved_l : l = i ∨ l = j
    · rcases moved_k with rfl | rfl <;> rcases moved_l with rfl | rfl
      · rfl
      · exact cut.apart address mine yours
      · exact (cut.apart address yours mine).symm
      · rfl
    · exact absurd yours (cut.not_other tiles moved_k moved_l mine)
  · by_cases moved_l : l = i ∨ l = j
    · exact absurd mine (cut.not_other tiles moved_l moved_k yours)
    · exact tiles.owner ((cut.kept moved_k).mp mine) ((cut.kept moved_l).mp yours)

theorem recut (tiles : Tiles pool piece) (cut : Recut piece after i j) : Tiles pool after := by
  refine ⟨fun k span at_k => ?_, fun k l first second address at_k at_l holds also =>
    cut.unique tiles ⟨first, at_k, holds⟩ ⟨second, at_l, also⟩,
    fun address => (tiles.covers address).trans ?_⟩
  · by_cases moved : k = i ∨ k = j
    · exact cut.nonempty k span moved at_k
    · rw [not_or] at moved
      exact tiles.nonempty k span ((cut.outside k moved.1 moved.2).symm.trans at_k)
  · show (∃ k, Owns piece k address) ↔ ∃ k, Owns after k address
    constructor
    · rintro ⟨k, owns⟩
      by_cases moved : k = i ∨ k = j
      · exact cut.owned moved owns
      · exact ⟨k, (cut.kept moved).mpr owns⟩
    · rintro ⟨k, owns⟩
      by_cases moved : k = i ∨ k = j
      · obtain ⟨l, -, before⟩ := cut.before moved owns
        exact ⟨l, before⟩
      · exact ⟨k, (cut.kept moved).mp owns⟩

end Recut

variable [DecidableEq ι]

/-- **A piece is cut in two**, the rear part in an unused place. -/
theorem split (tiles : Tiles pool piece) (at_i : piece i = some first) (at_j : piece j = none)
    {front : Nat} (positive : 0 < front) (shorter : front < first.length) :
    Tiles pool (Function.update (Function.update piece j
      (some ⟨first.start + front, first.length - front⟩)) i (some ⟨first.start, front⟩)) := by
  have ne : i ≠ j := by
    rintro rfl
    rw [at_i] at at_j
    cases at_j
  refine tiles.recut (i := i) (j := j) ⟨fun k ne_i ne_j => ?_, fun k span moved at_k => ?_,
    fun address => ?_, fun address => ?_⟩
  · rw [Function.update_of_ne ne_i, Function.update_of_ne ne_j]
  · rcases moved with rfl | rfl
    · obtain rfl : ⟨first.start, front⟩ = span := by simpa using at_k
      exact positive
    · obtain rfl : ⟨first.start + front, first.length - front⟩ = span := by
        simpa [ne.symm] using at_k
      show 0 < first.length - front
      omega
  · simp only [Owns, Function.update_self, Function.update_of_ne ne.symm, Option.some.injEq,
      exists_eq_left', Span.Holds]
    omega
  · simp only [Owns, Function.update_self, Function.update_of_ne ne.symm, Option.some.injEq,
      exists_eq_left', Span.Holds, at_i, at_j, reduceCtorEq, false_and, exists_false, or_false]
    omega

/-- **A piece takes in the one behind it.** -/
theorem merge (tiles : Tiles pool piece) (at_i : piece i = some first) (at_j : piece j = some second)
    (behind : first.start + first.length = second.start) :
    Tiles pool (Function.update (Function.update piece j none) i
      (some ⟨first.start, first.length + second.length⟩)) := by
  have positive := tiles.nonempty i first at_i
  have ne : i ≠ j := by
    rintro rfl
    obtain rfl : first = second := Option.some.inj (at_i.symm.trans at_j)
    omega
  refine tiles.recut (i := i) (j := j) ⟨fun k ne_i ne_j => ?_, fun k span moved at_k => ?_,
    fun address => ?_, fun address => ?_⟩
  · rw [Function.update_of_ne ne_i, Function.update_of_ne ne_j]
  · rcases moved with rfl | rfl
    · obtain rfl : ⟨first.start, first.length + second.length⟩ = span := by simpa using at_k
      show 0 < first.length + second.length
      omega
    · simp [ne.symm] at at_k
  · simp [Owns, ne.symm]
  · simp only [Owns, Function.update_self, Function.update_of_ne ne.symm, Option.some.injEq,
      exists_eq_left', Span.Holds, at_i, at_j, reduceCtorEq, false_and, exists_false, or_false]
    omega

end Tiles

end Baps.Memory
