/-
**Slots in a circle, filled and emptied through two cursors.**

A store has `size` slots, and two cursors run around it: `inbuf` is the slot to fill next, `outbuf` the
slot to empty next. A cursor is `-1` while it has no slot, so that a full store and an empty one are
told apart without a count.

`Lap` describes such a store by the slots of one lap around it, from `outbuf` on: the ones that are
filled, and behind them the ones that are free.

* `Lap.start` — the cursors at the start;
* `Lap.fill`, `Lap.empty` — **what the two cursors do to the lap**, for two slots or more;
* `Lap.write_free`, `Lap.write_filled` — what a write to the slot of a cursor does to it;
* `Lap.inbuf_nonneg_iff`, `Lap.outbuf_nonneg_iff` — what a cursor says of the lap.
-/

import Mathlib.Data.Int.ModEq
import Mathlib.Data.List.Basic
import Mathlib.Logic.Function.Basic

namespace Baps.Memory

/-- Where the next slot is filled, and where the next one is emptied; `-1` is no slot. -/
structure Cursors where
  inbuf : Int
  outbuf : Int
  deriving DecidableEq, Repr

namespace Cursors

/-- The slot at `inbuf` has been filled. -/
def fill (size : Nat) (cursors : Cursors) : Cursors :=
  let moved := (cursors.inbuf + 1) % (size : Int)
  { inbuf := if moved = cursors.outbuf then -1 else moved
    outbuf := if cursors.outbuf < 0 then cursors.inbuf else cursors.outbuf }

/-- The slot at `outbuf` has been emptied. -/
def empty (size : Nat) (cursors : Cursors) : Cursors :=
  let moved := (cursors.outbuf + 1) % (size : Int)
  { inbuf := if cursors.inbuf < 0 then cursors.outbuf else cursors.inbuf
    outbuf := if moved = cursors.inbuf then -1 else moved }

end Cursors

variable {α : Type}

/-- One lap around the slots, from `first` on. -/
def around (slots : Nat → α) (size first : Nat) : List α :=
  (List.range size).map fun i => slots ((first + i) % size)

/-- The lap around the slots that begins at `first` is made of the filled slots and the free ones, and
the cursors stand at the first of each. -/
structure Lap (size : Nat) (cursors : Cursors) (slots : Nat → α) (first : Nat)
    (filled free : List α) : Prop where
  first_lt : first < size
  around_eq : around slots size first = filled ++ free
  inbuf_eq : cursors.inbuf = if free = [] then (-1 : Int) else ((first + filled.length) % size : Nat)
  outbuf_eq : cursors.outbuf = if filled = [] then -1 else (first : Int)

/-! ### Laps -/

section

variable {slots : Nat → α} {size first : Nat}

@[simp] theorem length_around (slots : Nat → α) (size first : Nat) :
    (around slots size first).length = size := by
  rw [around, List.length_map, List.length_range]

theorem getElem?_around (slots : Nat → α) (first : Nat) {i : Nat} (inside : i < size) :
    (around slots size first)[i]? = some (slots ((first + i) % size)) := by
  rw [around, List.getElem?_map, List.getElem?_range inside]
  rfl

/-- Slots of one lap differ. -/
theorem turn_inj {i j : Nat} (left : i < size) (right : j < size)
    (same : (first + i) % size = (first + j) % size) : i = j := by
  have congruent : i % size = j % size := Nat.ModEq.add_left_cancel' first same
  rwa [Nat.mod_eq_of_lt left, Nat.mod_eq_of_lt right] at congruent

/-- Every slot is on the lap. -/
theorem mem_around (slots : Nat → α) (inside : first < size) {x : Nat} (slot : x < size) :
    slots x ∈ around slots size first := by
  refine List.mem_map.mpr ⟨(x + (size - first)) % size, List.mem_range.mpr
    (Nat.mod_lt _ (Nat.zero_lt_of_lt slot)), congrArg slots ?_⟩
  rw [Nat.add_mod_mod, show first + (x + (size - first)) = x + size by omega, Nat.add_mod_right,
    Nat.mod_eq_of_lt slot]

/-- A write to one slot is a write to one place of the lap. -/
theorem around_update (slots : Nat → α) (first : Nat) {i : Nat} (inside : i < size) (value : α) :
    around (Function.update slots ((first + i) % size) value) size first
      = (around slots size first).set i value := by
  refine List.ext_getElem? fun j => ?_
  by_cases within : j < size
  · rw [getElem?_around _ _ within, List.getElem?_set, length_around]
    by_cases same : i = j
    · rw [if_pos same, if_pos inside, ← same, Function.update_self]
    · have apart : (first + j) % size ≠ (first + i) % size := fun meet =>
        same (turn_inj within inside meet).symm
      rw [if_neg same, Function.update_of_ne apart, getElem?_around _ _ within]
  · have outside : size ≤ j := Nat.le_of_not_lt within
    rw [List.getElem?_eq_none (by rwa [length_around]),
      List.getElem?_eq_none (by rwa [List.length_set, length_around])]

/-- A lap that begins one slot later. -/
theorem around_next {x : α} {rest : List α} (lap : around slots size first = x :: rest)
    (first_lt : first < size) : around slots size ((first + 1) % size) = rest ++ [x] := by
  obtain ⟨more, rfl⟩ : ∃ more, size = more + 1 := ⟨size - 1, by omega⟩
  have later : ∀ i, ((first + 1) % (more + 1) + i) % (more + 1) = (first + (i + 1)) % (more + 1) := by
    intro i
    rw [Nat.mod_add_mod, Nat.add_assoc, Nat.add_comm 1 i]
  rw [around, List.range_succ_eq_map, List.map_cons, List.map_map] at lap
  obtain ⟨head, tail⟩ := List.cons.inj lap
  rw [around, List.range_succ, List.map_append, List.map_singleton, later, ← tail, ← head]
  congr 1
  · exact List.map_congr_left fun i _ => congrArg slots (later i)
  · rw [Nat.add_mod_right]
    rfl

end

/-! ### The cursors on a lap -/

namespace Lap

variable {size first : Nat} {cursors : Cursors} {slots : Nat → α} {x : α} {filled free : List α}

theorem length_eq (lap : Lap size cursors slots first filled free) :
    filled.length + free.length = size := by
  rw [← List.length_append, ← lap.around_eq, length_around]

/-- **The start:** every slot is free. -/
theorem start (slots : Nat → α) (positive : 0 < size) :
    Lap size ⟨0, -1⟩ slots 0 [] (around slots size 0) where
  first_lt := positive
  around_eq := rfl
  inbuf_eq := by
    have some : around slots size 0 ≠ [] := by
      rw [← List.length_pos_iff, length_around]
      exact positive
    rw [if_neg some, List.length_nil, Nat.zero_mod]
    rfl
  outbuf_eq := rfl

theorem inbuf_nonneg_iff (lap : Lap size cursors slots first filled free) :
    0 ≤ cursors.inbuf ↔ free ≠ [] := by
  rw [lap.inbuf_eq]
  split
  next none => exact iff_of_false (by omega) (not_not_intro none)
  next some => exact iff_of_true (Int.natCast_nonneg _) some

theorem outbuf_nonneg_iff (lap : Lap size cursors slots first filled free) :
    0 ≤ cursors.outbuf ↔ filled ≠ [] := by
  rw [lap.outbuf_eq]
  split
  next none => exact iff_of_false (by omega) (not_not_intro none)
  next some => exact iff_of_true (Int.natCast_nonneg _) some

/-- The slot to fill next. -/
theorem inbuf_cons (lap : Lap size cursors slots first filled (x :: free)) :
    cursors.inbuf = ((first + filled.length) % size : Nat) := by
  rw [lap.inbuf_eq, if_neg (List.cons_ne_nil x free)]

/-- The slot to empty next. -/
theorem outbuf_cons (lap : Lap size cursors slots first (x :: filled) free) :
    cursors.outbuf = (first : Int) := by
  rw [lap.outbuf_eq, if_neg (List.cons_ne_nil x filled)]

theorem slot_inbuf (lap : Lap size cursors slots first filled (x :: free)) :
    slots cursors.inbuf.toNat = x := by
  have inside : filled.length < size := by
    have := lap.length_eq
    rw [List.length_cons] at this
    omega
  have here := getElem?_around slots first inside
  rw [lap.around_eq, List.getElem?_append_right le_rfl, Nat.sub_self] at here
  rw [lap.inbuf_cons, Int.toNat_natCast]
  exact (Option.some.inj here).symm

theorem slot_outbuf (lap : Lap size cursors slots first (x :: filled) free) :
    slots cursors.outbuf.toNat = x := by
  have here := getElem?_around slots first (Nat.zero_lt_of_lt lap.first_lt)
  rw [lap.around_eq, Nat.add_zero, Nat.mod_eq_of_lt lap.first_lt] at here
  rw [lap.outbuf_cons, Int.toNat_natCast]
  exact (Option.some.inj here).symm

/-- The cursors stand at different slots. -/
theorem slots_apart {y : α} (lap : Lap size cursors slots first (x :: filled) (y :: free)) :
    cursors.inbuf.toNat ≠ cursors.outbuf.toNat := by
  have length := lap.length_eq
  rw [List.length_cons, List.length_cons] at length
  rw [lap.inbuf_cons, lap.outbuf_cons, Int.toNat_natCast, Int.toNat_natCast, List.length_cons]
  intro same
  have whole : (first + (filled.length + 1)) % size = (first + 0) % size := by
    rw [same, Nat.add_zero, Nat.mod_eq_of_lt lap.first_lt]
  have := turn_inj (by omega) (by omega) whole
  omega

/-- **A write to the slot that is filled next.** -/
theorem write_free (lap : Lap size cursors slots first filled (x :: free)) (value : α) :
    Lap size cursors (Function.update slots cursors.inbuf.toNat value) first filled
      (value :: free) where
  first_lt := lap.first_lt
  around_eq := by
    have inside : filled.length < size := by
      have := lap.length_eq
      rw [List.length_cons] at this
      omega
    rw [lap.inbuf_cons, Int.toNat_natCast, around_update _ _ inside, lap.around_eq,
      List.set_append_right _ _ le_rfl, Nat.sub_self, List.set_cons_zero]
  inbuf_eq := by rw [lap.inbuf_cons, if_neg (List.cons_ne_nil value free)]
  outbuf_eq := lap.outbuf_eq

/-- **A write to the slot that is emptied next.** -/
theorem write_filled (lap : Lap size cursors slots first (x :: filled) free) (value : α) :
    Lap size cursors (Function.update slots cursors.outbuf.toNat value) first
      (value :: filled) free where
  first_lt := lap.first_lt
  around_eq := by
    have here := around_update slots first
      (Nat.zero_lt_of_lt lap.first_lt) value
    rw [Nat.add_zero, Nat.mod_eq_of_lt lap.first_lt, lap.around_eq, List.cons_append,
      List.set_cons_zero] at here
    rw [lap.outbuf_cons, Int.toNat_natCast, here, List.cons_append]
  inbuf_eq := by rw [lap.inbuf_eq, List.length_cons, List.length_cons]
  outbuf_eq := by rw [lap.outbuf_cons, if_neg (List.cons_ne_nil value filled)]

/-! #### A slot is filled -/

theorem inbuf_moved (lap : Lap size cursors slots first filled (x :: free)) :
    (cursors.inbuf + 1) % (size : Int) = ((first + (filled.length + 1)) % size : Nat) := by
  rw [lap.inbuf_cons]
  push_cast
  rw [Int.emod_add_emod, Int.add_assoc]

/-- `inbuf` runs into `outbuf` where the last free slot is filled. -/
theorem inbuf_meets_iff (lap : Lap size cursors slots first filled (x :: free)) (two : 2 ≤ size) :
    (cursors.inbuf + 1) % (size : Int) = cursors.outbuf ↔ free = [] := by
  have length := lap.length_eq
  have inside := lap.first_lt
  rw [List.length_cons] at length
  rw [lap.inbuf_moved, lap.outbuf_eq]
  by_cases none : filled = []
  · rw [if_pos none, ← List.length_eq_zero_iff]
    rw [none, List.length_nil] at length ⊢
    omega
  · rw [if_neg none, Int.natCast_inj, ← List.length_eq_zero_iff]
    constructor
    · intro same
      have whole : (first + (filled.length + 1)) % size = (first + 0) % size := by
        rw [same, Nat.add_zero, Nat.mod_eq_of_lt inside]
      by_contra more
      have := turn_inj (by omega) (by omega) whole
      omega
    · intro last
      have whole : filled.length + 1 = size := by omega
      rw [whole, Nat.add_mod_right, Nat.mod_eq_of_lt inside]

/-- **A slot is filled:** it is the last of the filled ones. -/
theorem fill (lap : Lap size cursors slots first filled (x :: free)) (two : 2 ≤ size) :
    Lap size (cursors.fill size) slots first (filled ++ [x]) free := by
  have inside := lap.first_lt
  refine ⟨inside, by rw [lap.around_eq, List.append_assoc, List.singleton_append], ?_, ?_⟩
  · rw [List.length_append, List.length_singleton, ← lap.inbuf_moved]
    exact if_congr (lap.inbuf_meets_iff two) rfl rfl
  · rw [if_neg (List.append_ne_nil_of_right_ne_nil _ (List.cons_ne_nil x []))]
    show (if cursors.outbuf < 0 then cursors.inbuf else cursors.outbuf) = (first : Int)
    rw [lap.outbuf_eq, lap.inbuf_cons]
    by_cases none : filled = []
    · rw [if_pos none, if_pos (by omega), none, List.length_nil, Nat.add_zero,
        Nat.mod_eq_of_lt inside]
    · rw [if_neg none, if_neg (by omega)]

/-! #### A slot is emptied -/

theorem outbuf_moved (lap : Lap size cursors slots first (x :: filled) free) :
    (cursors.outbuf + 1) % (size : Int) = ((first + 1) % size : Nat) := by
  rw [lap.outbuf_cons]
  push_cast
  rfl

/-- `outbuf` runs into `inbuf` where the last filled slot is emptied. -/
theorem outbuf_meets_iff (lap : Lap size cursors slots first (x :: filled) free) (two : 2 ≤ size) :
    (cursors.outbuf + 1) % (size : Int) = cursors.inbuf ↔ filled = [] := by
  have length := lap.length_eq
  rw [List.length_cons] at length
  rw [lap.outbuf_moved, lap.inbuf_eq, List.length_cons]
  by_cases full : free = []
  · rw [if_pos full, ← List.length_eq_zero_iff]
    rw [full, List.length_nil] at length
    omega
  · have room : 0 < free.length := List.length_pos_iff.mpr full
    rw [if_neg full, Int.natCast_inj, ← List.length_eq_zero_iff]
    constructor
    · intro same
      have := turn_inj (by omega) (by omega) same
      omega
    · intro last
      rw [last]

/-- **A slot is emptied:** it is the last of the free ones. -/
theorem empty (lap : Lap size cursors slots first (x :: filled) free) (two : 2 ≤ size) :
    Lap size (cursors.empty size) slots ((first + 1) % size) filled (free ++ [x]) := by
  have inside := lap.first_lt
  have lapped := lap.around_eq
  have length := lap.length_eq
  rw [List.cons_append] at lapped
  rw [List.length_cons] at length
  refine ⟨Nat.mod_lt _ (by omega), by rw [around_next lapped inside, List.append_assoc], ?_, ?_⟩
  · rw [if_neg (List.append_ne_nil_of_right_ne_nil _ (List.cons_ne_nil x []))]
    show (if cursors.inbuf < 0 then cursors.outbuf else cursors.inbuf) = _
    have behind : ((first + 1) % size + filled.length) % size
        = (first + (filled.length + 1)) % size := by
      rw [Nat.mod_add_mod, Nat.add_assoc, Nat.add_comm 1]
    rw [lap.inbuf_eq, lap.outbuf_cons, List.length_cons, behind]
    by_cases full : free = []
    · have round : filled.length + 1 = size := by
        rw [full, List.length_nil] at length
        omega
      rw [if_pos full, if_pos (by omega), round, Nat.add_mod_right, Nat.mod_eq_of_lt inside]
    · rw [if_neg full, if_neg (by omega)]
  · rw [← lap.outbuf_moved]
    exact if_congr (lap.outbuf_meets_iff two) rfl rfl

end Lap

end Baps.Memory
