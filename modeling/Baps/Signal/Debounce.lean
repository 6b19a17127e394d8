/-
**Debouncing a sampled signal.**

A `Debouncer` reports one of two states and looks at one sample after the other. A sample may
contradict the reported state; once `threshold` samples in a row do, the other state is reported.
`Debounced` is what it has to remember: the state reported, and how many samples in a row contradict
it.

* `turns_iff` — **a report changes exactly where the last `threshold` samples all contradict it**,
  give or take the samples that the count was ahead by at the start.
* `mem_out_iff`, `outputs_turns` — **reports alternate**: outputs at every change, and nowhere else, form a
  list without equal neighbours, whose last entry is the state reported.
* `level_le_tally` — **a level that only some steps raise** has gone up by no more than their number
  allows.
-/

import Mathlib.Data.List.Chain
import Mathlib.Data.List.Range
import Mathlib.Order.Interval.Finset.Nat

namespace Baps.Signal

/-! ### The machine -/

/-- When a sample contradicts a reported state, and how many in a row change the report. No sample
contradicts both states. -/
structure Debouncer (α : Type) where
  away : Bool → α → Prop
  threshold : Nat
  decide : ∀ reported sample, Decidable (away reported sample)
  exclusive : ∀ reported sample, away reported sample → ¬ away (!reported) sample

/-- The state reported, and the samples in a row that contradict it. -/
structure Debounced where
  reported : Bool
  streak : Nat
  deriving DecidableEq, Repr

namespace Debouncer

variable {α : Type} (debouncer : Debouncer α)

instance (reported : Bool) (sample : α) : Decidable (debouncer.away reported sample) :=
  debouncer.decide reported sample

/-- One sample. -/
def step (state : Debounced) (sample : α) : Debounced :=
  if debouncer.away state.reported sample then
    if state.streak + 1 < debouncer.threshold then ⟨state.reported, state.streak + 1⟩
    else ⟨!state.reported, 0⟩
  else ⟨state.reported, 0⟩

/-- The state before sample `n`. -/
def state (start : Debounced) (samples : Nat → α) : Nat → Debounced
  | 0 => start
  | n + 1 => debouncer.step (state start samples n) (samples n)

/-- The report changes with a sample. -/
def Turns (state : Debounced) (sample : α) : Prop :=
  debouncer.away state.reported sample ∧ debouncer.threshold ≤ state.streak + 1

variable {debouncer}

theorem step_reported (state : Debounced) (sample : α) :
    (debouncer.Turns state sample ∧ (debouncer.step state sample).reported = !state.reported) ∨
    (¬ debouncer.Turns state sample ∧ (debouncer.step state sample).reported = state.reported) := by
  unfold step Turns
  split
  · rename_i contradicts
    split
    · rename_i short
      exact .inr ⟨fun turns => absurd short (by omega), rfl⟩
    · rename_i long
      exact .inl ⟨⟨contradicts, by omega⟩, rfl⟩
  · rename_i agrees
    exact .inr ⟨fun turns => agrees turns.1, rfl⟩

/-! ### The samples the count stands for -/

/-- What the count of a state says about the samples so far: the last `streak` of them contradict the
report, and the one before does not, unless there is none and the count was ahead. -/
structure Counts (debouncer : Debouncer α) (ahead : Nat) (samples : Nat → α) (n : Nat)
    (state : Debounced) : Prop where
  below : state.streak < debouncer.threshold
  last : ∀ i < n, n ≤ i + state.streak → debouncer.away state.reported (samples i)
  first : state.streak = n + ahead ∨
    ∃ i, i + 1 + state.streak = n ∧ ¬ debouncer.away state.reported (samples i)

section Trace

variable {start : Debounced} {samples : Nat → α}

/-- **One sample keeps the count right.** -/
theorem Counts.step {ahead n : Nat} {state : Debounced}
    (counts : Counts debouncer ahead samples n state) :
    Counts debouncer ahead samples (n + 1) (debouncer.step state (samples n)) := by
  have below := counts.below
  unfold Debouncer.step
  split
  · rename_i contradicts
    split
    · rename_i short
      refine ⟨short, fun i inside recent => ?_, ?_⟩
      · rcases Nat.lt_succ_iff_lt_or_eq.mp inside with earlier | rfl
        · exact counts.last i earlier (by simp only at recent; omega)
        · exact contradicts
      · rcases counts.first with whole | ⟨i, place, agrees⟩
        · exact .inl (by simp only; omega)
        · exact .inr ⟨i, by simp only; omega, agrees⟩
    · -- the sample that changes the report does not contradict the new one
      refine ⟨by simp only; omega, fun i inside recent => absurd recent (by simp only; omega), ?_⟩
      exact .inr ⟨n, rfl, debouncer.exclusive _ _ contradicts⟩
  · rename_i agrees
    refine ⟨by simp only; omega, fun i inside recent => absurd recent (by simp only; omega), ?_⟩
    exact .inr ⟨n, rfl, agrees⟩

theorem counts (short : start.streak < debouncer.threshold) (n : Nat) :
    Counts debouncer start.streak samples n (debouncer.state start samples n) := by
  induction n with
  | zero => exact ⟨short, fun i inside => absurd inside (by omega), .inl (Nat.zero_add _).symm⟩
  | succ n ih => exact ih.step

/-- The last `width` samples up to `n` all contradict a state. -/
def Window (debouncer : Debouncer α) (reported : Bool) (samples : Nat → α) (width n : Nat) : Prop :=
  width ≤ n + 1 ∧ ∀ i ≤ n, n < i + width → debouncer.away reported (samples i)

/-- **Where a report changes**: after a whole window of samples that contradict it, or at the sample
that completes the count the debouncer was started with. -/
theorem turns_iff (short : start.streak < debouncer.threshold) (n : Nat) :
    debouncer.Turns (debouncer.state start samples n) (samples n) ↔
      Window debouncer (debouncer.state start samples n).reported samples debouncer.threshold n ∨
      n + 1 + start.streak = debouncer.threshold ∧
        Window debouncer (debouncer.state start samples n).reported samples (n + 1) n := by
  obtain ⟨below, last, first⟩ : Counts debouncer start.streak samples n _ := counts short n
  generalize debouncer.state start samples n = now at below last first ⊢
  constructor
  · rintro ⟨contradicts, full⟩
    have all : ∀ i ≤ n, n < i + debouncer.threshold → debouncer.away now.reported (samples i) := by
      intro i inside recent
      rcases Nat.lt_or_eq_of_le inside with earlier | rfl
      · exact last i earlier (by omega)
      · exact contradicts
    by_cases long : debouncer.threshold ≤ n + 1
    · exact .inl ⟨long, all⟩
    · rcases first with whole | ⟨i, place, -⟩
      · exact .inr ⟨by omega, le_rfl, fun i inside _ => all i inside (by omega)⟩
      · omega
  · intro windows
    have contradicts : debouncer.away now.reported (samples n) := by
      rcases windows with window | ⟨-, window⟩
      · exact window.2 n le_rfl (by omega)
      · exact window.2 n le_rfl (by omega)
    refine ⟨contradicts, ?_⟩
    by_contra few
    rcases first with whole | ⟨i, place, agrees⟩
    · rcases windows with window | ⟨ahead, -⟩
      · exact few (by have := window.1; omega)
      · omega
    · rcases windows with window | ⟨-, window⟩
      · exact agrees (window.2 i (by omega) (by omega))
      · exact agrees (window.2 i (by omega) (by omega))

end Trace

end Debouncer

/-! ### Outputs at the changes of a state -/

section Outputs

variable {β : Type}

/-- The outputs before step `n`, in order. -/
def outputs (out : Nat → List β) (n : Nat) : List β := ((List.range n).map out).flatten

theorem outputs_succ (out : Nat → List β) (n : Nat) : outputs out (n + 1) = outputs out n ++ out n := by
  simp [outputs, List.range_succ]

/-- An output at every change of a state, naming the new state. -/
def AtTurns (out : Nat → List β) (name : Bool → β) (state : Nat → Bool) (n : Nat) : Prop :=
  out n = if state (n + 1) = state n then [] else [name (state (n + 1))]

/-- A list of states that alternates, and starts with the other state than `start`. -/
structure Alternates (name : Bool → β) (start : Bool) (list : List β) : Prop where
  named : ∀ output ∈ list, output = name true ∨ output = name false
  neighbours : list.IsChain (· ≠ ·)
  first : ∀ output ∈ list.head?, output = name (!start)

/-- **After a state comes the other one.** -/
theorem Alternates.concat {name : Bool → β} {start state : Bool} {list : List β}
    (different : name true ≠ name false) (alternates : Alternates name start list)
    (last : list.getLastD (name start) = name (!state)) :
    Alternates name start (list ++ [name state]) := by
  obtain ⟨named, neighbours, first⟩ := alternates
  refine ⟨fun output member => ?_, ?_, ?_⟩
  · rcases List.mem_append.mp member with earlier | latest
    · exact named output earlier
    · rw [List.mem_singleton.mp latest]
      cases state
      · exact .inr rfl
      · exact .inl rfl
  · have differs : name (!state) ≠ name state := by
      cases state
      · exact different
      · exact different.symm
    refine neighbours.append (.singleton _) fun x isLast y isNext => ?_
    obtain rfl : name state = y := by simpa using isNext
    rw [List.getLastD_eq_getLast?, show list.getLast? = some x from isLast] at last
    exact fun same => differs ((show x = name (!state) from last) ▸ same)
  · cases list with
    | nil =>
      -- nothing has been output, so the last state is the one at the start
      have begins : name start = name (!state) := last
      intro output member
      obtain rfl : name state = output := by simpa using member
      cases start <;> cases state <;> simp_all
    | cons head rest => simpa using first

/-- **Outputs at the changes of a state alternate**, and the last one names the state. -/
theorem outputs_turns {out : Nat → List β} {name : Bool → β} {state : Nat → Bool} {count : Nat}
    (different : name true ≠ name false) (turns : ∀ n < count, AtTurns out name state n) :
    Alternates name (state 0) (outputs out count) ∧
      (outputs out count).getLastD (name (state 0)) = name (state count) := by
  induction count with
  | zero => exact ⟨⟨by simp [outputs], .nil, by simp [outputs]⟩, rfl⟩
  | succ n ih =>
    obtain ⟨alternates, last⟩ := ih fun i inside => turns i (by omega)
    have now := turns n (by omega)
    rw [outputs_succ]
    unfold AtTurns at now
    split at now
    · rename_i same
      rw [now, List.append_nil, same]
      exact ⟨alternates, last⟩
    · rename_i changed
      rw [now]
      have before : state n = !state (n + 1) := Bool.eq_not.mpr (Ne.symm changed)
      rw [before] at last
      exact ⟨alternates.concat different last, List.getLastD_concat⟩

/-- **Where a state is output**: where the debouncer turns to it. -/
theorem mem_out_iff {α : Type} {debouncer : Debouncer α} {start : Debounced} {samples : Nat → α}
    {out : Nat → List β} {name : Bool → β} {n : Nat} (different : name true ≠ name false)
    (turns : AtTurns out name (fun n => (debouncer.state start samples n).reported) n) (state : Bool) :
    name state ∈ out n ↔ debouncer.Turns (debouncer.state start samples n) (samples n) ∧
      (debouncer.state start samples n).reported = !state := by
  have injective : ∀ other, name state = name other ↔ other = state := by
    intro other
    cases state <;> cases other <;> simp [different, different.symm]
  have output : out n =
      if (debouncer.step (debouncer.state start samples n) (samples n)).reported =
        (debouncer.state start samples n).reported then []
      else [name (debouncer.step (debouncer.state start samples n) (samples n)).reported] := turns
  rw [output]
  rcases Debouncer.step_reported (debouncer.state start samples n) (samples n) with ⟨turned, now⟩ | ⟨kept, now⟩
  · rw [now, if_neg (by simp), List.mem_singleton, injective]
    simp only [turned, true_and]
    exact Bool.not_eq_eq_eq_not
  · rw [now, if_pos rfl]
    simp [kept]

end Outputs

/-! ### A level that some steps raise -/

/-- The steps from `m` up to, not including, `n` that satisfy a predicate. -/
def tally (p : Nat → Prop) [DecidablePred p] (m n : Nat) : Nat := ((Finset.Ico m n).filter p).card

section Tally

variable {p : Nat → Prop} [DecidablePred p] {m n : Nat}

@[simp] theorem tally_self : tally p m m = 0 := by simp [tally]

theorem tally_succ (inside : m ≤ n) : tally p m (n + 1) = tally p m n + if p n then 1 else 0 := by
  rw [tally, Nat.Ico_succ_right_eq_insert_Ico inside, Finset.filter_insert, tally]
  split
  · rw [Finset.card_insert_of_notMem (by simp)]
  · rw [Nat.add_zero]

/-- **The ledger of a level.** -/
theorem level_le_tally {level : Nat → Int} {rise : Int} (inside : m ≤ n)
    (step : ∀ i, m ≤ i → i < n → level (i + 1) ≤ level i + if p i then rise else 0) :
    level n ≤ level m + rise * tally p m n := by
  induction n, inside using Nat.le_induction with
  | base => simp
  | succ n inside ih =>
    have now := step n inside (Nat.lt_succ_self n)
    have before := ih fun i low high => step i low (by omega)
    rw [tally_succ inside]
    by_cases rises : p n
    · rw [if_pos rises] at now ⊢
      have more : rise * ((tally p m n + 1 : Nat) : Int) = rise * tally p m n + rise := by
        rw [Int.natCast_succ, Int.mul_add, Int.mul_one]
      omega
    · rw [if_neg rises] at now ⊢
      show _ ≤ level m + rise * (tally p m n : Int)
      omega

end Tally

end Baps.Signal
