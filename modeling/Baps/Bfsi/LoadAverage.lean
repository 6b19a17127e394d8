/-
**The average of the cycles that an interrupt takes.**

Every interrupt averages the cycles of the one before, in 32 bits, with a time constant of 1024. The average is
kept doubled, and printed halved.

* `measureCycles_average` — as long as its expression fits into 32 bits, it is an `Averager` of the doubled
  cycles, which adds a whole time constant before it divides.
* `average_bounded` — **the expression always fits**, for interrupts of less than 2²¹ cycles, and what is
  printed is never above the longest of them.
* `reported_settles` — **a constant load**: the average comes up to it, but comes down only to 512 cycles
  above it.
* `average_settles_iff` — when it comes within one cycle of a constant load.
-/

import Baps.Bfsi.Statistics
import Baps.Signal.Averager
import Mathlib.Data.Finset.Max
import Mathlib.Data.Finset.Dedup

namespace Baps.Bfsi

open Signal

/-- The average of the doubled cycles. -/
def loadAverager : Averager where
  timeConstant := TC.toNat
  rounding := TC.toNat
  positive := by decide

/-- The cycles of the interrupt before the first one, and of those in a run. -/
def samples (start : Stats) (events : List Event) : List UInt32 :=
  start.isrCyclesLast :: (interrupts events).map Interrupt.cycles

/-- The most cycles for which nothing overflows. -/
def maxCycles : Nat := 2 ^ 21 - 1

/-- The cycles are bounded, and the average with them. -/
structure Within (bound : Nat) (stats : Stats) : Prop where
  last : stats.isrCyclesLast.toNat ≤ bound
  average : stats.isrCyclesAverage.toNat ≤ 2 * bound + 1

section Bounds

variable {bound : Nat} {stats : Stats}

/-- **The expression fits into 32 bits.** -/
theorem Within.fits (within : Within bound stats) (small : bound ≤ maxCycles) :
    (TC.toNat - 1) * stats.isrCyclesAverage.toNat + 2 * stats.isrCyclesLast.toNat + TC.toNat ≤ 2 ^ 32 - 1 := by
  obtain ⟨last, average⟩ := within
  rw [maxCycles] at small
  rw [show TC.toNat = 1024 from rfl]
  omega

/-- **What is computed, if it fits.** -/
theorem measureCycles_average (fits :
    (TC.toNat - 1) * stats.isrCyclesAverage.toNat + 2 * stats.isrCyclesLast.toNat + TC.toNat ≤ 2 ^ 32 - 1) :
    (measureCycles stats).isrCyclesAverage.toNat =
      loadAverager.step (2 * stats.isrCyclesLast.toNat) stats.isrCyclesAverage.toNat := by
  rw [show TC.toNat = 1024 from rfl] at fits
  have doubled : (stats.isrCyclesLast <<< (1 : UInt32)).toNat = 2 * stats.isrCyclesLast.toNat := by
    rw [UInt32.toNat_shiftLeft, show (1 : UInt32).toNat % 32 = 1 from rfl, Nat.shiftLeft_eq, pow_one,
      Nat.mod_eq_of_lt (by omega), Nat.mul_comm]
  have weighted : ((TC - 1) * stats.isrCyclesAverage).toNat = 1023 * stats.isrCyclesAverage.toNat := by
    rw [UInt32.toNat_mul, show (TC - 1).toNat = 1023 from rfl, Nat.mod_eq_of_lt (by omega)]
  have both : ((TC - 1) * stats.isrCyclesAverage + stats.isrCyclesLast <<< (1 : UInt32)).toNat =
      1023 * stats.isrCyclesAverage.toNat + 2 * stats.isrCyclesLast.toNat := by
    rw [UInt32.toNat_add, weighted, doubled, Nat.mod_eq_of_lt (by omega)]
  have sum : ((TC - 1) * stats.isrCyclesAverage + stats.isrCyclesLast <<< (1 : UInt32) + TC).toNat =
      1023 * stats.isrCyclesAverage.toNat + 2 * stats.isrCyclesLast.toNat + 1024 := by
    rw [UInt32.toNat_add, both, show TC.toNat = 1024 from rfl, Nat.mod_eq_of_lt (by omega)]
  show (((TC - 1) * stats.isrCyclesAverage + stats.isrCyclesLast <<< (1 : UInt32) + TC) >>> LTC).toNat = _
  rw [UInt32.toNat_shiftRight, sum, show LTC.toNat % 32 = 10 from rfl, Nat.shiftRight_eq_div_pow]
  rfl

/-- **An interrupt** keeps the bound. -/
theorem Within.interrupt (within : Within bound stats) (small : bound ≤ maxCycles) (sport : Sport)
    {irq : Interrupt} (short : irq.cycles.toNat ≤ bound) : Within bound (sportRxIsr sport irq stats).2 where
  last := short
  average := by
    rw [sportRxIsr_average, measureCycles_average (within.fits small)]
    refine Averager.step_le within.average ?_
    have last := within.last
    show 2 * _ + 1024 < _ + 1024
    omega

theorem within_run (sport : Sport) (small : bound ≤ maxCycles) {events : List Event}
    (within : Within bound stats) (short : ∀ irq ∈ interrupts events, irq.cycles.toNat ≤ bound) :
    Within bound (run sport events stats) := by
  induction events using List.reverseRecOn with
  | nil => exact within
  | append_singleton events event ih =>
    rw [run_snoc]
    cases event with
    | interrupt irq =>
      rw [interrupts_interrupt] at short
      have before := ih fun irq member => short irq (List.mem_append_left _ member)
      exact before.interrupt small sport (short irq List.mem_concat_self)
    | reset =>
      rw [interrupts_reset] at short
      obtain ⟨last, average⟩ := ih short
      exact ⟨last, average⟩

theorem within_start {start : Stats} (zero : start.isrCyclesAverage = 0) {events : List Event}
    (short : ∀ sample ∈ samples start events, sample.toNat ≤ bound) :
    Within bound start ∧ ∀ irq ∈ interrupts events, irq.cycles.toNat ≤ bound := by
  refine ⟨⟨short _ List.mem_cons_self, ?_⟩, fun irq member => short _ ?_⟩
  · rw [zero]
    exact Nat.zero_le _
  · exact List.mem_cons_of_mem _ (List.mem_map_of_mem member)

/-- One of the samples is the largest. -/
theorem exists_largest (start : Stats) (events : List Event) :
    ∃ largest ∈ samples start events, ∀ sample ∈ samples start events, sample.toNat ≤ largest.toNat := by
  obtain ⟨largest, member, above⟩ := Finset.exists_max_image (samples start events).toFinset UInt32.toNat
    ⟨_, List.mem_toFinset.mpr List.mem_cons_self⟩
  exact ⟨largest, List.mem_toFinset.mp member, fun sample other => above sample (List.mem_toFinset.mpr other)⟩

end Bounds

theorem reportedAverage_toNat (stats : Stats) :
    (reportedAverage stats).toNat = stats.isrCyclesAverage.toNat / 2 := by
  rw [reportedAverage, UInt32.toNat_shiftRight, show (1 : UInt32).toNat % 32 = 1 from rfl,
    Nat.shiftRight_eq_div_pow, pow_one]

/-- **The average cannot overflow, nor overshoot.** From a zero average, with interrupts of at most `M` cycles,
the expression for the next average fits into 32 bits after every run of interrupts and resets, the average
is at most `2 * M + 1`, and what is printed is no more than one of the samples. -/
theorem average_bounded (sport : Sport) (M : Nat) (small : M ≤ 2 ^ 21 - 1) (start : Stats)
    (zero : start.isrCyclesAverage = 0) (events : List Event)
    (short : ∀ sample ∈ samples start events, sample.toNat ≤ M) :
    let stats := run sport events start
    (TC.toNat - 1) * stats.isrCyclesAverage.toNat + 2 * stats.isrCyclesLast.toNat + TC.toNat ≤ 2 ^ 32 - 1 ∧
    stats.isrCyclesAverage.toNat ≤ 2 * M + 1 ∧
    ∃ sample ∈ samples start events, reportedAverage stats ≤ sample := by
  obtain ⟨within, each⟩ := within_start zero short
  have after := within_run sport small within each
  refine ⟨after.fits small, after.average, ?_⟩
  obtain ⟨largest, member, above⟩ := exists_largest start events
  refine ⟨largest, member, ?_⟩
  -- the largest sample is a bound of its own
  obtain ⟨within, each⟩ := within_start zero above
  have after := within_run sport (Nat.le_trans (short largest member) small) within each
  rw [UInt32.le_iff_toNat_le, reportedAverage_toNat]
  have average := after.average
  omega

/-- Two interrupts, of a million cycles and of a hundred. -/
theorem average_bounded_two :
    (run ⟨8, 0, 256⟩ [.interrupt ⟨0, 1000000, 64, 270, true⟩,
      .interrupt ⟨1400000, 1400100, 128, 334, true⟩] initial).isrCyclesAverage.toNat ≤ 2 * 1000000 + 1 := by
  refine (average_bounded ⟨8, 0, 256⟩ 1000000 (by decide) initial rfl _ ?_).2.1
  refine List.forall_mem_cons.mpr ⟨by decide, List.forall_mem_cons.mpr ⟨by decide, ?_⟩⟩
  exact List.forall_mem_singleton.mpr (by decide)

/-! ### A constant load -/

section Constant

variable (sport : Sport) (stats : Stats) (later : Nat → Interrupt)

/-- After `n` more interrupts. -/
def afterwards (n : Nat) : Stats := run sport ((List.range n).map fun i => .interrupt (later i)) stats

/-- A run of interrupts of at most `maxCycles` leads here from the start. -/
def Reachable : Prop :=
  ∃ events, (∀ sample ∈ samples initial events, sample.toNat ≤ maxCycles) ∧ run sport events initial = stats

/-- From some interrupt on, what is printed is within one of `cycles`. -/
def SettlesAt (cycles : Nat) : Prop :=
  ∃ settled, ∀ n ≥ settled, (reportedAverage (afterwards sport stats later n)).toNat ≤ cycles + 1 ∧
    cycles ≤ (reportedAverage (afterwards sport stats later n)).toNat + 1

variable {sport} {stats} {later} {cycles : Nat}

theorem Reachable.within (reachable : Reachable sport stats) : Within maxCycles stats := by
  obtain ⟨events, short, rfl⟩ := reachable
  obtain ⟨within, each⟩ := within_start rfl short
  exact within_run sport le_rfl within each

theorem afterwards_succ (n : Nat) : afterwards sport stats later (n + 1) =
    (sportRxIsr sport (later n) (afterwards sport stats later n)).2 := by
  rw [afterwards, List.range_succ, List.map_append, List.map_singleton, run_snoc]
  rfl

/-- **A constant load** repeats one step of the averager, from the second interrupt on: the first averages
the cycles of the one before. -/
theorem afterwards_average (within : Within maxCycles stats) (small : cycles ≤ maxCycles)
    (each : ∀ n, (later n).cycles.toNat = cycles) (n : Nat) :
    Within maxCycles (afterwards sport stats later (n + 1)) ∧
    (afterwards sport stats later (n + 1)).isrCyclesAverage.toNat =
      (loadAverager.step (2 * cycles))^[n] (measureCycles stats).isrCyclesAverage.toNat := by
  induction n with
  | zero => exact ⟨within.interrupt le_rfl sport ((each 0).le.trans small), rfl⟩
  | succ n ih =>
    obtain ⟨before, average⟩ := ih
    have last : (afterwards sport stats later (n + 1)).isrCyclesLast.toNat = cycles := by
      rw [afterwards_succ, sportRxIsr_last, each]
    rw [afterwards_succ]
    refine ⟨before.interrupt le_rfl sport ((each _).le.trans small), ?_⟩
    rw [sportRxIsr_average, measureCycles_average (before.fits le_rfl), last, average,
      Function.iterate_succ_apply']

/-- **What is printed under a constant load** settles: from below at the load, from above at 512 cycles more;
from between it stays what it is after the first interrupt. -/
theorem reported_settles (sport : Sport) (within : Within maxCycles stats) (small : cycles ≤ maxCycles)
    (each : ∀ n, (later n).cycles.toNat = cycles) :
    ∃ settled, ∀ n ≥ settled, (reportedAverage (afterwards sport stats later n)).toNat =
      max cycles (min ((measureCycles stats).isrCyclesAverage.toNat / 2) (cycles + 512)) := by
  obtain ⟨settled, settles⟩ := loadAverager.settles (2 * cycles) (measureCycles stats).isrCyclesAverage.toNat
  refine ⟨settled + 1, fun n enough => ?_⟩
  obtain ⟨before, rfl⟩ : ∃ before, n = before + 1 := ⟨n - 1, by omega⟩
  rw [reportedAverage_toNat, (afterwards_average within small each before).2, settles before (by omega)]
  show max (2 * cycles + 1024 + 1 - 1024) (min _ (2 * cycles + 1024)) / 2 = _
  omega

/-- The first average under a constant load is close to it. -/
theorem measureCycles_close_iff (within : Within maxCycles stats) :
    (measureCycles stats).isrCyclesAverage.toNat / 2 ≤ cycles + 1 ↔
      (TC.toNat - 1) * stats.isrCyclesAverage.toNat + 2 * stats.isrCyclesLast.toNat < 2048 * cycles + 3072 := by
  have half : (measureCycles stats).isrCyclesAverage.toNat / 2 ≤ cycles + 1 ↔
      (measureCycles stats).isrCyclesAverage.toNat < 2 * cycles + 4 := by omega
  rw [half, measureCycles_average (within.fits le_rfl), Averager.step_lt_iff]
  show (1024 - 1) * _ + (2 * _ + 1024) < (2 * cycles + 4) * 1024 ↔ (1024 - 1) * _ + 2 * _ < _
  omega

theorem settlesAt_iff (within : Within maxCycles stats) (small : cycles ≤ maxCycles)
    (each : ∀ n, (later n).cycles.toNat = cycles) : SettlesAt sport stats later cycles ↔
      (TC.toNat - 1) * stats.isrCyclesAverage.toNat + 2 * stats.isrCyclesLast.toNat < 2048 * cycles + 3072 := by
  obtain ⟨settled, reported⟩ := reported_settles sport within small each
  rw [← measureCycles_close_iff within]
  constructor
  · rintro ⟨close, within⟩
    obtain ⟨above, below⟩ := within (max settled close) (le_max_right _ _)
    rw [reported _ (le_max_left _ _)] at above
    omega
  · intro near
    refine ⟨settled, fun n enough => ?_⟩
    rw [reported n enough]
    omega

end Constant

/-- **When the average comes to a constant load.** From any statistics that interrupts of less than 2²¹ cycles
can lead to, interrupts of a constant number of cycles bring what is printed to within one of that number if
and only if the average is not above it already when they begin. -/
theorem average_settles_iff (sport : Sport) (stats : Stats) (reachable : Reachable sport stats) (cycles : Nat)
    (small : cycles ≤ 2 ^ 21 - 1) (later : Nat → Interrupt) (each : ∀ n, (later n).cycles.toNat = cycles) :
    SettlesAt sport stats later cycles ↔
      (TC.toNat - 1) * stats.isrCyclesAverage.toNat + 2 * stats.isrCyclesLast.toNat < 2048 * cycles + 3072 :=
  settlesAt_iff reachable.within small each

/-- From the start, the average comes up to a load of a hundred cycles. -/
theorem average_settles_start :
    SettlesAt ⟨8, 0, 256⟩ initial (fun _ => ⟨0, 100, 64, 270, true⟩) 100 :=
  (average_settles_iff ⟨8, 0, 256⟩ initial
    ⟨[], List.forall_mem_cons.mpr ⟨by decide, List.forall_mem_nil _⟩, rfl⟩ 100 (by decide)
    (fun _ => ⟨0, 100, 64, 270, true⟩) fun _ => rfl).mpr (by decide)

/-- After one interrupt of a million cycles, it does not come down to it. -/
theorem average_stays_high :
    ¬ ∀ (sport : Sport) (stats : Stats) (cycles : Nat) (later : Nat → Interrupt), Reachable sport stats →
      cycles ≤ 2 ^ 21 - 1 → (∀ n, (later n).cycles.toNat = cycles) → SettlesAt sport stats later cycles := by
  intro always
  have reachable : Reachable ⟨8, 0, 256⟩
      (run ⟨8, 0, 256⟩ [.interrupt ⟨0, 1000000, 64, 270, true⟩] initial) := by
    refine ⟨_, ?_, rfl⟩
    exact List.forall_mem_cons.mpr ⟨by decide, List.forall_mem_singleton.mpr (by decide)⟩
  have settles := always _ _ 100 (fun _ => ⟨0, 100, 64, 270, true⟩) reachable (by decide) fun _ => rfl
  have low := (settlesAt_iff reachable.within (by decide) fun _ => rfl).mp settles
  exact absurd low (by decide)

end Baps.Bfsi
