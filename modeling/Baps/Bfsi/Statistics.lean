/-
**The statistics of the interrupt.**

Every interrupt of the serial port counts the half that each direction hands out, counts the halves handed
out twice in a row, remembers where the receive DMA was, and averages the cycles that it took. A write to
`/proc/bfsi_reset` clears the counters between two interrupts; which half was handed out last, and where
the DMA was, it leaves alone.

* `Tally.Accounts` — **the two counts differ by no more than the halves handed out twice, and one**: which
  of the two is ahead depends on the half that was handed out last.
* `Missed` — the reads that did not swap, of those that no reset has cleared away.
* `run_accounts` — **the statistics account for every interrupt since the last reset.**
-/

import Baps.Bfsi.Halves
import Mathlib.Algebra.Order.Group.Abs
import Mathlib.Algebra.Order.Group.Int
import Mathlib.Algebra.Ring.Int.Defs
import Mathlib.Algebra.Ring.Nat
import Mathlib.Data.List.Induction

namespace Baps.Bfsi

/-! ### The interrupt and the reset -/

/-- The time constant of the average, and its base 2 logarithm. -/
def TC : UInt32 := 1024

def LTC : UInt32 := 10

/-- The variables of the module that an interrupt keeps. `isrCyclesAverage` is scaled up by 2. -/
structure Stats where
  read : ReadLog
  write : WriteLog
  isrCyclesLast : UInt32
  isrCyclesWorst : UInt32
  isrCyclesAverage : UInt32
  isrBetweenPrev : UInt32
  isrBetweenWorst : UInt32
  isrBetweenDiff : UInt32
  isrBetweenDifflastskip : UInt32
  isrBetweenSkip : UInt32

/-- The variables before the first interrupt. -/
def initial : Stats where
  read := ⟨0, 0, 0, .ping, fun _ => 0, fun _ => 0, 0⟩
  write := ⟨0, 0, 0, .ping⟩
  isrCyclesLast := 0
  isrCyclesWorst := 0
  isrCyclesAverage := 0
  isrBetweenPrev := 0
  isrBetweenWorst := 0
  isrBetweenDiff := 0
  isrBetweenDifflastskip := 0
  isrBetweenSkip := 0

/-- What an interrupt finds: the cycles register when it starts and when it ends, the addresses of the two
DMA channels, and whether there is a callback that is not frozen. -/
structure Interrupt where
  startCycles : UInt32
  endCycles : UInt32
  rxCurrAddr : Int
  txCurrAddr : Int
  callback : Bool

/-- The cycles that an interrupt takes. -/
def Interrupt.cycles (irq : Interrupt) : UInt32 := irq.endCycles - irq.startCycles

section Processing

variable (sport : Sport) (irq : Interrupt) (stats : Stats)

/-- How long ago the interrupt before started. 800000 cycles mean that one was not processed in time. -/
def measureBetween (startCycles : UInt32) : Stats :=
  let diff := startCycles - stats.isrBetweenPrev
  { stats with
    isrBetweenDiff := diff
    isrBetweenPrev := startCycles
    isrBetweenWorst := if diff > stats.isrBetweenWorst then diff else stats.isrBetweenWorst
    isrBetweenSkip := if diff > 800000 then stats.isrBetweenSkip + 1 else stats.isrBetweenSkip
    isrBetweenDifflastskip := if diff > 800000 then diff else stats.isrBetweenDifflastskip }

/-- The average and the worst case, with the cycles of the interrupt before. -/
def measureCycles : Stats :=
  { stats with
    isrCyclesAverage := ((TC - 1) * stats.isrCyclesAverage + stats.isrCyclesLast <<< (1 : UInt32) + TC) >>> LTC
    isrCyclesWorst := if stats.isrCyclesLast > stats.isrCyclesWorst then stats.isrCyclesLast
      else stats.isrCyclesWorst }

/-- `sport_rx_isr`, with what the callback is given. -/
def sportRxIsr : Option (Int × Int) × Stats :=
  let stats := measureBetween stats irq.startCycles
  let (readSamples, read) := isrReadProcessing sport irq.rxCurrAddr stats.read
  let (writeSamples, write) := isrWriteProcessing sport irq.txCurrAddr stats.write
  let stats := measureCycles { stats with read := read, write := write }
  (if irq.callback then some (readSamples, writeSamples) else none,
    { stats with isrCyclesLast := irq.endCycles - irq.startCycles })

/-- `proc_write_bfsi_reset`. -/
def procWriteBfsiReset : Stats :=
  { stats with
    isrCyclesWorst := 0
    isrBetweenWorst := 0
    isrBetweenSkip := 0
    isrBetweenDifflastskip := 0
    read := { stats.read with
      readchunkFirst := 0, readchunkSecond := 0, readchunkDidntswap := 0, badX := fun _ => 0 }
    write := { stats.write with writechunkFirst := 0, writechunkSecond := 0, writechunkDidntswap := 0 } }

/-- The average that `bfsi_proc_read` prints. -/
def reportedAverage : UInt32 := stats.isrCyclesAverage >>> (1 : UInt32)

theorem sportRxIsr_read : (sportRxIsr sport irq stats).2.read =
    (isrReadProcessing sport irq.rxCurrAddr stats.read).2 :=
  rfl

theorem sportRxIsr_write : (sportRxIsr sport irq stats).2.write =
    (isrWriteProcessing sport irq.txCurrAddr stats.write).2 :=
  rfl

theorem sportRxIsr_average : (sportRxIsr sport irq stats).2.isrCyclesAverage =
    (measureCycles stats).isrCyclesAverage :=
  rfl

theorem sportRxIsr_last : (sportRxIsr sport irq stats).2.isrCyclesLast = irq.cycles :=
  rfl

/-- The callback gets the halves that the two sides choose. -/
theorem sportRxIsr_fst : (sportRxIsr sport irq stats).1 =
    if irq.callback then
      some (halfAt sport sport.iRxBuffer1 (readHalf sport (irq.rxCurrAddr - sport.iRxBuffer1)),
        halfAt sport sport.iTxBuffer1 (writeHalf sport (irq.txCurrAddr - sport.iTxBuffer1)))
    else none := by
  rw [← isrRead_fst sport irq.rxCurrAddr stats.read, ← isrWrite_fst sport irq.txCurrAddr stats.write]
  rfl

end Processing

/-- What happens to the statistics. -/
inductive Event
  | interrupt (irq : Interrupt)
  | reset

section Runs

variable (sport : Sport)

/-- One event. -/
def handle (stats : Stats) : Event → Stats
  | .interrupt irq => (sportRxIsr sport irq stats).2
  | .reset => procWriteBfsiReset stats

/-- One event after the other. -/
def run (events : List Event) (stats : Stats) : Stats := events.foldl (handle sport) stats

theorem run_append (before after : List Event) (stats : Stats) :
    run sport (before ++ after) stats = run sport after (run sport before stats) :=
  List.foldl_append

theorem run_snoc (events : List Event) (event : Event) (stats : Stats) :
    run sport (events ++ [event]) stats = handle sport (run sport events stats) event :=
  run_append sport events [event] stats

end Runs

/-! ### The counters of one direction -/

/-- How often each half has been handed out, how often one was handed out again, and the last one. -/
structure Tally where
  first : Int
  second : Int
  didntswap : Int
  last : PingPong

namespace Tally

/-- Hand out a half. -/
def count (tally : Tally) (half : PingPong) : Tally where
  first := tally.first + if half = .ping then 1 else 0
  second := tally.second + if half = .pong then 1 else 0
  didntswap := tally.didntswap + if half = tally.last then 1 else 0
  last := half

/-- Clear the counters. -/
def clear (tally : Tally) : Tally := ⟨0, 0, 0, tally.last⟩

/-- The counters stand for this many interrupts. The half that was handed out last tells which count may be
one further ahead. -/
structure Accounts (tally : Tally) (interrupts : Nat) : Prop where
  total : tally.first + tally.second = interrupts
  first_nonneg : 0 ≤ tally.first
  second_nonneg : 0 ≤ tally.second
  didntswap_nonneg : 0 ≤ tally.didntswap
  didntswap_le : tally.didntswap ≤ interrupts
  ping : tally.last = .ping →
    -tally.didntswap ≤ tally.first - tally.second ∧ tally.first - tally.second ≤ tally.didntswap + 1
  pong : tally.last = .pong →
    -(tally.didntswap + 1) ≤ tally.first - tally.second ∧ tally.first - tally.second ≤ tally.didntswap

variable {tally : Tally} {interrupts : Nat}

theorem count_ping (tally : Tally) : tally.count .ping = ⟨tally.first + 1, tally.second,
    tally.didntswap + (if .ping = tally.last then 1 else 0), .ping⟩ := by
  simp only [count, if_true, reduceCtorEq, if_false, Int.add_zero]

theorem count_pong (tally : Tally) : tally.count .pong = ⟨tally.first, tally.second + 1,
    tally.didntswap + (if .pong = tally.last then 1 else 0), .pong⟩ := by
  simp only [count, if_true, reduceCtorEq, if_false, Int.add_zero]

/-- **One more interrupt.** A half handed out again raises the count of those; the other half turns the
bound round. -/
theorem Accounts.count (accounts : tally.Accounts interrupts) (half : PingPong) :
    (tally.count half).Accounts (interrupts + 1) := by
  obtain ⟨total, first, second, low, high, ping, pong⟩ := accounts
  cases last : tally.last with
  | ping =>
    obtain ⟨behind, ahead⟩ := ping last
    cases half with
    | ping =>
      rw [count_ping, if_pos last.symm]
      constructor <;> simp only [Int.natCast_add, forall_const, reduceCtorEq, false_imp_iff] <;> omega
    | pong =>
      rw [count_pong, last, if_neg (by decide)]
      constructor <;> simp only [Int.natCast_add, forall_const, reduceCtorEq, false_imp_iff] <;> omega
  | pong =>
    obtain ⟨behind, ahead⟩ := pong last
    cases half with
    | ping =>
      rw [count_ping, last, if_neg (by decide)]
      constructor <;> simp only [Int.natCast_add, forall_const, reduceCtorEq, false_imp_iff] <;> omega
    | pong =>
      rw [count_pong, if_pos last.symm]
      constructor <;> simp only [Int.natCast_add, forall_const, reduceCtorEq, false_imp_iff] <;> omega

/-- **A reset.** -/
theorem Accounts.clear (tally : Tally) : tally.clear.Accounts 0 := by
  constructor <;> simp [Tally.clear]

/-- **The two counts are close.** -/
theorem Accounts.close (accounts : tally.Accounts interrupts) :
    |tally.first - tally.second| ≤ tally.didntswap + 1 := by
  have miss := accounts.didntswap_nonneg
  rw [abs_le]
  cases last : tally.last with
  | ping =>
    obtain ⟨low, high⟩ := accounts.ping last
    exact ⟨by omega, high⟩
  | pong =>
    obtain ⟨low, high⟩ := accounts.pong last
    exact ⟨low, by omega⟩

end Tally

/-- The counters of the receive side. -/
def ReadLog.tally (log : ReadLog) : Tally :=
  ⟨log.readchunkFirst, log.readchunkSecond, log.readchunkDidntswap, log.lastreadpingpong⟩

/-- The counters of the transmit side. -/
def WriteLog.tally (log : WriteLog) : Tally :=
  ⟨log.writechunkFirst, log.writechunkSecond, log.writechunkDidntswap, log.lastwritepingpong⟩

/-- The counters are still in range of an `int`. -/
def Tally.InRange (tally : Tally) : Prop :=
  (0 ≤ tally.first ∧ tally.first < 2 ^ 31) ∧ (0 ≤ tally.second ∧ tally.second < 2 ^ 31) ∧
    (0 ≤ tally.didntswap ∧ tally.didntswap < 2 ^ 31)

theorem Tally.Accounts.inRange {tally : Tally} {interrupts : Nat} (accounts : tally.Accounts interrupts)
    (few : interrupts < 2 ^ 31) : tally.InRange := by
  obtain ⟨total, first, second, low, high, -, -⟩ := accounts
  exact ⟨⟨first, by omega⟩, ⟨second, by omega⟩, ⟨low, by omega⟩⟩

theorem isrRead_tally (sport : Sport) (currAddr : Int) (log : ReadLog) :
    (isrReadProcessing sport currAddr log).2.tally =
      log.tally.count (readHalf sport (currAddr - sport.iRxBuffer1)) := by
  unfold isrReadProcessing readHalf ReadLog.tally Tally.count
  by_cases first : (currAddr - sport.iRxBuffer1) % 128 ≥ 8 * sport.samplesPerChunk
  · simp only [first, if_true, reduceCtorEq, if_false]
    split_ifs <;> simp
  · simp only [first, if_true, reduceCtorEq, if_false]
    split_ifs <;> simp

theorem isrWrite_tally (sport : Sport) (currAddr : Int) (log : WriteLog) :
    (isrWriteProcessing sport currAddr log).2.tally =
      log.tally.count (writeHalf sport (currAddr - sport.iTxBuffer1)) := by
  unfold isrWriteProcessing writeHalf WriteLog.tally Tally.count
  by_cases first : currAddr - sport.iTxBuffer1 ≥ 8 * sport.samplesPerChunk
  · simp only [first, if_true, reduceCtorEq, if_false]
    split_ifs <;> simp
  · simp only [first, if_true, reduceCtorEq, if_false]
    split_ifs <;> simp

/-! ### The interrupts of a run -/

section Interrupts

variable (sport : Sport)

/-- The interrupts of a run. -/
def interrupts (events : List Event) : List Interrupt :=
  events.filterMap fun
    | .interrupt irq => some irq
    | .reset => none

/-- The interrupts since the last reset. -/
def sinceReset (events : List Event) : List Interrupt :=
  events.foldl (fun since event => match event with
    | .interrupt irq => since ++ [irq]
    | .reset => []) []

/-- Where an interrupt finds the receive DMA. -/
def rxOffset (irq : Interrupt) : Int := irq.rxCurrAddr - sport.iRxBuffer1

/-- The receive half that was handed out last. -/
def lastHalf (events : List Event) : PingPong :=
  ((interrupts events).map fun irq => readHalf sport (rxOffset sport irq)).getLastD .ping

/-- The five most recent receive offsets, the last one in the last place. Before the first interrupt they
are zero. -/
def recent (events : List Event) (i : Fin 5) : Int :=
  ((interrupts events).map (rxOffset sport)).reverse.getD (4 - i.val) 0

/-- A run ends with a read that did not swap. -/
def Misses (upto : List Event) : Prop :=
  ∃ before irq, upto = before ++ [.interrupt irq] ∧ readHalf sport (rxOffset sport irq) = lastHalf sport before

/-- A read did not swap at this point of a run, and no reset has come since. -/
def Missed (events upto : List Event) : Prop :=
  Misses sport upto ∧ ∃ after, events = upto ++ after ∧ .reset ∉ after

variable {sport} {events upto : List Event} {irq : Interrupt}

theorem interrupts_interrupt : interrupts (events ++ [.interrupt irq]) = interrupts events ++ [irq] := by
  rw [interrupts, List.filterMap_append]
  rfl

theorem interrupts_reset : interrupts (events ++ [.reset]) = interrupts events := by
  rw [interrupts, List.filterMap_append]
  exact List.append_nil _

theorem sinceReset_interrupt : sinceReset (events ++ [.interrupt irq]) = sinceReset events ++ [irq] := by
  rw [sinceReset, List.foldl_append]
  rfl

theorem sinceReset_reset : sinceReset (events ++ [.reset]) = [] := by
  rw [sinceReset, List.foldl_append]
  rfl

/-- Only interrupts count since a reset. -/
theorem sinceReset_length_le (events : List Event) : (sinceReset events).length ≤ (interrupts events).length := by
  induction events using List.reverseRecOn with
  | nil => exact Nat.le_refl 0
  | append_singleton events event ih =>
    cases event with
    | interrupt irq =>
      rw [sinceReset_interrupt, interrupts_interrupt, List.length_append, List.length_append]
      exact Nat.add_le_add_right ih _
    | reset =>
      rw [sinceReset_reset]
      exact Nat.zero_le _

theorem lastHalf_interrupt : lastHalf sport (events ++ [.interrupt irq]) = readHalf sport (rxOffset sport irq) := by
  rw [lastHalf, interrupts_interrupt, List.map_append, List.map_singleton, List.getLastD_concat]

theorem lastHalf_reset : lastHalf sport (events ++ [.reset]) = lastHalf sport events := by
  rw [lastHalf, interrupts_reset, lastHalf]

theorem recent_interrupt : recent sport (events ++ [.interrupt irq]) =
    remember (recent sport events) (rxOffset sport irq) := by
  funext i
  rw [recent, interrupts_interrupt, List.map_append, List.map_singleton, List.reverse_concat, remember]
  by_cases room : i.val + 1 < 5
  · have place : 4 - i.val = 4 - (i.val + 1) + 1 := by omega
    rw [dif_pos room, place, List.getD_cons_succ, recent]
  · have place : 4 - i.val = 0 := by omega
    rw [dif_neg room, place, List.getD_cons_zero]

theorem recent_reset : recent sport (events ++ [.reset]) = recent sport events := by
  funext i
  rw [recent, interrupts_reset, recent]

theorem not_misses_nil : ¬ Misses sport [] := by
  rintro ⟨before, irq, empty, -⟩
  exact List.append_ne_nil_of_right_ne_nil before (List.cons_ne_nil _ _) empty.symm

theorem misses_interrupt : Misses sport (events ++ [.interrupt irq]) ↔
    readHalf sport (rxOffset sport irq) = lastHalf sport events := by
  constructor
  · rintro ⟨before, last, same, misses⟩
    obtain ⟨rfl, last⟩ := List.append_inj' same rfl
    cases last
    exact misses
  · exact fun misses => ⟨events, irq, rfl, misses⟩

/-- A reset clears the reads away. -/
theorem not_missed_reset : ¬ Missed sport (events ++ [.reset]) upto := by
  rintro ⟨⟨before, irq, rfl, -⟩, after, same, cleared⟩
  rcases List.eq_nil_or_concat after with rfl | ⟨front, last, rfl⟩
  · rw [List.append_nil] at same
    cases (List.append_inj' same rfl).2
  · rw [List.concat_eq_append, ← List.append_assoc] at same
    cases (List.append_inj' same rfl).2
    rw [List.concat_eq_append] at cleared
    exact cleared List.mem_concat_self

/-- What an interrupt adds to the reads. -/
theorem missed_interrupt : Missed sport (events ++ [.interrupt irq]) upto ↔
    Missed sport events upto ∨
      (upto = events ++ [.interrupt irq] ∧ readHalf sport (rxOffset sport irq) = lastHalf sport events) := by
  constructor
  · rintro ⟨misses, after, same, cleared⟩
    rcases List.eq_nil_or_concat after with rfl | ⟨front, last, rfl⟩
    · rw [List.append_nil] at same
      subst same
      exact .inr ⟨rfl, misses_interrupt.mp misses⟩
    · rw [List.concat_eq_append] at same cleared
      rw [← List.append_assoc] at same
      obtain ⟨rfl, -⟩ := List.append_inj' same rfl
      exact .inl ⟨misses, front, rfl, fun member => cleared (List.mem_append_left _ member)⟩
  · rintro (⟨misses, after, rfl, cleared⟩ | ⟨rfl, misses⟩)
    · refine ⟨misses, after ++ [.interrupt irq], List.append_assoc _ _ _, fun member => ?_⟩
      rcases List.mem_append.mp member with early | late
      · exact cleared early
      · cases List.mem_singleton.mp late
    · exact ⟨misses_interrupt.mpr misses, [], (List.append_nil _).symm, List.not_mem_nil⟩

/-- The point is in the run. -/
theorem Missed.length_le (missed : Missed sport events upto) : upto.length ≤ events.length := by
  obtain ⟨-, after, rfl, -⟩ := missed
  rw [List.length_append]
  exact Nat.le_add_right _ _

end Interrupts

/-! ### The statistics of a run -/

/-- What the statistics are after a run. -/
structure Accounted (sport : Sport) (events : List Event) (stats : Stats) : Prop where
  reads : stats.read.tally.Accounts (sinceReset events).length
  writes : stats.write.tally.Accounts (sinceReset events).length
  last : stats.read.lastreadpingpong = lastHalf sport events
  lastX : stats.read.lastX = recent sport events
  none : (∀ upto, ¬ Missed sport events upto) → stats.read.badX = fun _ => 0
  bad : ∀ upto, Missed sport events upto →
    (∀ later, Missed sport events later → later.length ≤ upto.length) → stats.read.badX = recent sport upto

section Accounting

variable {sport : Sport} {events : List Event} {stats : Stats}

/-- The history that an interrupt leaves. -/
theorem isrRead_history (sport : Sport) (irq : Interrupt) (log : ReadLog) :
    let x := rxOffset sport irq
    (isrReadProcessing sport irq.rxCurrAddr log).2.lastX = remember log.lastX x ∧
    (isrReadProcessing sport irq.rxCurrAddr log).2.badX =
      if readHalf sport x = log.lastreadpingpong then remember log.lastX x else log.badX := by
  unfold isrReadProcessing readHalf rxOffset
  by_cases first : (irq.rxCurrAddr - sport.iRxBuffer1) % 128 ≥ 8 * sport.samplesPerChunk
  · simp only [first, if_true]
    split <;> exact ⟨rfl, rfl⟩
  · simp only [first, if_false]
    split <;> exact ⟨rfl, rfl⟩

/-- Before the first event. -/
theorem accounted_nil (sport : Sport) : Accounted sport [] initial where
  reads := Tally.Accounts.clear ⟨0, 0, 0, .ping⟩
  writes := Tally.Accounts.clear ⟨0, 0, 0, .ping⟩
  last := rfl
  lastX := by
    funext i
    exact List.getD_nil.symm
  none := fun _ => rfl
  bad := by
    rintro upto ⟨misses, after, empty, -⟩
    rw [(List.append_eq_nil_iff.mp empty.symm).1] at misses
    exact absurd misses not_misses_nil

/-- **A reset** clears the counters, and leaves the half that was handed out last. -/
theorem Accounted.reset (accounted : Accounted sport events stats) :
    Accounted sport (events ++ [.reset]) (procWriteBfsiReset stats) where
  reads := by
    rw [sinceReset_reset]
    exact Tally.Accounts.clear stats.read.tally
  writes := by
    rw [sinceReset_reset]
    exact Tally.Accounts.clear stats.write.tally
  last := by
    rw [lastHalf_reset]
    exact accounted.last
  lastX := by
    rw [recent_reset]
    exact accounted.lastX
  none := fun _ => rfl
  bad := fun _ missed => absurd missed not_missed_reset

/-- **An interrupt** counts in both directions, and copies the history if the read did not swap. -/
theorem Accounted.interrupt (accounted : Accounted sport events stats) (irq : Interrupt) :
    Accounted sport (events ++ [.interrupt irq]) (sportRxIsr sport irq stats).2 := by
  obtain ⟨lastX, badX⟩ := isrRead_history sport irq stats.read
  have history : remember stats.read.lastX (rxOffset sport irq) = recent sport (events ++ [.interrupt irq]) := by
    rw [accounted.lastX, recent_interrupt]
  rw [accounted.last] at badX
  refine ⟨?_, ?_, ?_, ?_, fun none => ?_, fun upto missed latest => ?_⟩
  · rw [sportRxIsr_read, isrRead_tally, sinceReset_interrupt, List.length_append]
    exact accounted.reads.count _
  · rw [sportRxIsr_write, isrWrite_tally, sinceReset_interrupt, List.length_append]
    exact accounted.writes.count _
  · rw [sportRxIsr_read, (isrRead_log sport irq.rxCurrAddr stats.read).1, lastHalf_interrupt]
    rfl
  · rw [sportRxIsr_read, lastX]
    exact history
  · have swaps : ¬ readHalf sport (rxOffset sport irq) = lastHalf sport events := fun misses =>
      none _ (missed_interrupt.mpr (.inr ⟨rfl, misses⟩))
    rw [sportRxIsr_read, badX, if_neg swaps]
    exact accounted.none fun upto missed => none upto (missed_interrupt.mpr (.inl missed))
  · rw [sportRxIsr_read, badX]
    by_cases misses : readHalf sport (rxOffset sport irq) = lastHalf sport events
    · -- no later point of the run than its end
      have here := latest _ (missed_interrupt.mpr (.inr ⟨rfl, misses⟩))
      rw [if_pos misses]
      rcases missed_interrupt.mp missed with earlier | ⟨rfl, -⟩
      · have before := earlier.length_le
        rw [List.length_append, List.length_singleton] at here
        omega
      · exact history
    · rw [if_neg misses]
      rcases missed_interrupt.mp missed with earlier | ⟨-, again⟩
      · exact accounted.bad upto earlier fun later missed => latest later (missed_interrupt.mpr (.inl missed))
      · exact absurd again misses

/-- **Every run.** -/
theorem accounted_run (sport : Sport) (events : List Event) : Accounted sport events (run sport events initial) := by
  induction events using List.reverseRecOn with
  | nil => exact accounted_nil sport
  | append_singleton events event ih =>
    rw [run_snoc]
    cases event with
    | interrupt irq => exact ih.interrupt irq
    | reset => exact ih.reset

end Accounting

/-- **The statistics account for every interrupt since the last reset.** In each direction the halves handed
out add up to the interrupts, and differ by no more than the halves handed out again, and one; no counter
overflows. The copied history is zero while every read has swapped since the reset, and otherwise has the
five most recent offsets as of the last read that did not. -/
theorem run_accounts (sport : Sport) (events : List Event) (few : (interrupts events).length < 2 ^ 31) :
    let stats := run sport events initial
    (stats.read.readchunkFirst + stats.read.readchunkSecond = (sinceReset events).length ∧
      |stats.read.readchunkFirst - stats.read.readchunkSecond| ≤ stats.read.readchunkDidntswap + 1) ∧
    (stats.write.writechunkFirst + stats.write.writechunkSecond = (sinceReset events).length ∧
      |stats.write.writechunkFirst - stats.write.writechunkSecond| ≤ stats.write.writechunkDidntswap + 1) ∧
    (stats.read.tally.InRange ∧ stats.write.tally.InRange) ∧
    ((∀ upto, ¬ Missed sport events upto) → ∀ i, stats.read.badX i = 0) ∧
    ∀ upto, Missed sport events upto → (∀ later, Missed sport events later → later.length ≤ upto.length) →
      stats.read.badX = recent sport upto := by
  have accounted := accounted_run sport events
  have since : (sinceReset events).length < 2 ^ 31 := Nat.lt_of_le_of_lt (sinceReset_length_le events) few
  exact ⟨⟨accounted.reads.total, accounted.reads.close⟩, ⟨accounted.writes.total, accounted.writes.close⟩,
    ⟨accounted.reads.inRange since, accounted.writes.inRange since⟩,
    fun none i => congrFun (accounted.none none) i, accounted.bad⟩

/-- An interrupt that does not swap, a reset, and one that does. -/
def missAndReset : List Event :=
  [.interrupt ⟨0, 100, 64, 270, true⟩, .reset, .interrupt ⟨1000, 1100, 128, 334, true⟩]

/-- One interrupt since the reset. -/
theorem run_accounts_one : (run ⟨8, 0, 256⟩ missAndReset initial).read.readchunkFirst +
    (run ⟨8, 0, 256⟩ missAndReset initial).read.readchunkSecond = 1 :=
  (run_accounts ⟨8, 0, 256⟩ missAndReset (by decide)).1.1

end Baps.Bfsi
