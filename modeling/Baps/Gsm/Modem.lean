/-
**Starting a modem that need not answer.**

`init_GSM` switches the modem off and on, greets it, unlocks the SIM card and sets it up, in rounds of a
command and an answer. Here the modem is what the driver gets from it: a sequence of readings of the
register that tells whether it is on, and a sequence of answers. Some loops give up after three rounds;
the loop that enters the PIN and the five that set the modem up go on until they are told "0".

* `Hears` — a program as a function of the two sequences; `initGSM_hears` computes it for `init_GSM`.
* `settle_iff`, `unlock_iff` — **when the loops without a bound come to an end**.
* `initGSM_finishes_iff` — **when `init_GSM` ends**: the modem cannot be switched, or refuses, or says "0"
  often enough.
-/

import Baps.Gsm.Startup
import Mathlib.Data.Nat.Count

namespace Baps.Gsm

open Interaction Wcfxs

/-! ### The modem, as it is heard -/

/-- What is still to be read from the status register, and what is still to be answered. -/
structure Modem where
  reads : Nat → UInt16
  answers : Nat → List UInt8

namespace Modem

/-- After a reading. -/
def read (modem : Modem) : Modem := { modem with reads := fun n => modem.reads (n + 1) }

/-- After an answer. -/
def next (modem : Modem) : Modem := { modem with answers := fun n => modem.answers (n + 1) }

/-- After some answers. -/
def skip (modem : Modem) (count : Nat) : Modem := { modem with answers := fun n => modem.answers (n + count) }

/-- `VDD_EXT` reads high. -/
def on (modem : Modem) : Prop := modem.reads 0 &&& 0x0002 ≠ 0

instance (modem : Modem) : Decidable modem.on := inferInstanceAs (Decidable (_ ≠ _))

/-- Everything the driver hears comes from the two sequences. -/
def env : Env Modem where
  setreg := fun _ _ _ => id
  getreg := fun _ _ => (0, ·)
  setLed := fun _ _ => id
  forgetCard := id
  gsmSend := fun _ _ => id
  gsmReceive := fun _ modem => (modem.answers 0, modem.next)
  uart := fun _ access modem =>
    match access with
    | .read _ => (modem.reads 0, modem.read)
    | _ => (0, modem)
  jiffies := (0, ·)
  waitJustABit := fun _ => id
  copyToUser := fun _ => (false, ·)

/-- After a loop that gives up, with the rounds left after this one. -/
def upTo (expected : List UInt8) : Nat → Modem → Modem
  | 0, modem => modem.next
  | left + 1, modem => if modem.answers 0 ≠ expected then upTo expected left modem.next else modem.next

/-- The first answer that passes a test, and what is left after it. -/
def await (test : List UInt8 → Prop) [DecidablePred test] : Nat → Modem → Option (List UInt8 × Modem)
  | 0, _ => none
  | fuel + 1, modem =>
      if test (modem.answers 0) then some (modem.answers 0, modem.next) else await test fuel modem.next

/-- After the modem has said "0". -/
def untilOk (fuel : Nat) (modem : Modem) : Option Modem := (modem.await (· = codeOk) fuel).map Prod.snd

/-- After the modem has said "0" a number of times. -/
def settle (fuel : Nat) : Nat → Modem → Option Modem
  | 0, modem => some modem
  | left + 1, modem => (untilOk fuel modem).bind (settle fuel left)

/-- The answer to a wrong PIN. -/
def wrongPin : List UInt8 := text "+CME ERROR: incorrect password"

/-- An answer that ends the loop for the PIN. -/
def EndsPin (line : List UInt8) : Prop := line = wrongPin ∨ line = codeOk

instance : DecidablePred EndsPin := fun _ => inferInstanceAs (Decidable (_ ∨ _))

/-- After the PIN has been taken, `0`, or refused, `1`. -/
def enterPin (fuel : Nat) (modem : Modem) : Option (Int × Modem) :=
  (modem.await EndsPin fuel).map fun heard => (if heard.1 = wrongPin then 1 else 0, heard.2)

theorem untilOk_succ (fuel : Nat) (modem : Modem) : modem.untilOk (fuel + 1) =
    if modem.answers 0 = codeOk then some modem.next else modem.next.untilOk fuel := by
  rw [untilOk, await]
  split <;> rfl

theorem enterPin_succ (fuel : Nat) (modem : Modem) : modem.enterPin (fuel + 1) =
    if modem.answers 0 = wrongPin then some (1, modem.next)
    else if modem.answers 0 ≠ codeOk then modem.next.enterPin fuel
    else some (0, modem.next) := by
  rw [enterPin, await]
  by_cases wrong : modem.answers 0 = wrongPin
  · rw [if_pos (.inl wrong), Option.map_some, if_pos wrong]
    exact (if_pos wrong).symm
  · rw [if_neg wrong]
    by_cases ok : modem.answers 0 = codeOk
    · rw [if_neg (not_not_intro ok), if_pos (.inr ok), Option.map_some, if_neg wrong]
    · rw [if_pos ok, if_neg fun ends => ends.elim wrong ok]
      rfl

/-- After the SIM card has been asked for, and its PIN entered. -/
def checkSim (fuel : Nat) (modem : Modem) : Option (Int × Modem) :=
  if modem.answers 0 = text "+CPIN: SIM PIN" then enterPin fuel modem.next
  else if modem.answers 0 = text "+CME ERROR: SIM not inserted" then some (1, modem.next)
  else if modem.answers 0 = text "+CPIN: READY" then some (0, modem.next)
  else some (1, modem.next)

/-- After the greeting. -/
def greeted (modem : Modem) : Modem :=
  (((modem.next.upTo (text "OK") 2).upTo codeOk 2).upTo codeOk 2)

/-- `init_GSM` after the SIM card. -/
def proceed (fuel : Nat) (locked : Int × Modem) : Option (Int × Modem) :=
  if locked.1 ≠ 0 then some (1, locked.2) else (locked.2.settle fuel 5).map fun modem => (0, modem)

/-- `init_GSM` from the SIM card on. -/
def unlock (fuel : Nat) (modem : Modem) : Option (Int × Modem) :=
  (checkSim fuel modem).bind (proceed fuel)

/-- `init_GSM` from the power key on. -/
def powerUp (fuel : Nat) (modem : Modem) : Option (Int × Modem) :=
  if modem.on then unlock fuel modem.read.greeted else some (1, modem.read)

/-- `init_GSM`. -/
def init (fuel : Nat) (modem : Modem) : Option (Int × Modem) :=
  if modem.on then
    if (modem.read.upTo (text "NORMAL POWER DOWN") 2).on then
      some (1, (modem.read.upTo (text "NORMAL POWER DOWN") 2).read)
    else powerUp fuel (modem.read.upTo (text "NORMAL POWER DOWN") 2).read
  else powerUp fuel modem.read

end Modem

/-! ### The programs, as functions of the modem -/

/-- What a program makes of a modem: its value, and what is left of the two sequences. -/
def Hears {α : Type} (program : Prog α) (heard : Modem → Option (α × Modem)) : Prop :=
  ∀ world : World Modem,
    (program.run (handler Modem.env) world).map (fun result => (result.1, result.2.hw)) = heard world.hw

namespace Hears

variable {α β : Type}

theorem pure (value : α) : Hears (pure value) fun modem => some (value, modem) := fun _ => rfl

theorem bind {program : Prog α} {rest : α → Prog β} {heard : Modem → Option (α × Modem)}
    {next : α → Modem → Option (β × Modem)} (first : Hears program heard)
    (second : ∀ value, Hears (rest value) (next value)) :
    Hears (program >>= rest) fun modem => (heard modem).bind fun result => next result.1 result.2 := by
  intro world
  show _ = (heard world.hw).bind fun result => next result.1 result.2
  rw [Program.run_bind, ← first world]
  cases program.run (handler Modem.env) world with
  | none => rfl
  | some result => exact second result.1 result.2

theorem ite {test : Prop} [Decidable test] {first second : Prog α} {one two : Modem → Option (α × Modem)}
    (yes : Hears first one) (no : Hears second two) :
    Hears (if test then first else second) fun modem => if test then one modem else two modem := by
  split
  · exact yes
  · exact no

theorem congr {program : Prog α} {first second : Modem → Option (α × Modem)} (hears : Hears program first)
    (same : ∀ modem, first modem = second modem) : Hears program second :=
  fun world => (hears world).trans (same world.hw)

theorem hang : Hears (hang : Prog α) fun _ => none := fun _ => rfl

end Hears

section Loops

variable (params : Params) (card : Card)

theorem askModem_hears (command : List UInt8) (ticks : Nat) :
    Hears (askModem card command ticks) fun modem => some (modem.answers 0, modem.next) := fun _ => rfl

theorem modemOn_hears : Hears (modemOn card) fun modem => some (decide modem.on, modem.read) := fun _ => rfl

theorem wait_hears (ticks : Nat) : Hears (waitJustABit ticks) fun modem => some ((), modem) := fun _ => rfl

theorem askUpTo_hears (command expected : List UInt8) (ticks left : Nat) :
    Hears (askUpTo card command expected ticks left) fun modem => some ((), modem.upTo expected left) := by
  induction left with
  | zero => exact fun _ => rfl
  | succ left ih =>
    refine ((askModem_hears card command ticks).bind fun line => .ite ih (.pure ())).congr fun modem => ?_
    rw [Option.bind_some, Modem.upTo]
    split <;> rfl

theorem askUntilOk_hears (command : List UInt8) (ticks fuel : Nat) :
    Hears (askUntilOk card command ticks fuel) fun modem => (modem.untilOk fuel).map fun rest => ((), rest) := by
  induction fuel with
  | zero => exact .hang
  | succ fuel ih =>
    refine ((askModem_hears card command ticks).bind fun line => .ite ih (.pure ())).congr fun modem => ?_
    rw [Option.bind_some, Modem.untilOk_succ]
    by_cases ok : modem.answers 0 = codeOk
    · rw [if_neg (not_not_intro ok), if_pos ok]
      rfl
    · rw [if_pos ok, if_neg ok]

theorem settle_hears (ticks fuel : Nat) (commands : List String) :
    Hears (commands.forM fun command => askUntilOk card (text command) ticks fuel)
      fun modem => (modem.settle fuel commands.length).map fun rest => ((), rest) := by
  induction commands with
  | nil => exact .pure ()
  | cons command rest ih =>
    refine ((askUntilOk_hears card (text command) ticks fuel).bind fun _ => ih).congr fun modem => ?_
    rw [List.length_cons, Modem.settle]
    cases modem.untilOk fuel <;> rfl

theorem enterPin_hears (simEnterString : List UInt8) (fuel : Nat) :
    Hears (enterPin params card simEnterString fuel) (Modem.enterPin fuel) := by
  induction fuel with
  | zero => exact .hang
  | succ fuel ih =>
    refine ((askModem_hears card simEnterString _).bind fun _ =>
      .ite (.pure 1) (.ite ih (.pure 0))).congr fun modem => ?_
    rw [Option.bind_some, Modem.enterPin_succ]
    rfl

theorem checkSim_hears (simEnterString : List UInt8) :
    Hears (checkSim params card simEnterString) (Modem.checkSim params.fuel) :=
  ((askModem_hears card _ _).bind fun _ =>
    .ite (enterPin_hears params card simEnterString params.fuel)
      (.ite (.pure 1) (.ite (.pure 0) (.pure 1)))).congr fun _ => rfl

theorem modemGreet_hears : Hears (modemGreet params card) fun modem => some ((), modem.greeted) :=
  ((askModem_hears card _ _).bind fun _ => (askUpTo_hears card _ _ _ _).bind fun _ =>
    (askUpTo_hears card _ _ _ _).bind fun _ => askUpTo_hears card _ _ _ _).congr fun _ => rfl

theorem modemOff_hears : Hears (modemOff params card) fun modem =>
    if modem.on then
      if (modem.read.upTo (text "NORMAL POWER DOWN") 2).on then
        some (1, (modem.read.upTo (text "NORMAL POWER DOWN") 2).read)
      else some (0, (modem.read.upTo (text "NORMAL POWER DOWN") 2).read)
    else some (0, modem.read) := by
  refine ((modemOn_hears card).bind fun _ => .ite ((askUpTo_hears card _ _ _ _).bind fun _ =>
    (modemOn_hears card).bind fun _ => .ite (.pure 1) ((wait_hears _).bind fun _ => .pure 0))
      (.pure 0)).congr fun modem => ?_
  simp only [Option.bind_some, decide_eq_true_eq]

theorem modemStart_hears : Hears (modemStart params card) fun modem =>
    some (if modem.on then 0 else 1, modem.read) := by
  intro world
  show some (if decide world.hw.on = true then (0 : Int) else 1, world.hw.read) = _
  simp only [decide_eq_true_eq]

/-- **`init_GSM`, as a function of what it hears.** -/
theorem initGSM_hears (simEnterString : List UInt8) :
    Hears (initGSM params card simEnterString) (Modem.init params.fuel) := by
  have settled : Hears (modemSettle params card)
      fun modem => (modem.settle params.fuel 5).map fun rest => ((), rest) := settle_hears card _ _ _
  refine ((modemOff_hears params card).bind fun _ => .ite (.pure 1) ((modemStart_hears params card).bind
    fun _ => .ite (.pure 1) ((modemGreet_hears params card).bind fun _ =>
      (checkSim_hears params card simEnterString).bind fun _ => .ite (.pure 1) ((wait_hears _).bind fun _ =>
        settled.bind fun _ => .pure 0)))).congr fun modem => ?_
  have powered : ∀ modem : Modem, ((some (if modem.on then (0 : Int) else 1, modem.read)).bind fun result =>
      if result.1 ≠ 0 then some ((1 : Int), result.2)
      else (some ((), result.2.greeted)).bind fun result =>
        (Modem.checkSim params.fuel result.2).bind fun result =>
          if result.1 ≠ 0 then some (1, result.2)
          else (some ((), result.2)).bind fun result =>
            ((result.2.settle params.fuel 5).map fun rest => ((), rest)).bind fun result =>
              some (0, result.2)) = modem.powerUp params.fuel := by
    intro modem
    rw [Option.bind_some, Modem.powerUp]
    by_cases on : modem.on
    · simp only [if_pos on, ne_eq, not_true_eq_false, if_false, Option.bind_some, Modem.unlock]
      refine Option.bind_congr fun locked _ => ?_
      rw [Modem.proceed]
      by_cases refused : locked.1 = 0
      · rw [if_neg (not_not_intro refused), if_neg (not_not_intro refused)]
        cases locked.2.settle params.fuel 5 <;> rfl
      · rw [if_pos refused, if_pos refused]
    · simp only [if_neg on, ne_eq, one_ne_zero, not_false_eq_true, if_true]
  rw [Modem.init]
  by_cases on : modem.on
  · rw [if_pos on, if_pos on]
    by_cases stuck : (modem.read.upTo (text "NORMAL POWER DOWN") 2).on
    · rw [if_pos stuck, if_pos stuck]
      rfl
    · rw [if_neg stuck, if_neg stuck]
      exact powered _
  · rw [if_neg on, if_neg on]
    exact powered _

end Loops

/-! ### When the loops end -/

namespace Modem

/-- At least so many of the answers are "0". -/
def Acknowledges (modem : Modem) (count : Nat) : Prop :=
  ∃ n, count ≤ Nat.count (fun i => modem.answers i = codeOk) n

/-- The answer refuses the PIN, and none before it is "0". -/
def Refuses (modem : Modem) : Prop :=
  ∃ j, modem.answers j = wrongPin ∧ ∀ i < j, modem.answers i ≠ codeOk

variable {modem rest : Modem}

theorem await_iff {test : List UInt8 → Prop} [DecidablePred test] {fuel : Nat} {line : List UInt8} :
    modem.await test fuel = some (line, rest) ↔ ∃ j < fuel, test (modem.answers j) ∧
      (∀ i < j, ¬ test (modem.answers i)) ∧ line = modem.answers j ∧ rest = modem.skip (j + 1) := by
  induction fuel generalizing modem with
  | zero => simp [await]
  | succ fuel ih =>
    rw [await]
    by_cases now : test (modem.answers 0)
    · rw [if_pos now]
      constructor
      · intro same
        obtain ⟨rfl, rfl⟩ := Prod.mk.inj (Option.some.inj same)
        exact ⟨0, Nat.succ_pos fuel, now, fun i low => absurd low (Nat.not_lt_zero i), rfl, rfl⟩
      · rintro ⟨j, -, -, first, rfl, rfl⟩
        cases j with
        | zero => rfl
        | succ j => exact absurd now (first 0 (Nat.succ_pos j))
    · rw [if_neg now, ih]
      constructor
      · rintro ⟨j, inside, found, first, rfl, rfl⟩
        refine ⟨j + 1, by omega, found, fun i low => ?_, rfl, rfl⟩
        cases i with
        | zero => exact now
        | succ i => exact first i (by omega)
      · rintro ⟨j, inside, found, first, rfl, rfl⟩
        cases j with
        | zero => exact absurd found now
        | succ j => exact ⟨j, by omega, found, fun i low => first (i + 1) (by omega), rfl, rfl⟩

theorem untilOk_iff {fuel : Nat} : modem.untilOk fuel = some rest ↔
    ∃ j < fuel, modem.answers j = codeOk ∧ (∀ i < j, modem.answers i ≠ codeOk) ∧ rest = modem.skip (j + 1) := by
  rw [untilOk, Option.map_eq_some_iff]
  constructor
  · rintro ⟨⟨line, rest⟩, heard, rfl⟩
    obtain ⟨j, inside, found, first, -, rfl⟩ := await_iff.mp heard
    exact ⟨j, inside, found, first, rfl⟩
  · rintro ⟨j, inside, found, first, rfl⟩
    exact ⟨(modem.answers j, modem.skip (j + 1)), await_iff.mpr ⟨j, inside, found, first, rfl, rfl⟩, rfl⟩

theorem acknowledges_zero : modem.Acknowledges 0 := ⟨0, Nat.zero_le _⟩

/-- One acknowledgement more: there is a first one. -/
theorem acknowledges_succ {count : Nat} : modem.Acknowledges (count + 1) ↔
    ∃ j, modem.answers j = codeOk ∧ (∀ i < j, modem.answers i ≠ codeOk) ∧
      (modem.skip (j + 1)).Acknowledges count := by
  have none : ∀ n, (∀ i < n, modem.answers i ≠ codeOk) →
      Nat.count (fun i => modem.answers i = codeOk) n = 0 := fun n silent => by
    rw [Nat.count_eq_card_filter_range, Finset.filter_false_of_mem fun i member =>
      silent i (Finset.mem_range.mp member), Finset.card_empty]
  have after : ∀ j n, modem.answers j = codeOk → (∀ i < j, modem.answers i ≠ codeOk) →
      Nat.count (fun i => modem.answers i = codeOk) (j + 1 + n) =
        Nat.count (fun i => (modem.skip (j + 1)).answers i = codeOk) n + 1 := by
    intro j n found silent
    have shift : (fun i => modem.answers (j + 1 + i) = codeOk) =
        fun i => (modem.skip (j + 1)).answers i = codeOk := by
      funext i
      rw [Nat.add_comm]
      rfl
    rw [Nat.count_add, Nat.count_succ, if_pos found, none j silent, Nat.add_comm]
    simp only [shift]
  constructor
  · rintro ⟨n, enough⟩
    have some : ∃ j, modem.answers j = codeOk := by
      by_contra silent
      rw [not_exists] at silent
      rw [none n fun i _ => silent i] at enough
      exact absurd enough (Nat.not_succ_le_zero count)
    have found := Nat.find_spec some
    have first : ∀ i < Nat.find some, modem.answers i ≠ codeOk := fun i low => Nat.find_min some low
    generalize Nat.find some = j at found first
    refine ⟨j, found, first, n, ?_⟩
    have longer : Nat.count (fun i => modem.answers i = codeOk) n ≤
        Nat.count (fun i => modem.answers i = codeOk) (j + 1 + n) := Nat.count_monotone _ (by omega)
    rw [after j n found first] at longer
    omega
  · rintro ⟨j, found, first, n, enough⟩
    refine ⟨j + 1 + n, ?_⟩
    rw [after j n found first]
    omega

theorem settle_mono {few many left : Nat} (more : few ≤ many) (settled : modem.settle few left = some rest) :
    modem.settle many left = some rest := by
  induction left generalizing modem with
  | zero => exact settled
  | succ left ih =>
    obtain ⟨middle, one, others⟩ := Option.bind_eq_some_iff.mp settled
    obtain ⟨j, inside, found, first, same⟩ := untilOk_iff.mp one
    exact Option.bind_eq_some_iff.mpr ⟨middle, untilOk_iff.mpr ⟨j, by omega, found, first, same⟩, ih others⟩

/-- **When the modem is set up**: it acknowledges every command. -/
theorem settle_iff {left : Nat} :
    (∃ fuel rest, modem.settle fuel left = some rest) ↔ modem.Acknowledges left := by
  induction left generalizing modem with
  | zero => exact ⟨fun _ => acknowledges_zero, fun _ => ⟨0, modem, rfl⟩⟩
  | succ left ih =>
    rw [acknowledges_succ]
    constructor
    · rintro ⟨fuel, rest, settled⟩
      obtain ⟨middle, one, others⟩ := Option.bind_eq_some_iff.mp settled
      obtain ⟨j, -, found, first, rfl⟩ := untilOk_iff.mp one
      exact ⟨j, found, first, ih.mp ⟨fuel, rest, others⟩⟩
    · rintro ⟨j, found, first, enough⟩
      obtain ⟨fuel, rest, others⟩ := ih.mpr enough
      refine ⟨fuel + j + 1, rest, Option.bind_eq_some_iff.mpr ⟨modem.skip (j + 1), ?_, ?_⟩⟩
      · exact untilOk_iff.mpr ⟨j, by omega, found, first, rfl⟩
      · exact settle_mono (by omega) others

theorem wrongPin_ne : wrongPin ≠ codeOk := by decide

/-- The loop for the PIN ends at the first answer of either kind; an acknowledgement has to be followed
by those of the other commands. -/
theorem enterPin_stops (stops : ∃ j, EndsPin (modem.answers j))
    (settles : ∀ j, modem.answers j = codeOk → (∀ i < j, ¬ EndsPin (modem.answers i)) →
      (modem.skip (j + 1)).Acknowledges 5) :
    ∃ fuel result, (modem.enterPin fuel).bind (proceed fuel) = some result := by
  have ends := Nat.find_spec stops
  have first : ∀ i < Nat.find stops, ¬ EndsPin (modem.answers i) := fun i low => Nat.find_min stops low
  generalize Nat.find stops = j at ends first
  have entered : ∀ fuel, j < fuel → modem.enterPin fuel =
      some (if modem.answers j = wrongPin then 1 else 0, modem.skip (j + 1)) := fun fuel inside => by
    rw [enterPin, await_iff.mpr ⟨j, inside, ends, first, rfl, rfl⟩]
    rfl
  by_cases wrong : modem.answers j = wrongPin
  · refine ⟨j + 1, (1, modem.skip (j + 1)), ?_⟩
    rw [entered _ (Nat.lt_succ_self j), if_pos wrong]
    rfl
  · obtain ⟨fuel, rest, settled⟩ := settle_iff.mpr (settles j (ends.resolve_left wrong) first)
    refine ⟨fuel + j + 1, (0, rest), ?_⟩
    rw [entered _ (by omega), if_neg wrong, Option.bind_some, proceed, if_neg (not_not_intro rfl),
      settle_mono (show fuel ≤ fuel + j + 1 by omega) settled]
    rfl

/-- **When the PIN is settled**: it is refused, or acknowledged like the five commands after it. -/
theorem pin_iff : (∃ fuel result, (modem.enterPin fuel).bind (proceed fuel) = some result) ↔
    modem.Refuses ∨ modem.Acknowledges 6 := by
  constructor
  · rintro ⟨fuel, result, done⟩
    obtain ⟨locked, entered, rest⟩ := Option.bind_eq_some_iff.mp done
    obtain ⟨⟨line, after⟩, heard, rfl⟩ := Option.map_eq_some_iff.mp entered
    obtain ⟨j, inside, ends, first, rfl, rfl⟩ := await_iff.mp heard
    have silent : ∀ i < j, modem.answers i ≠ codeOk := fun i low ok => first i low (.inr ok)
    by_cases wrong : modem.answers j = wrongPin
    · exact .inl ⟨j, wrong, silent⟩
    · right
      rw [proceed, if_neg wrong, if_neg (not_not_intro rfl)] at rest
      obtain ⟨settled, five, -⟩ := Option.map_eq_some_iff.mp rest
      exact acknowledges_succ.mpr ⟨j, ends.resolve_left wrong, silent, settle_iff.mp ⟨fuel, settled, five⟩⟩
  · rintro (⟨j, wrong, silent⟩ | enough)
    · -- no acknowledgement comes before the refusal, so the loop does not end with one
      refine enterPin_stops ⟨j, .inl wrong⟩ fun i ok first => ?_
      rcases Nat.lt_trichotomy i j with earlier | rfl | later
      · exact absurd ok (silent i earlier)
      · exact absurd (wrong.symm.trans ok) wrongPin_ne
      · exact absurd (.inl wrong) (first j later)
    · -- where it ends with one, that is the first
      obtain ⟨j, found, silent, five⟩ := acknowledges_succ.mp enough
      refine enterPin_stops ⟨j, .inr found⟩ fun i ok first => ?_
      rcases Nat.lt_trichotomy i j with earlier | rfl | later
      · exact absurd ok (silent i earlier)
      · exact five
      · exact absurd (.inr found) (first j later)

/-! ### When `init_GSM` ends -/

/-- The question for the SIM card comes to an end: the card cannot be used, or everything that is then
asked for is acknowledged. -/
def Unlocks (modem : Modem) : Prop :=
  (modem.answers 0 ≠ text "+CPIN: SIM PIN" ∧ modem.answers 0 ≠ text "+CPIN: READY") ∨
  (modem.answers 0 = text "+CPIN: READY" ∧ modem.next.Acknowledges 5) ∨
  (modem.answers 0 = text "+CPIN: SIM PIN" ∧ (modem.next.Refuses ∨ modem.next.Acknowledges 6))

/-- The modem that has been switched off cannot be switched on, or comes to an end with its SIM card. -/
def Starts (modem : Modem) : Prop := modem.on → modem.read.greeted.Unlocks

/-- The modem cannot be switched off, or comes to an end once it is. -/
def Obliging (modem : Modem) : Prop :=
  if modem.on then
    ¬ (modem.read.upTo (text "NORMAL POWER DOWN") 2).on →
      (modem.read.upTo (text "NORMAL POWER DOWN") 2).read.Starts
  else modem.read.Starts

theorem unlock_iff : (∃ fuel result, modem.unlock fuel = some result) ↔ modem.Unlocks := by
  have apart : text "+CPIN: READY" ≠ text "+CPIN: SIM PIN" ∧
      text "+CPIN: READY" ≠ text "+CME ERROR: SIM not inserted" := by decide
  unfold unlock Unlocks
  by_cases pin : modem.answers 0 = text "+CPIN: SIM PIN"
  · have asked : ∀ fuel, modem.checkSim fuel = modem.next.enterPin fuel := fun _ => if_pos pin
    simp only [asked, pin_iff, pin, ne_eq, not_true_eq_false, apart.1.symm, false_and, false_or, true_and]
  · by_cases ready : modem.answers 0 = text "+CPIN: READY"
    · have asked : ∀ fuel, modem.checkSim fuel = some (0, modem.next) := fun _ => by
        rw [checkSim, if_neg pin, if_neg (ready ▸ apart.2), if_pos ready]
      have settles : (∃ fuel result, proceed fuel (0, modem.next) = some result) ↔ modem.next.Acknowledges 5 := by
        rw [← settle_iff]
        refine exists_congr fun fuel => ?_
        rw [proceed, if_neg (not_not_intro rfl)]
        cases modem.next.settle fuel 5 <;> simp
      simp only [asked, Option.bind_some, settles, ready, ne_eq, not_true_eq_false, and_false, false_or,
        true_and, apart.1, false_and, or_false]
    · have asked : ∀ fuel, modem.checkSim fuel = some (1, modem.next) := fun _ => by
        rw [checkSim, if_neg pin, if_neg ready, ite_self]
      refine ⟨fun _ => .inl ⟨pin, ready⟩, fun _ => ⟨0, (1, modem.next), ?_⟩⟩
      rw [asked]
      rfl

theorem powerUp_iff : (∃ fuel result, modem.powerUp fuel = some result) ↔ modem.Starts := by
  unfold powerUp Starts
  by_cases on : modem.on
  · simp only [on, if_true, unlock_iff, true_imp_iff]
  · exact ⟨fun _ high => absurd high on, fun _ => ⟨0, _, if_neg on⟩⟩

theorem init_iff : (∃ fuel result, modem.init fuel = some result) ↔ modem.Obliging := by
  unfold init Obliging
  by_cases on : modem.on
  · simp only [if_pos on]
    by_cases stuck : (modem.read.upTo (text "NORMAL POWER DOWN") 2).on
    · exact ⟨fun _ off => absurd stuck off, fun _ => ⟨0, _, if_pos stuck⟩⟩
    · simp only [stuck, if_false, powerUp_iff, not_false_eq_true, true_imp_iff]
  · simp only [if_neg on, powerUp_iff]

/-- What `init_GSM` returns. -/
theorem init_value {fuel : Nat} {value : Int} (done : modem.init fuel = some (value, rest)) :
    value = 0 ∨ value = 1 := by
  have proceeds : ∀ {locked : Int × Modem}, proceed fuel locked = some (value, rest) → value = 0 ∨ value = 1 := by
    intro locked done
    rw [proceed] at done
    split at done
    · exact .inr (Prod.mk.inj (Option.some.inj done)).1.symm
    · obtain ⟨_, -, same⟩ := Option.map_eq_some_iff.mp done
      exact .inl (Prod.mk.inj same).1.symm
  have powered : ∀ {modem : Modem}, modem.powerUp fuel = some (value, rest) → value = 0 ∨ value = 1 := by
    intro modem done
    rw [powerUp] at done
    split at done
    · obtain ⟨locked, -, done⟩ := Option.bind_eq_some_iff.mp done
      exact proceeds done
    · exact .inr (Prod.mk.inj (Option.some.inj done)).1.symm
  rw [init] at done
  split at done
  · split at done
    · exact .inr (Prod.mk.inj (Option.some.inj done)).1.symm
    · exact powered done
  · exact powered done

end Modem

section Finishes

variable (params : Params) (card : Card) (simEnterString : List UInt8) (world : World Modem)

/-- `init_GSM` comes to an end, with 0 or 1: some number of rounds is enough for every loop. -/
def Finishes : Prop :=
  ∃ fuel, Program.Ends (handler Modem.env) (initGSM { params with fuel := fuel } card simEnterString) world
    fun value _ => value = 0 ∨ value = 1

theorem finishes_iff_init : Finishes params card simEnterString world ↔
    ∃ fuel result, world.hw.init fuel = some result := by
  refine exists_congr fun fuel => ?_
  have hears : ((initGSM { params with fuel := fuel } card simEnterString).run (handler Modem.env) world).map
      (fun result => (result.1, result.2.hw)) = world.hw.init fuel :=
    initGSM_hears { params with fuel := fuel } card simEnterString world
  rw [← hears]
  constructor
  · rintro ⟨value, after, ran, -⟩
    exact ⟨(value, after.hw), by rw [ran]; rfl⟩
  · rintro ⟨result, done⟩
    obtain ⟨⟨value, after⟩, ran, rfl⟩ := Option.map_eq_some_iff.mp done
    exact ⟨value, after, ran, Modem.init_value (hears.symm.trans done)⟩

/-- **When `init_GSM` comes to an end.** -/
theorem initGSM_finishes_iff : Finishes params card simEnterString world ↔ world.hw.Obliging :=
  (finishes_iff_init params card simEnterString world).trans Modem.init_iff

end Finishes

/-- A modem that starts with its SIM card unlocked, and answers every command after that with "4". -/
def errorModem : Modem where
  reads := fun n => if n = 0 then 0 else 2
  answers := fun n => if n = 10 then text "+CPIN: READY" else [0x34]

/-- It is asked for ever. -/
theorem errorModem_hangs :
    ¬ Finishes Params.default 0 (text "at+cpin=3700") ⟨fun _ => 0, fun _ => 0, errorModem, []⟩ := by
  rw [finishes_iff_init, Modem.init_iff]
  have off : ¬ errorModem.on := by decide
  have on : errorModem.read.on := by decide
  have question : errorModem.read.read.greeted = errorModem.read.read.skip 10 := rfl
  have ready : (errorModem.read.read.skip 10).answers 0 = text "+CPIN: READY" := rfl
  have apart : text "+CPIN: READY" ≠ text "+CPIN: SIM PIN" := by decide
  have never : ∀ n, (errorModem.read.read.skip 10).next.answers n ≠ codeOk := by
    intro n
    show (if n + 1 + 10 = 10 then text "+CPIN: READY" else [0x34]) ≠ codeOk
    rw [if_neg (by omega)]
    decide
  rw [Modem.Obliging, if_neg off]
  intro starts
  have unlocks := starts on
  rw [question, Modem.Unlocks, ready] at unlocks
  rcases unlocks with ⟨-, other⟩ | ⟨-, enough⟩ | ⟨same, -⟩
  · exact other rfl
  · obtain ⟨j, found, -⟩ := Modem.acknowledges_succ.mp enough
    exact never j found
  · exact apart same

end Baps.Gsm
