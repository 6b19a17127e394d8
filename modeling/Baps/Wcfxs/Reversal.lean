/-
**Polarity reversals on an FXO line.**

A line voltage over the threshold is significant, and has a sign. `wcfxs_voicedaa_check_hook` keeps the
sign of the last significant voltage as a candidate (`lastpol`), and a timer that every new candidate
restarts at 64. The timer runs with each poll, and at its end the candidate is committed (`polarity`).

* `Polarity.Follows` — the variables in terms of the signs read so far: a running timer tells where the
  candidate was read.
* `polarity_reversals` — **events are committed reversals**: exactly where the sign read 63 polls ago
  reversed the one before it, has not been contradicted since, and is not the one committed.
-/

import Baps.Wcfxs.LineState

namespace Baps.Wcfxs

open Interaction Memory Signal

/-! ### Signs -/

/-- The sign of a significant voltage; 0 for every other one. -/
def significance (b : Int) : Int := if |b| > battThresh then b.sign else 0

/-- A sign, or none. -/
def IsSign (s : Int) : Prop := s = -1 ∨ s = 0 ∨ s = 1

theorem significance_isSign (b : Int) : IsSign (significance b) := by
  unfold significance IsSign
  split
  · rcases Int.lt_trichotomy b 0 with minus | rfl | plus
    · exact .inl (Int.sign_eq_neg_one_of_neg minus)
    · exact .inr (.inl rfl)
    · exact .inr (.inr (Int.sign_eq_one_of_pos plus))
  · exact .inr (.inl rfl)

section Signs

variable (signs : Nat → Int)

/-- The sign of the last significant reading before `n`; 0 if there is none. -/
def lastSign : Nat → Int
  | 0 => 0
  | n + 1 => if signs n = 0 then lastSign n else signs n

/-- A reading that changes the sign of the last significant one. -/
def Turned (n : Nat) : Prop := signs n ≠ 0 ∧ signs n ≠ lastSign signs n

variable {signs}

theorem lastSign_isSign (each : ∀ n, IsSign (signs n)) (n : Nat) : IsSign (lastSign signs n) := by
  induction n with
  | zero => exact .inr (.inl rfl)
  | succ n ih =>
    rw [lastSign]
    split
    · exact ih
    · exact each n

theorem lastSign_turned {n : Nat} (turned : Turned signs n) : lastSign signs (n + 1) = signs n :=
  if_neg turned.1

theorem lastSign_kept {n : Nat} (kept : ¬ Turned signs n) : lastSign signs (n + 1) = lastSign signs n := by
  rw [lastSign]
  split
  · rfl
  · rename_i significant
    exact not_not.mp fun different => kept ⟨significant, different⟩

/-- **A sign that is not contradicted stays the last one.** -/
theorem lastSign_eq (each : ∀ n, IsSign (signs n)) {m n : Nat} (significant : signs m ≠ 0) (early : m < n)
    (held : ∀ i, m < i → i < n → signs i ≠ -signs m) : lastSign signs n = signs m := by
  induction n, early using Nat.le_induction with
  | base => exact if_neg significant
  | succ n early ih =>
    have before := ih fun i low high => held i low (by omega)
    have now := held n early (Nat.lt_succ_self n)
    rw [lastSign, before]
    split
    · rfl
    · rename_i other
      rcases each n with minus | none | plus <;> rcases each m with minus' | none' | plus' <;> omega

end Signs

/-! ### The detector and the signs it has read -/

namespace Polarity

variable {line : Polarity} {b : Int}

/-- A voltage turns the candidate if its sign is a new one. -/
theorem sense_eq (candidate : IsSign line.lastpol) : line.sense b =
    if significance b ≠ 0 ∧ significance b ≠ line.lastpol then
      { line with lastpol := significance b, polaritydebounce := 64 }
    else line := by
  unfold significance
  by_cases significant : |b| > battThresh
  · rw [if_pos significant]
    rcases Int.lt_trichotomy b 0 with minus | rfl | plus
    · rw [Int.sign_eq_neg_one_of_neg minus]
      by_cases turned : line.lastpol ≥ 0 ∧ b < 0
      · rw [sense_minus significant turned, if_pos (by omega)]
      · rw [sense_same turned (by omega), if_neg]
        rcases candidate with candidate | candidate | candidate <;> omega
    · exact absurd significant (by decide)
    · rw [Int.sign_eq_one_of_pos plus]
      by_cases turned : line.lastpol ≤ 0 ∧ b > 0
      · rw [sense_plus significant turned, if_pos (by omega)]
      · rw [sense_same (by omega) turned, if_neg]
        rcases candidate with candidate | candidate | candidate <;> omega
  · rw [if_neg significant, sense_none significant, if_neg (by simp)]

/-- **What a poll does**: a new candidate, nothing, a tick of the timer, or a commit. -/
theorem step_cases (candidate : IsSign line.lastpol) (b : Int) :
    (significance b ≠ 0 ∧ significance b ≠ line.lastpol ∧
      line.step b = (⟨significance b, line.polarity, 63⟩, false)) ∨
    ¬ (significance b ≠ 0 ∧ significance b ≠ line.lastpol) ∧
      ((line.polaritydebounce = 0 ∧ line.step b = (line, false)) ∨
      (line.polaritydebounce ≠ 0 ∧ ¬ (line.polaritydebounce - 1 < 1 ∧ line.lastpol ≠ line.polarity) ∧
        line.step b = ({ line with polaritydebounce := line.polaritydebounce - 1 }, false)) ∨
      (line.polaritydebounce ≠ 0 ∧ line.polaritydebounce - 1 < 1 ∧ line.lastpol ≠ line.polarity ∧
        line.step b =
          (⟨line.lastpol, line.lastpol, line.polaritydebounce - 1⟩, decide (line.polarity ≠ 0)))) := by
  unfold Polarity.step
  rw [sense_eq candidate]
  by_cases turned : significance b ≠ 0 ∧ significance b ≠ line.lastpol
  · refine .inl ⟨turned.1, turned.2, ?_⟩
    have started : (64 : Int) ≠ 0 := by decide
    have long : ¬ (64 : Int) - 1 < 1 := by decide
    rw [if_pos turned]
    exact commit_runs started fun elapsed => long elapsed.1
  · refine .inr ⟨turned, ?_⟩
    rw [if_neg turned]
    by_cases idle : line.polaritydebounce = 0
    · exact .inl ⟨idle, commit_idle idle⟩
    · by_cases ends : line.polaritydebounce - 1 < 1 ∧ line.lastpol ≠ line.polarity
      · exact .inr (.inr ⟨idle, ends.1, ends.2, commit_ends idle ends.1 ends.2⟩)
      · exact .inr (.inl ⟨idle, ends, commit_runs idle ends⟩)

/-- The candidate was read where the timer says, and has not been contradicted since. -/
structure ReadAt (line : Polarity) (signs : Nat → Int) (n m : Nat) : Prop where
  timer : (m : Int) + 64 = n + line.polaritydebounce
  turned : Turned signs m
  held : ∀ i, m < i → i < n → signs i ≠ -signs m
  known : line.polarity ≠ 0 → lastSign signs m ≠ 0

/-- The variables after `n` readings with the given signs. -/
structure Follows (line : Polarity) (signs : Nat → Int) (n : Nat) : Prop where
  candidate : line.lastpol = lastSign signs n
  committed : IsSign line.polarity
  never : line.lastpol = 0 → line.polarity = 0
  timer : 0 ≤ line.polaritydebounce ∧ line.polaritydebounce ≤ 63
  idle : line.polaritydebounce = 0 → line.polarity = line.lastpol
  runs : line.polaritydebounce ≠ 0 → ∃ m, line.ReadAt signs n m

variable {signs : Nat → Int} {n : Nat}

theorem Follows.isSign (follows : line.Follows signs n) (each : ∀ n, IsSign (signs n)) :
    IsSign line.lastpol := by
  rw [follows.candidate]
  exact lastSign_isSign each n

/-- While nothing turns the candidate, the place where it was read stays the same. -/
theorem ReadAt.tick {m : Nat} (read : line.ReadAt signs n m) (each : ∀ n, IsSign (signs n))
    (kept : ¬ Turned signs n) :
    ReadAt { line with polaritydebounce := line.polaritydebounce - 1 } signs (n + 1) m := by
  obtain ⟨timer, turned, held, known⟩ := read
  refine ⟨?_, turned, fun i low high => ?_, known⟩
  · show (m : Int) + 64 = ((n + 1 : Nat) : Int) + (line.polaritydebounce - 1)
    omega
  · rcases Nat.lt_succ_iff_lt_or_eq.mp high with earlier | rfl
    · exact held i low earlier
    · have last := lastSign_eq each turned.1 low held
      intro contrary
      refine kept ⟨fun none => turned.1 (by omega), ?_⟩
      rw [last]
      exact fun same => turned.1 (by omega)

/-- **A poll keeps the variables in step with the signs.** -/
theorem Follows.step (follows : line.Follows signs n) (each : ∀ n, IsSign (signs n))
    (sign : signs n = significance b) : (line.step b).1.Follows signs (n + 1) := by
  have isSign := follows.isSign each
  obtain ⟨candidate, committed, never, timer, idle, runs⟩ := follows
  have turned_iff : (significance b ≠ 0 ∧ significance b ≠ line.lastpol) ↔ Turned signs n := by
    rw [Turned, sign, candidate]
  rcases step_cases isSign b with ⟨one, two, step⟩ | ⟨kept, rest⟩
  · have turned := turned_iff.mp ⟨one, two⟩
    rw [step]
    have long : (63 : Int) ≠ 0 := by decide
    refine ⟨?_, committed, fun none => absurd none one, ⟨Int.natCast_nonneg 63, le_rfl⟩,
      fun elapsed => absurd elapsed long, ?_⟩
    · rw [lastSign_turned turned, sign]
    · refine fun _ => ⟨n, ?_, turned, fun i low high => absurd low (by omega), fun some none => ?_⟩
      · show (n : Int) + 64 = ((n + 1 : Nat) : Int) + 63
        omega
      · exact some (never (candidate.trans none))
  rw [turned_iff] at kept
  have last : line.lastpol = lastSign signs (n + 1) := candidate.trans (lastSign_kept kept).symm
  rcases rest with ⟨elapsed, step⟩ | ⟨running, still, step⟩ | ⟨running, ends, news, step⟩
  · rw [step]
    exact ⟨last, committed, never, timer, idle, fun running => absurd elapsed running⟩
  · rw [step]
    refine ⟨last, committed, never, ?_, fun elapsed => ?_, fun _ => ?_⟩
    · show 0 ≤ line.polaritydebounce - 1 ∧ line.polaritydebounce - 1 ≤ 63
      omega
    · have elapsed : line.polaritydebounce - 1 = 0 := elapsed
      exact not_not.mp fun news => still ⟨by omega, Ne.symm news⟩
    · obtain ⟨m, read⟩ := runs running
      exact ⟨m, read.tick each kept⟩
  · rw [step]
    have elapsed : line.polaritydebounce - 1 = 0 := by omega
    exact ⟨last, isSign, id, ⟨elapsed.ge, by show line.polaritydebounce - 1 ≤ 63; omega⟩, fun _ => rfl,
      fun running => absurd elapsed running⟩

/-- The sign read 63 polls ago reversed the one before it, and has not been contradicted since. -/
def Reverses (signs : Nat → Int) (s : Int) (n : Nat) : Prop :=
  ∃ m, m + 63 = n ∧ signs m = s ∧ lastSign signs m = -s ∧ ∀ i, m < i → i ≤ n → signs i ≠ -s

/-- An event, from the variables. -/
theorem step_event_iff (candidate : IsSign line.lastpol) (b : Int) : (line.step b).2 = true ↔
    ¬ (significance b ≠ 0 ∧ significance b ≠ line.lastpol) ∧ line.polaritydebounce ≠ 0 ∧
      line.polaritydebounce - 1 < 1 ∧ line.lastpol ≠ line.polarity ∧ line.polarity ≠ 0 := by
  rcases step_cases candidate b with ⟨one, two, step⟩ |
    ⟨kept, ⟨elapsed, step⟩ | ⟨running, still, step⟩ | ⟨running, ends, news, step⟩⟩
  · rw [step]
    exact ⟨fun event => absurd event Bool.false_ne_true, fun event => absurd ⟨one, two⟩ event.1⟩
  · rw [step]
    exact ⟨fun event => absurd event Bool.false_ne_true, fun event => absurd elapsed event.2.1⟩
  · rw [step]
    exact ⟨fun event => absurd event Bool.false_ne_true,
      fun event => absurd ⟨event.2.2.1, event.2.2.2.1⟩ still⟩
  · rw [step]
    simp only [decide_eq_true_eq]
    exact ⟨fun known => ⟨kept, running, ends, news, known⟩, fun event => event.2.2.2.2⟩

/-- **Where an event is queued.** -/
theorem Follows.event_iff (follows : line.Follows signs n) (each : ∀ n, IsSign (signs n))
    (sign : signs n = significance b) : (line.step b).2 = true ↔
      ∃ s, (s = 1 ∨ s = -1) ∧ Reverses signs s n ∧ line.polarity = -s := by
  rw [step_event_iff (follows.isSign each), ← sign]
  obtain ⟨candidate, committed, never, timer, idle, runs⟩ := follows
  rw [candidate] at *
  constructor
  · rintro ⟨kept, running, ends, news, known⟩
    obtain ⟨m, timed, turned, held, old⟩ := runs running
    have place : m + 63 = n := by omega
    have last := lastSign_eq each turned.1 (by omega) held
    have before := lastSign_isSign each m
    have was := old known
    have different := turned.2
    have significant := turned.1
    have now : signs n ≠ -signs m := fun contrary => kept ⟨by omega, by rw [last]; omega⟩
    rw [last] at news
    unfold IsSign at committed before
    refine ⟨signs m, ?_, ⟨m, place, rfl, ?_, fun i low high => ?_⟩, ?_⟩
    · rcases each m with minus | none | plus <;> omega
    · rcases each m with minus | none | plus <;> omega
    · rcases Nat.lt_or_eq_of_le high with earlier | rfl
      · exact held i low earlier
      · exact now
    · rcases each m with minus | none | plus <;> omega
  · rintro ⟨s, unit, ⟨m, place, is, was, held⟩, opposite⟩
    subst is
    have last := lastSign_eq each (by omega) (by omega) fun i low high => held i low high.le
    have news : lastSign signs n ≠ line.polarity := by omega
    have running : line.polaritydebounce ≠ 0 := fun elapsed => news (idle elapsed).symm
    have now := held n (by omega) le_rfl
    have kept : ¬ (signs n ≠ 0 ∧ signs n ≠ lastSign signs n) := by
      have present := each n
      unfold IsSign at present
      omega
    obtain ⟨k, timed, turned, -, -⟩ := runs running
    -- a later candidate would have contradicted this one
    have same : ¬ m < k := by
      intro later
      have inside := held k later (by omega)
      have lastK := lastSign_eq each (by omega) later fun i low high => held i low (by omega)
      obtain ⟨significant, different⟩ := turned
      have present := each k
      unfold IsSign at present
      omega
    exact ⟨kept, running, by omega, news, by omega⟩

/-- **An event commits the new sign**, and a commit without one is the first. -/
theorem Follows.event_commits (follows : line.Follows signs n) (each : ∀ n, IsSign (signs n)) (b : Int) :
    ((line.step b).2 = true ↔ line.polarity ≠ 0 ∧ (line.step b).1.polarity ≠ line.polarity) ∧
      ((line.step b).2 = true → (line.step b).1.polarity = -line.polarity) := by
  have candidate := follows.isSign each
  have committed := follows.committed
  have never := follows.never
  rcases step_cases candidate b with ⟨-, -, step⟩ |
    ⟨-, ⟨-, step⟩ | ⟨-, -, step⟩ | ⟨-, -, news, step⟩⟩
  · rw [step]
    simp
  · rw [step]
    simp
  · rw [step]
    simp
  · rw [step]
    simp only [decide_eq_true_eq]
    refine ⟨⟨fun known => ⟨known, news⟩, fun both => both.1⟩, fun known => ?_⟩
    unfold IsSign at candidate committed
    show line.lastpol = -line.polarity
    omega

end Polarity

/-! ### Runs of polls -/

section Runs

variable {σ : Type} {env : Env σ} {card : Card} {count : Nat}
  (polls : PollRun env (wcfxsVoicedaaCheckHook card) (SameLine card) count)

/-- The sign of the line voltage that poll `n` reads, 0 if it is not significant. -/
def PollRun.sign (n : Nat) : Int := significance (voltage card (polls.log n))

/-- Poll `n` queues `ZT_EVENT_POLARITY`. -/
def PollRun.Event (n : Nat) : Prop := .polarity card ∈ polls.log n

instance (n : Nat) : Decidable (polls.Event n) := inferInstanceAs (Decidable (_ ∈ _))

/-- The committed polarity after `n` polls. -/
def PollRun.committed (n : Nat) : Int := fxoInt .polarity card (polls.reached n)

variable {polls}

theorem PollRun.sign_isSign (n : Nat) : IsSign (polls.sign n) := significance_isSign _

/-- **One poll** is a step of the polarity detector. -/
theorem PollRun.polarity_step (zero : polls.Zeroed) {n : Nat} (inside : n < count) :
    (polarityOf card (polls.reached (n + 1)), decide (polls.Event n)) =
      (polarityOf card (polls.reached n)).step (voltage card (polls.log n)) := by
  have polled := (polls.polled zero inside).polarity
  rw [(polls.sameLine inside).polarityOf] at polled
  exact polled

/-- **Every number of polls** leaves the variables in step with the signs read. -/
theorem PollRun.polarity_follows (zero : polls.Zeroed) {n : Nat} (inside : n ≤ count) :
    (polarityOf card (polls.reached n)).Follows polls.sign n := by
  induction n with
  | zero =>
    have start : polarityOf card (polls.reached 0) = ⟨0, 0, 0⟩ := by
      rw [polarityOf, show fxoInt .lastpol card (polls.reached 0) = 0 from zero .lastpol (by decide),
        show fxoInt .polarity card (polls.reached 0) = 0 from zero .polarity (by decide),
        show fxoInt .polaritydebounce card (polls.reached 0) = 0 from zero .polaritydebounce (by decide)]
    rw [start]
    exact ⟨rfl, .inr (.inl rfl), fun _ => rfl, ⟨le_rfl, Int.natCast_nonneg 63⟩, fun _ => rfl,
      fun running => absurd rfl running⟩
  | succ n ih =>
    have step : polarityOf card (polls.reached (n + 1)) = _ :=
      congrArg Prod.fst (polls.polarity_step zero inside)
    rw [step]
    exact (ih (by omega)).step polls.sign_isSign rfl

theorem PollRun.event_iff_step (zero : polls.Zeroed) {n : Nat} (inside : n < count) :
    polls.Event n ↔ ((polarityOf card (polls.reached n)).step (voltage card (polls.log n))).2 = true := by
  have step : decide (polls.Event n) = _ := congrArg Prod.snd (polls.polarity_step zero inside)
  rw [← step, decide_eq_true_eq]

/-- An event reverses the committed polarity; without one a polarity that is known stays. -/
theorem PollRun.event_commits (zero : polls.Zeroed) {n : Nat} (inside : n < count) :
    (polls.Event n ↔ polls.committed n ≠ 0 ∧ polls.committed (n + 1) ≠ polls.committed n) ∧
      (polls.Event n → polls.committed (n + 1) = -polls.committed n) := by
  have step : polarityOf card (polls.reached (n + 1)) = _ :=
    congrArg Prod.fst (polls.polarity_step zero inside)
  have next : polls.committed (n + 1) = _ := congrArg Polarity.polarity step
  rw [polls.event_iff_step zero inside, next]
  exact (polls.polarity_follows zero inside.le).event_commits polls.sign_isSign _

/-- Without events a known polarity stays. -/
theorem PollRun.committed_kept (zero : polls.Zeroed) {m n : Nat} (early : m ≤ n) (inside : n ≤ count)
    (known : polls.committed m ≠ 0) (none : ∀ i, m ≤ i → i < n → ¬ polls.Event i) :
    polls.committed n = polls.committed m := by
  induction n, early using Nat.le_induction with
  | base => rfl
  | succ n early ih =>
    have same := ih (by omega) fun i low high => none i low (by omega)
    have silent := none n early (Nat.lt_succ_self n)
    rw [(polls.event_commits zero inside).1, same] at silent
    exact not_not.mp fun changed => silent ⟨known, changed⟩

/-- **FXO polarity events.** From zeroed variables, in every run of polls: an event is queued at a poll
exactly if the voltage 63 polls before was significant with a sign `s`, the significant one before it
had the other sign, none since has had it, and the committed polarity is `-s`; it is `s` afterwards.
Events are exactly the changes of a committed polarity that is not 0, and reverse it in turn. -/
theorem polarity_reversals (card : Card) {σ : Type} (env : Env σ) (count : Nat)
    (polls : PollRun env (wcfxsVoicedaaCheckHook card) (SameLine card) count) (zero : polls.Zeroed) :
    (∀ n < count, polls.Event n ↔ ∃ s, (s = 1 ∨ s = -1) ∧ Polarity.Reverses polls.sign s n ∧
      fxoInt .polarity card (polls.before n) = -s) ∧
    (∀ n < count, ∀ s, (s = 1 ∨ s = -1) → Polarity.Reverses polls.sign s n →
      fxoInt .polarity card (polls.before n) = -s → fxoInt .polarity card (polls.after n) = s) ∧
    (∀ n < count, polls.Event n ↔ fxoInt .polarity card (polls.before n) ≠ 0 ∧
      fxoInt .polarity card (polls.after n) ≠ fxoInt .polarity card (polls.before n)) ∧
    ∀ m n, m < n → n < count → polls.Event m → polls.Event n →
      (∀ i, m < i → i < n → ¬ polls.Event i) →
      fxoInt .polarity card (polls.after n) = -fxoInt .polarity card (polls.after m) := by
  have before : ∀ n < count, fxoInt .polarity card (polls.before n) = polls.committed n :=
    fun n inside => polls.sameLine inside .polarity (by decide)
  have event_iff : ∀ n < count, polls.Event n ↔ ∃ s, (s = 1 ∨ s = -1) ∧
      Polarity.Reverses polls.sign s n ∧ polls.committed n = -s := fun n inside =>
    (polls.event_iff_step zero inside).trans
      ((polls.polarity_follows zero inside.le).event_iff polls.sign_isSign rfl)
  refine ⟨fun n inside => ?_, fun n inside s unit reverses opposite => ?_, fun n inside => ?_,
    fun m n early inside first second none => ?_⟩
  · rw [before n inside]
    exact event_iff n inside
  · rw [before n inside] at opposite
    have event := (event_iff n inside).mpr ⟨s, unit, reverses, opposite⟩
    have next : polls.committed (n + 1) = -polls.committed n := (polls.event_commits zero inside).2 event
    show polls.committed (n + 1) = s
    omega
  · rw [before n inside]
    exact (polls.event_commits zero inside).1
  · have known : polls.committed (m + 1) ≠ 0 := by
      obtain ⟨was, -⟩ := (polls.event_commits zero (by omega)).1.mp first
      have next := (polls.event_commits zero (show m < count by omega)).2 first
      omega
    have kept := polls.committed_kept zero early inside.le known none
    show polls.committed (n + 1) = -polls.committed (m + 1)
    rw [(polls.event_commits zero inside).2 second, kept]

end Runs

/-! ### A line that is reversed -/

open Gsm (firstSlot)

/-- Register 29 reads 10 until its 64th reading, and -10 from then on. -/
def reversedLine : Env Nat where
  setreg := fun _ _ _ => id
  getreg := fun _ reg n => if reg = 29 then (if n < 64 then 10 else 246, n + 1) else (0, n)
  setLed := fun _ _ => id
  forgetCard := id
  gsmSend := fun _ _ => id
  gsmReceive := fun _ => ([], ·)
  uart := fun _ _ => (0, ·)
  jiffies := (0, ·)
  waitJustABit := fun _ => id
  copyToUser := fun _ => (false, ·)

/-- The variables after `n` polls of that line. -/
def reversedVar (n : Nat) : FxoVar → Int
  | .battery => if n = 0 then 0 else 1
  | .battdebounce => if n = 0 then 0 else 62
  | .lastpol => if n = 0 then 0 else if n < 65 then 1 else -1
  | .polarity => if n < 64 then 0 else if n < 128 then 1 else -1
  | .polaritydebounce => if n = 0 then 0 else if n < 65 then 64 - n else 128 - n
  | _ => 0

/-- A world in which the variables of the first card are those. -/
def reversedWorld (n : Nat) : World Nat :=
  lineVars.foldl (fun world var => fxoStored var firstSlot (reversedVar n var) world)
    (start n fun _ => 0)

def reversedAfter (n : Nat) : World Nat :=
  (((wcfxsVoicedaaCheckHook firstSlot).run (handler reversedLine) (reversedWorld n)).map Prod.snd).getD
    (reversedWorld n)

theorem reversed_inRange : ∀ n < 128,
    (0 ≤ fxoInt .ringdebounce firstSlot (reversedWorld n) ∧
      fxoInt .ringdebounce firstSlot (reversedWorld n) ≤ 512) ∧
      0 ≤ fxoInt .battdebounce firstSlot (reversedWorld n) ∧
      0 ≤ fxoInt .polaritydebounce firstSlot (reversedWorld n) := by
  decide +kernel

theorem reversed_sameLine : ∀ n < 127, ∀ var ∈ lineVars,
    fxoInt var firstSlot (reversedWorld (n + 1)) = fxoInt var firstSlot (reversedAfter n) := by
  decide +kernel

/-- Polls of the first card on that line. -/
def reversedPolls : PollRun reversedLine (wcfxsVoicedaaCheckHook firstSlot) (SameLine firstSlot) 128 where
  before := reversedWorld
  after := reversedAfter
  ran := fun n inside => by
    obtain ⟨⟨lower, upper⟩, battery, polarity⟩ := reversed_inRange n inside
    have range : InRange firstSlot (reversedWorld n) := ⟨lower, upper, battery, polarity⟩
    have ends : Program.Ends (handler reversedLine) (wcfxsVoicedaaCheckHook firstSlot)
        (reversedWorld n) _ :=
      poll_ends range
    obtain ⟨⟨⟩, world, ran, -⟩ := ends
    rw [reversedAfter, ran]
    rfl
  between := fun n inside => reversed_sameLine n (by omega)

/-- The last poll reports the reversal, 63 polls after it was read. -/
theorem polarity_reversals_reversed :
    reversedPolls.Event 127 ∧ fxoInt .polarity firstSlot (reversedPolls.after 127) = -1 := by
  have zero : reversedPolls.Zeroed := by
    unfold PollRun.Zeroed
    decide +kernel
  have minus : ∀ n < 128, 64 ≤ n → reversedPolls.sign n = -1 := by decide +kernel
  have plus : reversedPolls.sign 63 = 1 := by decide +kernel
  have committed : fxoInt .polarity firstSlot (reversedPolls.before 127) = 1 := by decide +kernel
  have last : lastSign reversedPolls.sign 64 = 1 := by
    rw [lastSign, plus]
    rfl
  have reverses : Polarity.Reverses reversedPolls.sign (-1) 127 := by
    refine ⟨64, rfl, minus 64 (by decide) le_rfl, last, fun i low high => ?_⟩
    rw [minus i (by omega) (by omega)]
    decide
  obtain ⟨events, commits, -⟩ := polarity_reversals firstSlot reversedLine 128 reversedPolls zero
  exact ⟨(events 127 (by decide)).mpr ⟨-1, .inr rfl, reverses, committed⟩,
    commits 127 (by decide) (-1) (.inr rfl) reverses committed⟩

end Baps.Wcfxs
