/-
**Interaction programs and the handlers that run them.**

A `Program` asks its surroundings for things (a register, a memory cell, the clock) and continues
with the answers. It fixes no meaning for a request: a `Handler` answers requests on a state, and
`Program.run` threads the state through the whole program. A handler may also refuse to answer
(`none`), which is how a wait that never ends is run.

* `Program.run_bind` — the run of a sequence is the sequence of the runs.
* `Program.Every P p` — every request on every path of `p` satisfies `P`. Closed under `bind`,
  `when`, `ite` and `forM`.
* `Every.run_rel`, `Every.visited_inv` — **the frame rule and the invariant rule**: what each
  request preserves, a whole run and every state passed on the way preserve.
* `Ends p s Q` — from `s` the program ends with `Q`; `simp` computes it along the program.
* `Finally p s Q` — if the program ends from `s`, it ends with `Q`; computed likewise.
* `Always p s I` — from `s` the program passes through states with `I` only, whether it ends or not.
* `Yields Q p` — every value `p` can return satisfies `Q`.
* `Respects R p` — every run of `p` relates its ends, for the programs that are not described request
  by request.
* `Simulates.run` — **the simulation rule**: if one handler follows another request by request with
  equal answers, it does so for every program.
-/

import Mathlib.Logic.Basic

namespace Baps.Interaction

/-- A value, or a request with a continuation for each of its answers. -/
inductive Program (Op : Type) (Ans : Op → Type) (α : Type) : Type
  | done (value : α)
  | ask (op : Op) (next : Ans op → Program Op Ans α)

/-- A handler answers a request on a state, or never does. -/
abbrev Handler (Op : Type) (Ans : Op → Type) (σ : Type) := (op : Op) → σ → Option (Ans op × σ)

namespace Program

variable {Op : Type} {Ans : Op → Type} {α β γ σ τ : Type}

/-! ### The monad of programs -/

/-- Run the first program and hand its value to the second. -/
protected def bind : Program Op Ans α → (α → Program Op Ans β) → Program Op Ans β
  | .done value, rest => rest value
  | .ask op next, rest => .ask op fun answer => (next answer).bind rest

instance : Monad (Program Op Ans) where
  pure := .done
  bind := Program.bind

/-- One request, returning its answer. -/
def call (op : Op) : Program Op Ans (Ans op) := .ask op .done

/-- A program guarded by a test: C's `if` without `else`. -/
def when (test : Prop) [Decidable test] (body : Program Op Ans Unit) : Program Op Ans Unit :=
  if test then body else pure ()

theorem ask_bind (op : Op) (next : Ans op → Program Op Ans α) (rest : α → Program Op Ans β) :
    (Program.ask op next >>= rest) = .ask op fun answer => next answer >>= rest := rfl

instance : LawfulMonad (Program Op Ans) := by
  refine LawfulMonad.mk' (Program Op Ans) ?_ (fun _ _ => rfl) ?_
  · intro α program
    induction program with
    | done value => rfl
    | ask op next ih => exact congrArg (Program.ask op) (funext ih)
  · intro α β γ program first second
    induction program with
    | done value => rfl
    | ask op next ih => exact congrArg (Program.ask op) (funext ih)

/-- A counted loop, split at its last round. -/
theorem forM_range_succ (n : Nat) (body : Nat → Program Op Ans PUnit) :
    (List.range (n + 1)).forM body = (List.range n).forM body >>= fun _ => body n := by
  rw [List.range_succ, List.forM_eq_forM, List.forM_append]
  simp

/-! ### Running a program -/

/-- The run of a program under a handler: its value and the final state, unless some request is
never answered. -/
def run (handler : Handler Op Ans σ) : Program Op Ans α → σ → Option (α × σ)
  | .done value, state => some (value, state)
  | .ask op next, state =>
      (handler op state).bind fun result => (next result.1).run handler result.2

variable (handler : Handler Op Ans σ)

@[simp] theorem run_pure (value : α) (state : σ) :
    (pure value : Program Op Ans α).run handler state = some (value, state) := rfl

@[simp] theorem run_call (op : Op) (state : σ) :
    (call op : Program Op Ans (Ans op)).run handler state = handler op state := by
  show (handler op state).bind (fun result => some (result.1, result.2)) = _
  cases handler op state <;> rfl

/-- **The run of a sequence.** -/
theorem run_bind (program : Program Op Ans α) (rest : α → Program Op Ans β) (state : σ) :
    (program >>= rest).run handler state =
      (program.run handler state).bind fun result => (rest result.1).run handler result.2 := by
  induction program generalizing state with
  | done value => rfl
  | ask op next ih =>
    show (handler op state).bind (fun result => (next result.1 >>= rest).run handler result.2) = _
    simp only [run, ih, Option.bind_assoc]

theorem run_bind_some {program : Program Op Ans α} {rest : α → Program Op Ans β} {state : σ}
    {value : β} {final : σ} :
    (program >>= rest).run handler state = some (value, final) ↔
      ∃ first middle, program.run handler state = some (first, middle) ∧
        (rest first).run handler middle = some (value, final) := by
  rw [run_bind, Option.bind_eq_some_iff]
  constructor
  · rintro ⟨⟨first, middle⟩, start, finish⟩
    exact ⟨first, middle, start, finish⟩
  · rintro ⟨first, middle, start, finish⟩
    exact ⟨(first, middle), start, finish⟩

/-- The states a run passes through, the first and the last included. -/
def visited : Program Op Ans α → σ → List σ
  | .done _, state => [state]
  | .ask op next, state => state ::
      match handler op state with
      | none => []
      | some (answer, after) => (next answer).visited after

theorem mem_visited_self (program : Program Op Ans α) (state : σ) :
    state ∈ program.visited handler state := by
  cases program <;> simp [visited]

/-- **A sequence passes through the states of its first part, and then through those of its
second part.** -/
theorem mem_visited_bind {program : Program Op Ans α} {rest : α → Program Op Ans β}
    {state point : σ} :
    point ∈ (program >>= rest).visited handler state ↔
      point ∈ program.visited handler state ∨
        ∃ value middle, program.run handler state = some (value, middle) ∧
          point ∈ (rest value).visited handler middle := by
  induction program generalizing state with
  | done value =>
    constructor
    · exact fun member => .inr ⟨value, state, rfl, member⟩
    · rintro (member | ⟨_, _, same, member⟩)
      · obtain rfl : point = state := by simpa [visited] using member
        exact mem_visited_self handler (rest value) point
      · obtain ⟨rfl, rfl⟩ : value = _ ∧ state = _ := by simpa [run] using same
        exact member
  | ask op next ih =>
    rw [ask_bind]
    cases answered : handler op state with
    | none => simp [visited, run, answered]
    | some result =>
      obtain ⟨answer, after⟩ := result
      simp only [visited, run, answered, Option.bind_some, List.mem_cons, ih, or_assoc]

/-! ### What every request of a program satisfies -/

/-- Every request on every path satisfies `P`. -/
def Every (P : Op → Prop) : Program Op Ans α → Prop
  | .done _ => True
  | .ask op next => P op ∧ ∀ answer, (next answer).Every P

variable {P Q : Op → Prop}

@[simp] theorem every_pure (value : α) : (pure value : Program Op Ans α).Every P := trivial

@[simp] theorem every_call (op : Op) : (call op : Program Op Ans (Ans op)).Every P ↔ P op :=
  ⟨fun every => every.1, fun holds => ⟨holds, fun _ => trivial⟩⟩

@[simp] theorem every_call_bind (op : Op) (rest : Ans op → Program Op Ans β) :
    (call op >>= rest).Every P ↔ P op ∧ ∀ answer, (rest answer).Every P := Iff.rfl

namespace Every

theorem bind {program : Program Op Ans α} {rest : α → Program Op Ans β}
    (first : program.Every P) (second : ∀ value, (rest value).Every P) :
    (program >>= rest).Every P := by
  induction program with
  | done value => exact second value
  | ask op next ih => exact ⟨first.1, fun answer => ih answer (first.2 answer)⟩

theorem call {op : Op} (holds : P op) : (Program.call op : Program Op Ans (Ans op)).Every P :=
  ⟨holds, fun _ => trivial⟩

/-- A request, and what follows it. -/
theorem step {op : Op} {rest : Ans op → Program Op Ans β} (holds : P op)
    (next : ∀ answer, (rest answer).Every P) : (Program.call op >>= rest).Every P :=
  ⟨holds, next⟩

theorem trivially (program : Program Op Ans α) : program.Every fun _ => True := by
  induction program with
  | done value => trivial
  | ask op next ih => exact ⟨trivial, ih⟩

theorem mono {program : Program Op Ans α} (every : program.Every P)
    (weaker : ∀ op, P op → Q op) : program.Every Q := by
  induction program with
  | done value => trivial
  | ask op next ih => exact ⟨weaker op every.1, fun answer => ih answer (every.2 answer)⟩

theorem ite {test : Prop} [Decidable test] {first second : Program Op Ans α}
    (yes : test → first.Every P) (no : ¬ test → second.Every P) :
    (if test then first else second).Every P := by
  split
  · exact yes ‹_›
  · exact no ‹_›

theorem when {test : Prop} [Decidable test] {body : Program Op Ans Unit}
    (yes : test → body.Every P) : (Program.when test body).Every P :=
  ite yes fun _ => trivial

theorem forM {items : List γ} {body : γ → Program Op Ans PUnit}
    (each : ∀ item ∈ items, (body item).Every P) : (items.forM body).Every P := by
  induction items with
  | nil => trivial
  | cons item rest ih =>
    exact bind (each item List.mem_cons_self)
      fun _ => ih fun other member => each other (List.mem_cons_of_mem _ member)

variable {handler}

/-- **The frame rule.** A reflexive and transitive relation that every request of the program
respects relates the ends of a run. -/
theorem run_rel {R : σ → σ → Prop} (refl : ∀ state, R state state)
    (trans : ∀ {first middle last}, R first middle → R middle last → R first last)
    (step : ∀ op, P op → ∀ state answer after, handler op state = some (answer, after) →
      R state after)
    {program : Program Op Ans α} (every : program.Every P) {state final : σ} {value : α}
    (ran : program.run handler state = some (value, final)) : R state final := by
  induction program generalizing state with
  | done value =>
    obtain ⟨-, rfl⟩ : _ ∧ state = final := by simpa [run] using ran
    exact refl state
  | ask op next ih =>
    obtain ⟨⟨answer, after⟩, answered, rest⟩ := Option.bind_eq_some_iff.mp ran
    exact trans (step op every.1 state answer after answered) (ih answer (every.2 answer) rest)

/-- **The invariant rule**, for every state on the way. -/
theorem visited_inv {inv : σ → Prop}
    (step : ∀ op, P op → ∀ state answer after, handler op state = some (answer, after) →
      inv state → inv after)
    {program : Program Op Ans α} (every : program.Every P) {state : σ} (start : inv state) :
    ∀ point ∈ program.visited handler state, inv point := by
  induction program generalizing state with
  | done value => simpa [visited] using start
  | ask op next ih =>
    intro point member
    rw [visited] at member
    rcases List.mem_cons.mp member with rfl | member
    · exact start
    · cases answered : handler op state with
      | none => simp [answered] at member
      | some result =>
        obtain ⟨answer, after⟩ := result
        rw [answered] at member
        exact ih answer (every.2 answer) (step op every.1 state answer after answered start)
          point member

end Every

/-! ### What a program can return -/

/-- Every value on every path satisfies `Q`. -/
def Yields (Q : α → Prop) : Program Op Ans α → Prop
  | .done value => Q value
  | .ask _ next => ∀ answer, (next answer).Yields Q

namespace Yields

theorem bind {Q : β → Prop} {program : Program Op Ans α} {rest : α → Program Op Ans β}
    (last : ∀ value, (rest value).Yields Q) : (program >>= rest).Yields Q := by
  induction program with
  | done value => exact last value
  | ask op next ih => exact ih

theorem ite {Q : α → Prop} {test : Prop} [Decidable test] {first second : Program Op Ans α}
    (yes : test → first.Yields Q) (no : ¬ test → second.Yields Q) :
    (if test then first else second).Yields Q := by
  split
  · exact yes ‹_›
  · exact no ‹_›

variable {handler}

theorem run {Q : α → Prop} {program : Program Op Ans α} (yields : program.Yields Q) {state : σ}
    {value : α} {final : σ} (ran : program.run handler state = some (value, final)) : Q value := by
  induction program generalizing state with
  | done result =>
    obtain ⟨rfl, -⟩ : result = value ∧ _ := by simpa [Program.run] using ran
    exact yields
  | ask op next ih =>
    obtain ⟨⟨answer, after⟩, -, rest⟩ := Option.bind_eq_some_iff.mp ran
    exact ih answer (yields answer) rest

end Yields

/-! ### Total correctness -/

/-- The program ends from the state, with a value and a state that satisfy `Q`. -/
def Ends (program : Program Op Ans α) (state : σ) (Q : α → σ → Prop) : Prop :=
  ∃ value final, program.run handler state = some (value, final) ∧ Q value final

section Ends

variable {handler}

@[simp] theorem ends_pure {value : α} {state : σ} {Q : α → σ → Prop} :
    Ends handler (pure value : Program Op Ans α) state Q ↔ Q value state := by
  constructor
  · rintro ⟨_, _, ran, holds⟩
    obtain ⟨rfl, rfl⟩ := Prod.mk.inj (Option.some.inj ran)
    exact holds
  · exact fun holds => ⟨value, state, rfl, holds⟩

@[simp] theorem ends_bind {program : Program Op Ans α} {rest : α → Program Op Ans β} {state : σ}
    {Q : β → σ → Prop} : Ends handler (program >>= rest) state Q ↔
      Ends handler program state fun value middle => Ends handler (rest value) middle Q := by
  constructor
  · rintro ⟨value, final, ran, holds⟩
    obtain ⟨first, middle, start, finish⟩ := (run_bind_some handler).mp ran
    exact ⟨first, middle, start, value, final, finish, holds⟩
  · rintro ⟨first, middle, start, value, final, finish, holds⟩
    exact ⟨value, final, (run_bind_some handler).mpr ⟨first, middle, start, finish⟩, holds⟩

@[simp] theorem ends_ite {test : Prop} [Decidable test] {first second : Program Op Ans α} {state : σ}
    {Q : α → σ → Prop} : Ends handler (if test then first else second) state Q ↔
      if test then Ends handler first state Q else Ends handler second state Q := by
  split <;> rfl

@[simp] theorem ends_when {test : Prop} [Decidable test] {body : Program Op Ans Unit} {state : σ}
    {Q : Unit → σ → Prop} : Ends handler (Program.when test body) state Q ↔
      if test then Ends handler body state Q else Q () state := by
  rw [Program.when, ends_ite, ends_pure]

theorem ends_call {op : Op} {state : σ} {Q : Ans op → σ → Prop} {answer : Ans op} {after : σ}
    (answered : handler op state = some (answer, after)) :
    Ends handler (call op : Program Op Ans (Ans op)) state Q ↔ Q answer after := by
  constructor
  · rintro ⟨_, _, ran, holds⟩
    rw [run_call, answered] at ran
    obtain ⟨rfl, rfl⟩ := Prod.mk.inj (Option.some.inj ran)
    exact holds
  · exact fun holds => ⟨answer, after, by rw [run_call, answered], holds⟩

/-- What holds where a program ends holds of its run. -/
theorem Ends.of_run {program : Program Op Ans α} {state final : σ} {value : α} {Q : α → σ → Prop}
    (ends : Ends handler program state Q) (ran : program.run handler state = some (value, final)) :
    Q value final := by
  obtain ⟨_, _, also, holds⟩ := ends
  rw [ran] at also
  obtain ⟨rfl, rfl⟩ := Prod.mk.inj (Option.some.inj also)
  exact holds

theorem Ends.mono {program : Program Op Ans α} {state : σ} {Q Q' : α → σ → Prop}
    (ends : Ends handler program state Q) (weaker : ∀ value final, Q value final → Q' value final) :
    Ends handler program state Q' := by
  obtain ⟨value, final, ran, holds⟩ := ends
  exact ⟨value, final, ran, weaker value final holds⟩

end Ends

/-- A program all of whose requests are answered ends. -/
theorem Every.ends (answers : ∀ op, P op → ∀ state, ∃ result, handler op state = some result)
    {program : Program Op Ans α} (every : program.Every P) (state : σ) :
    Ends handler program state fun _ _ => True := by
  induction program generalizing state with
  | done value => exact ⟨value, state, rfl, trivial⟩
  | ask op next ih =>
    obtain ⟨⟨answer, after⟩, answered⟩ := answers op every.1 state
    obtain ⟨value, final, ran, -⟩ := ih answer (every.2 answer) after
    exact ⟨value, final, by rw [run, answered]; exact ran, trivial⟩

/-! ### Partial correctness -/

/-- If the program ends from the state, its value and its last state satisfy `Q`. -/
def Finally (program : Program Op Ans α) (state : σ) (Q : α → σ → Prop) : Prop :=
  ∀ value final, program.run handler state = some (value, final) → Q value final

section Finally

variable {handler}

@[simp] theorem finally_pure {value : α} {state : σ} {Q : α → σ → Prop} :
    Finally handler (pure value : Program Op Ans α) state Q ↔ Q value state := by
  constructor
  · exact fun holds => holds value state rfl
  · intro holds _ _ ran
    obtain ⟨rfl, rfl⟩ := Prod.mk.inj (Option.some.inj ran)
    exact holds

@[simp] theorem finally_bind {program : Program Op Ans α} {rest : α → Program Op Ans β} {state : σ}
    {Q : β → σ → Prop} : Finally handler (program >>= rest) state Q ↔
      Finally handler program state fun value middle => Finally handler (rest value) middle Q := by
  constructor
  · intro holds first middle start value final finish
    exact holds value final ((run_bind_some handler).mpr ⟨first, middle, start, finish⟩)
  · intro holds value final ran
    obtain ⟨first, middle, start, finish⟩ := (run_bind_some handler).mp ran
    exact holds first middle start value final finish

@[simp] theorem finally_ite {test : Prop} [Decidable test] {first second : Program Op Ans α}
    {state : σ} {Q : α → σ → Prop} :
    Finally handler (if test then first else second) state Q ↔
      if test then Finally handler first state Q else Finally handler second state Q := by
  split <;> rfl

@[simp] theorem finally_when {test : Prop} [Decidable test] {body : Program Op Ans Unit} {state : σ}
    {Q : Unit → σ → Prop} : Finally handler (Program.when test body) state Q ↔
      if test then Finally handler body state Q else Q () state := by
  rw [Program.when, finally_ite, finally_pure]

theorem finally_call {op : Op} {state : σ} {Q : Ans op → σ → Prop} {answer : Ans op} {after : σ}
    (answered : handler op state = some (answer, after)) :
    Finally handler (call op : Program Op Ans (Ans op)) state Q ↔ Q answer after := by
  constructor
  · exact fun holds => holds answer after (by rw [run_call, answered])
  · intro holds _ _ ran
    rw [run_call, answered] at ran
    obtain ⟨rfl, rfl⟩ := Prod.mk.inj (Option.some.inj ran)
    exact holds

theorem finally_call_bind {op : Op} {rest : Ans op → Program Op Ans α} {state : σ} {Q : α → σ → Prop}
    {answer : Ans op} {after : σ} (answered : handler op state = some (answer, after)) :
    Finally handler (call op >>= rest) state Q ↔ Finally handler (rest answer) after Q := by
  rw [finally_bind, finally_call answered]

theorem Finally.mono {program : Program Op Ans α} {state : σ} {Q Q' : α → σ → Prop}
    (holds : Finally handler program state Q) (weaker : ∀ value final, Q value final → Q' value final) :
    Finally handler program state Q' :=
  fun value final ran => weaker value final (holds value final ran)

end Finally

/-! ### Invariants of the states on the way -/

/-- Every state the program passes through satisfies `I`. -/
def Always (program : Program Op Ans α) (state : σ) (I : σ → Prop) : Prop :=
  ∀ point ∈ program.visited handler state, I point

section Always

variable {handler} {I : σ → Prop}

@[simp] theorem always_pure {value : α} {state : σ} :
    Always handler (pure value : Program Op Ans α) state I ↔ I state := by
  show (∀ point ∈ [state], I point) ↔ I state
  simp

theorem always_bind {program : Program Op Ans α} {rest : α → Program Op Ans β} {state : σ} :
    Always handler (program >>= rest) state I ↔ Always handler program state I ∧
      Finally handler program state fun value middle => Always handler (rest value) middle I := by
  constructor
  · refine fun holds => ⟨fun point member => holds point ((mem_visited_bind handler).mpr (.inl member)), ?_⟩
    exact fun value middle ran point member =>
      holds point ((mem_visited_bind handler).mpr (.inr ⟨value, middle, ran, member⟩))
  · rintro ⟨first, second⟩ point member
    rcases (mem_visited_bind handler).mp member with inFirst | ⟨value, middle, ran, inSecond⟩
    · exact first point inFirst
    · exact second value middle ran point inSecond

theorem always_call {op : Op} {state after : σ} {answer : Ans op}
    (answered : handler op state = some (answer, after)) :
    Always handler (call op : Program Op Ans (Ans op)) state I ↔ I state ∧ I after := by
  have points : (call op : Program Op Ans (Ans op)).visited handler state = [state, after] := by
    simp [call, visited, answered]
  simp [Always, points]

/-- The last state is one of them. -/
theorem Always.final {program : Program Op Ans α} {state : σ} (holds : Always handler program state I) :
    Finally handler program state fun _ final => I final := by
  rw [← bind_pure program] at holds
  exact (always_bind.mp holds).2.mono fun _ _ => always_pure.mp

theorem Always.mono {J : σ → Prop} {program : Program Op Ans α} {state : σ}
    (holds : Always handler program state I) (weaker : ∀ point, I point → J point) :
    Always handler program state J :=
  fun point member => weaker point (holds point member)

end Always

/-! ### Two properties of every state that stand and fall together -/

/-- Started in `C`, a program keeps `I` in every state if and only if it keeps `J`, and then it ends
in `C'`. -/
def Agree (I J C C' : σ → Prop) (program : Program Op Ans α) : Prop :=
  ∀ state, C state → (Always handler program state I ↔ Always handler program state J) ∧
    (Always handler program state J → Finally handler program state fun _ final => C' final)

namespace Agree

variable {handler} {I J C C' C'' : σ → Prop}

/-- A program all of whose states are fine. -/
theorem of_always {program : Program Op Ans α} (first : ∀ state, C' state → I state)
    (second : ∀ state, C' state → J state)
    (always : ∀ state, C state → Always handler program state C') :
    Agree handler I J C C' program :=
  fun state start =>
    ⟨iff_of_true ((always state start).mono first) ((always state start).mono second),
      fun _ => (always state start).final⟩

/-- A program that breaks both. -/
theorem of_broken {program : Program Op Ans α}
    (first : ∀ state, C state → ¬ Always handler program state I)
    (second : ∀ state, C state → ¬ Always handler program state J) :
    Agree handler I J C C' program :=
  fun state start =>
    ⟨iff_of_false (first state start) (second state start),
      fun kept => absurd kept (second state start)⟩

theorem bind {program : Program Op Ans α} {rest : α → Program Op Ans β}
    (first : Agree handler I J C C' program)
    (second : ∀ value, Agree handler I J C' C'' (rest value)) :
    Agree handler I J C C'' (program >>= rest) := by
  intro state start
  obtain ⟨same, ends⟩ := first state start
  rw [always_bind, always_bind, same]
  refine ⟨and_congr_right fun kept => ?_, ?_⟩
  · constructor
    · exact fun more value middle ran =>
        ((second value middle (ends kept value middle ran)).1).mp (more value middle ran)
    · exact fun more value middle ran =>
        ((second value middle (ends kept value middle ran)).1).mpr (more value middle ran)
  · rintro ⟨kept, more⟩
    refine finally_bind.mpr fun value middle ran => ?_
    exact (second value middle (ends kept value middle ran)).2 (more value middle ran)

theorem ite {test : Prop} [Decidable test] {first second : Program Op Ans α}
    (yes : test → Agree handler I J C C' first) (no : ¬ test → Agree handler I J C C' second) :
    Agree handler I J C C' (if test then first else second) := by
  split
  · exact yes ‹_›
  · exact no ‹_›

end Agree

/-! ### Relations that runs respect -/

/-- Every run of the program relates its ends. -/
def Respects (R : σ → σ → Prop) (program : Program Op Ans α) : Prop :=
  ∀ state value final, program.run handler state = some (value, final) → R state final

namespace Respects

variable {handler} {R : σ → σ → Prop}

theorem pure (refl : ∀ state, R state state) (value : α) :
    Respects handler R (pure value : Program Op Ans α) := by
  intro state result final ran
  obtain ⟨-, rfl⟩ : _ ∧ state = final := by simpa using ran
  exact refl state

theorem bind (trans : ∀ {first middle last}, R first middle → R middle last → R first last)
    {program : Program Op Ans α} {rest : α → Program Op Ans β}
    (first : Respects handler R program) (second : ∀ value, Respects handler R (rest value)) :
    Respects handler R (program >>= rest) := by
  intro state value final ran
  obtain ⟨result, middle, start, finish⟩ := (run_bind_some handler).mp ran
  exact trans (first _ _ _ start) (second _ _ _ _ finish)

theorem ite {test : Prop} [Decidable test] {first second : Program Op Ans α}
    (yes : test → Respects handler R first) (no : ¬ test → Respects handler R second) :
    Respects handler R (if test then first else second) := by
  split
  · exact yes ‹_›
  · exact no ‹_›

theorem when (refl : ∀ state, R state state) {test : Prop} [Decidable test]
    {body : Program Op Ans Unit} (yes : test → Respects handler R body) :
    Respects handler R (Program.when test body) :=
  ite yes fun _ => pure refl ()

theorem forM (refl : ∀ state, R state state)
    (trans : ∀ {first middle last}, R first middle → R middle last → R first last) {items : List γ}
    {body : γ → Program Op Ans PUnit} (each : ∀ item ∈ items, Respects handler R (body item)) :
    Respects handler R (items.forM body) := by
  induction items with
  | nil => exact pure refl PUnit.unit
  | cons item rest ih =>
    exact bind (R := R) trans (each item List.mem_cons_self)
      fun _ => ih fun other member => each other (List.mem_cons_of_mem _ member)

end Respects

/-! ### Simulation -/

/-- One handler follows another along a relation: equal answers, and the relation kept, for every
request in `P`. -/
def Simulates (P : Op → Prop) (R : σ → τ → Prop) (low : Handler Op Ans σ)
    (high : Handler Op Ans τ) : Prop :=
  ∀ op, P op → ∀ state other answer after, R state other →
    low op state = some (answer, after) →
      ∃ next, high op other = some (answer, next) ∧ R after next

/-- **The simulation rule.** -/
theorem Simulates.run {R : σ → τ → Prop} {low : Handler Op Ans σ} {high : Handler Op Ans τ}
    (follows : Simulates P R low high) {program : Program Op Ans α} (every : program.Every P)
    {state : σ} {other : τ} (related : R state other) {value : α} {final : σ}
    (ran : program.run low state = some (value, final)) :
    ∃ last, program.run high other = some (value, last) ∧ R final last := by
  induction program generalizing state other with
  | done result =>
    obtain ⟨rfl, rfl⟩ : result = value ∧ state = final := by simpa [Program.run] using ran
    exact ⟨other, rfl, related⟩
  | ask op next ih =>
    obtain ⟨⟨answer, after⟩, answered, rest⟩ := Option.bind_eq_some_iff.mp ran
    obtain ⟨middle, also, kept⟩ := follows op every.1 state other answer after related answered
    obtain ⟨last, finish, still⟩ := ih answer (every.2 answer) kept rest
    exact ⟨last, by simp only [Program.run, also, Option.bind_some, finish], still⟩

end Program

/-- A computed result passes a test. -/
theorem computed {α : Type} {result : Option α} {P : α → Prop} [DecidablePred P]
    (holds : result.map (fun value => decide (P value)) = some true) :
    ∃ value, result = some value ∧ P value := by
  obtain ⟨value, eq, test⟩ := Option.map_eq_some_iff.mp holds
  exact ⟨value, eq, of_decide_eq_true test⟩

end Baps.Interaction
