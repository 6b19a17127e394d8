/-
**Successive polls of a card.**

The interrupt polls a card on every eighth tick; between two polls of one card the driver serves the
other cards and what zaptel asks for. `PollRun` is a run seen from one card: the worlds in which its
polls start and end, and a relation that holds from the end of a poll to the start of the next.

`rxSigs` are the hook signals a log holds for a card.
-/

import Baps.Wcfxs.World

namespace Baps.Wcfxs

open Interaction

/-! ### Signals in a log -/

/-- The hook signal an exchange is, for a card. -/
def rxSigOf (card : Card) : Event → Option RxSig
  | .signalled c sig => if c = card then some sig else none
  | _ => none

/-- The hook signals of a card, in order. -/
def rxSigs (card : Card) (log : List Event) : List RxSig := log.filterMap (rxSigOf card)

section Signals

variable {σ α : Type} {env : Env σ} {card : Card} {world after : World σ}

@[simp] theorem rxSigs_nil : rxSigs card [] = [] := rfl

theorem rxSigs_append (log more : List Event) :
    rxSigs card (log ++ more) = rxSigs card log ++ rxSigs card more := List.filterMap_append

@[simp] theorem rxSigs_cons_signalled (sig : RxSig) (rest : List Event) :
    rxSigs card (.signalled card sig :: rest) = sig :: rxSigs card rest := by
  simp [rxSigs, rxSigOf]

@[simp] theorem rxSigs_cons_read (c : Card) (reg value : UInt8) (rest : List Event) :
    rxSigs card (.read c reg value :: rest) = rxSigs card rest := rfl

@[simp] theorem rxSigs_cons_led (port : Nat) (colour : FxLed) (rest : List Event) :
    rxSigs card (.led port colour :: rest) = rxSigs card rest := rfl

@[simp] theorem rxSigs_signalled (log : List Event) (sig : RxSig) :
    rxSigs card (log ++ [.signalled card sig]) = rxSigs card log ++ [sig] := by
  rw [rxSigs_append, rxSigs_cons_signalled, rxSigs_nil]

@[simp] theorem rxSigs_read (log : List Event) (c : Card) (reg value : UInt8) :
    rxSigs card (log ++ [.read c reg value]) = rxSigs card log := by
  rw [rxSigs_append]
  exact List.append_nil _

/-- What a run adds to the signals of a card. -/
theorem rxSigs_since {sigs : List RxSig} (grows : ∃ log, after.log = world.log ++ log)
    (same : rxSigs card after.log = rxSigs card world.log ++ sigs) :
    rxSigs card (since world after) = sigs := by
  obtain ⟨log, logEq⟩ := grows
  rw [since_eq logEq]
  rw [logEq, rxSigs_append] at same
  exact List.append_cancel_left same

/-- Nothing has been signalled to zaptel. -/
def Unsignalled (card : Card) (world after : World σ) : Prop :=
  rxSigs card after.log = rxSigs card world.log

/-- A program without hook signals. -/
theorem Unsignalled.of_every {program : Prog α}
    (every : program.Every fun op => ∀ c sig, op ≠ .ztHooksig c sig) :
    Program.Respects (handler env) (Unsignalled card) program := fun _ _ _ ran =>
  every.run_rel (R := Unsignalled card) (fun _ => rfl) (fun first second => Eq.trans second first)
    (fun op silent world answer after answered => by
      unfold Unsignalled
      rw [(handler_some answered).2.2, rxSigs_append]
      cases op with
      | ztHooksig c sig => exact absurd rfl (silent c sig)
      | _ => exact List.append_nil _) ran

end Signals

/-! ### Runs of polls -/

/-- The polls of a card: where each starts and ends, with `Between` from the end of one to the start
of the next. -/
structure PollRun {σ : Type} (env : Env σ) (poll : Prog Unit) (Between : World σ → World σ → Prop)
    (count : Nat) where
  before : Nat → World σ
  after : Nat → World σ
  ran : ∀ n < count, poll.run (handler env) (before n) = some ((), after n)
  between : ∀ n, n + 1 < count → Between (after n) (before (n + 1))

namespace PollRun

variable {σ : Type} {env : Env σ} {poll : Prog Unit} {Between : World σ → World σ → Prop} {count : Nat}

/-- The exchanges of poll `n`. -/
def log (polls : PollRun env poll Between count) (n : Nat) : List Event :=
  since (polls.before n) (polls.after n)

/-- The hook signals of poll `n`. -/
def signals (polls : PollRun env poll Between count) (card : Card) (n : Nat) : List RxSig :=
  rxSigs card (polls.log n)

/-- The world after `n` polls with nothing in between. -/
def again (env : Env σ) (poll : Prog Unit) (start : World σ) : Nat → World σ
  | 0 => start
  | n + 1 => ((poll.run (handler env) (again env poll start n)).map Prod.snd).getD start

/-- Polls with nothing in between. -/
def repeated (env : Env σ) (poll : Prog Unit) (Between : World σ → World σ → Prop)
    (refl : ∀ world, Between world world) (start : World σ) (count : Nat)
    (ends : ∀ n < count, (poll.run (handler env) (again env poll start n)).isSome) :
    PollRun env poll Between count where
  before := again env poll start
  after := fun n => again env poll start (n + 1)
  ran := fun n inside => by
    obtain ⟨⟨⟨⟩, world⟩, ran⟩ := Option.isSome_iff_exists.mp (ends n inside)
    rw [ran, again, ran]
    rfl
  between := fun n _ => refl _

end PollRun

end Baps.Wcfxs
