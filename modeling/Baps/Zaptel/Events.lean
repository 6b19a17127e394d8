/-
**The events of a channel.**

A driver and the interrupt queue events on a channel, and the process that has it open fetches them one
by one. The queue is an array of `ZT_MAX_EVENTSIZE` places with an index to write at and one to read
from; equal indices are an empty queue, so that one place always stays free.

* `Waiting.qevent` — **an event is appended, and is lost exactly when `ZT_MAX_EVENTSIZE - 1` wait**;
* `Waiting.getevent` — **the oldest event is fetched**, and `ZT_EVENT_NONE` from an empty queue;
* `Waiting.flush` — a flush leaves nothing.

The constants of `zaptel.h` are not part of the repository. What depends on one takes it as an argument.
-/

import Baps.Memory.Ring

namespace Baps.Zaptel

open Baps.Memory

/-- The error numbers that the calls return. -/
inductive Errno
  | EINVAL
  | EAGAIN
  | ELAST
  | EFAULT
  | ENOMEM
  | EBUSY
  | EINPROGRESS
  deriving DecidableEq, Repr

/-- What happens on a channel, as the process is told: the `ZT_EVENT_` codes. -/
inductive Event
  | none
  | onhook
  | ringoffhook
  | winkflash
  | alarm
  | noalarm
  | abort
  | overrun
  | badfcs
  | dialcomplete
  | ringeron
  | ringeroff
  | hookcomplete
  | bitschanged
  | pulseStart
  | ringbegin
  | ecDisabled
  | pulsedigit (digit : Char)
  deriving DecidableEq, Repr

/-- `eventbuf`, `eventinidx` and `eventoutidx` of a channel. -/
structure EventQueue where
  eventbuf : Nat → Event
  eventinidx : Nat
  eventoutidx : Nat

namespace EventQueue

/-- `__qevent`. -/
def qevent (maxEventsize : Nat) (queue : EventQueue) (event : Event) : EventQueue :=
  if queue.eventoutidx = 0 ∧ queue.eventinidx = maxEventsize - 1 then queue
  else if (queue.eventinidx : Int) = (queue.eventoutidx : Int) - 1 then queue
  else
    { queue with
      eventbuf := Function.update queue.eventbuf queue.eventinidx event
      eventinidx := if maxEventsize ≤ queue.eventinidx + 1 then 0 else queue.eventinidx + 1 }

/-- An event is waiting. -/
def pending (queue : EventQueue) : Bool := queue.eventinidx != queue.eventoutidx

/-- `ZT_GETEVENT`. -/
def getevent (maxEventsize : Nat) (queue : EventQueue) : Event × EventQueue :=
  if queue.eventinidx ≠ queue.eventoutidx then
    (queue.eventbuf queue.eventoutidx,
      { queue with
        eventoutidx := if maxEventsize ≤ queue.eventoutidx + 1 then 0 else queue.eventoutidx + 1 })
  else (.none, queue)

/-- `ZT_FLUSH_EVENT`. -/
def flush (queue : EventQueue) : EventQueue := { queue with eventinidx := 0, eventoutidx := 0 }

/-- The events that wait, the oldest first. -/
structure Waiting (maxEventsize : Nat) (queue : EventQueue) (events : List Event) : Prop where
  out_lt : queue.eventoutidx < maxEventsize
  in_eq : queue.eventinidx = (queue.eventoutidx + events.length) % maxEventsize
  fits : events.length < maxEventsize
  take_eq : (around queue.eventbuf maxEventsize queue.eventoutidx).take events.length = events

end EventQueue

namespace EventQueue.Waiting

variable {maxEventsize : Nat} {queue : EventQueue} {events : List Event}

/-- The index after another, around the array. -/
theorem next_index {index : Nat} (inside : index < maxEventsize) :
    (if maxEventsize ≤ index + 1 then 0 else index + 1) = (index + 1) % maxEventsize := by
  split
  next past => rw [show index + 1 = maxEventsize by omega, Nat.mod_self]
  next short => rw [Nat.mod_eq_of_lt (by omega)]

theorem in_lt (waiting : Waiting maxEventsize queue events) : queue.eventinidx < maxEventsize := by
  rw [waiting.in_eq]
  exact Nat.mod_lt _ (Nat.zero_lt_of_lt waiting.out_lt)

/-- The indices say whether the queue is empty. -/
theorem pending_iff (waiting : Waiting maxEventsize queue events) :
    queue.eventinidx ≠ queue.eventoutidx ↔ events ≠ [] := by
  rw [waiting.in_eq, not_iff_not, ← List.length_eq_zero_iff]
  constructor
  · intro same
    have whole : (queue.eventoutidx + events.length) % maxEventsize
        = (queue.eventoutidx + 0) % maxEventsize := by
      rw [same, Nat.add_zero, Nat.mod_eq_of_lt waiting.out_lt]
    exact turn_inj waiting.fits (Nat.zero_lt_of_lt waiting.fits) whole
  · intro none
    rw [none, Nat.add_zero, Nat.mod_eq_of_lt waiting.out_lt]

/-- The two tests of `__qevent` say whether the queue is full. -/
theorem full_iff (waiting : Waiting maxEventsize queue events) :
    (queue.eventoutidx = 0 ∧ queue.eventinidx = maxEventsize - 1 ∨
      (queue.eventinidx : Int) = (queue.eventoutidx : Int) - 1) ↔
      events.length + 1 = maxEventsize := by
  have out_lt := waiting.out_lt
  have fits := waiting.fits
  have in_eq := waiting.in_eq
  by_cases wraps : queue.eventoutidx + events.length < maxEventsize
  · rw [Nat.mod_eq_of_lt wraps] at in_eq
    omega
  · rw [Nat.mod_eq_sub_mod (by omega), Nat.mod_eq_of_lt (by omega)] at in_eq
    omega

/-- **An event is queued,** unless all places but one are taken. -/
theorem qevent (waiting : Waiting maxEventsize queue events) (event : Event) :
    Waiting maxEventsize (queue.qevent maxEventsize event)
      (if events.length + 1 < maxEventsize then events ++ [event] else events) := by
  have fits := waiting.fits
  have full := waiting.full_iff
  unfold EventQueue.qevent
  by_cases whole : events.length + 1 = maxEventsize
  · have none : ¬ events.length + 1 < maxEventsize := by omega
    rw [if_neg none]
    rcases full.mpr whole with first | second
    · rw [if_pos first]
      exact waiting
    · rw [if_pos second, ite_self]
      exact waiting
  · have room : events.length + 1 < maxEventsize := by omega
    rw [if_pos room, if_neg fun first => whole (full.mp (.inl first)),
      if_neg fun second => whole (full.mp (.inr second))]
    refine ⟨waiting.out_lt, ?_, ?_, ?_⟩
    · rw [List.length_append, List.length_singleton]
      show (if maxEventsize ≤ queue.eventinidx + 1 then 0 else queue.eventinidx + 1) = _
      rw [next_index waiting.in_lt, waiting.in_eq, Nat.mod_add_mod, Nat.add_assoc]
    · rw [List.length_append, List.length_singleton]
      omega
    · have room : events.length < (around queue.eventbuf maxEventsize queue.eventoutidx).length := by
        rwa [length_around]
      show (around (Function.update queue.eventbuf queue.eventinidx event) maxEventsize
        queue.eventoutidx).take (events ++ [event]).length = _
      rw [waiting.in_eq, around_update _ _ fits, List.length_append, List.length_singleton,
        List.take_add_one, List.take_set_of_le le_rfl, waiting.take_eq,
        List.getElem?_set_self room]
      rfl

/-- **The oldest event is fetched.** -/
theorem getevent (waiting : Waiting maxEventsize queue events) :
    (queue.getevent maxEventsize).1 = events.headD .none ∧
      Waiting maxEventsize (queue.getevent maxEventsize).2 events.tail := by
  unfold EventQueue.getevent
  cases events with
  | nil =>
    rw [if_neg (waiting.pending_iff.not.mpr (not_not_intro rfl))]
    exact ⟨rfl, waiting⟩
  | cons event rest =>
    have fits := waiting.fits
    rw [List.length_cons] at fits
    obtain ⟨oldest, more, lap⟩ : ∃ oldest more,
        around queue.eventbuf maxEventsize queue.eventoutidx = oldest :: more :=
      List.exists_cons_of_length_pos (by rw [length_around]; omega)
    have taken := waiting.take_eq
    rw [lap, List.length_cons, List.take_succ_cons] at taken
    obtain ⟨rfl, held⟩ := List.cons.inj taken
    have here := getElem?_around queue.eventbuf queue.eventoutidx
      (Nat.zero_lt_of_lt waiting.out_lt)
    rw [lap, Nat.add_zero, Nat.mod_eq_of_lt waiting.out_lt] at here
    rw [if_pos (waiting.pending_iff.mpr (List.cons_ne_nil _ _))]
    refine ⟨(Option.some.inj here).symm, ?_, ?_, ?_, ?_⟩
    · show (if maxEventsize ≤ queue.eventoutidx + 1 then 0 else queue.eventoutidx + 1) < _
      rw [next_index waiting.out_lt]
      exact Nat.mod_lt _ (by omega)
    · show queue.eventinidx =
        ((if maxEventsize ≤ queue.eventoutidx + 1 then 0 else queue.eventoutidx + 1) + _) % _
      rw [next_index waiting.out_lt, waiting.in_eq, Nat.mod_add_mod, List.length_cons, List.tail_cons,
        Nat.add_assoc, Nat.add_comm 1]
    · rw [List.tail_cons]
      omega
    · show (around queue.eventbuf maxEventsize
        (if maxEventsize ≤ queue.eventoutidx + 1 then 0 else queue.eventoutidx + 1)).take _ = _
      have long : rest.length ≤ more.length := by
        have := congrArg List.length lap
        rw [length_around, List.length_cons] at this
        omega
      rw [next_index waiting.out_lt, around_next lap waiting.out_lt, List.tail_cons,
        List.take_append_of_le_length long, held]

/-- A flush. -/
theorem flush (waiting : Waiting maxEventsize queue events) : Waiting maxEventsize queue.flush [] where
  out_lt := Nat.zero_lt_of_lt waiting.out_lt
  in_eq := (Nat.zero_mod _).symm
  fits := Nat.zero_lt_of_lt waiting.out_lt
  take_eq := rfl

end EventQueue.Waiting

end Baps.Zaptel
