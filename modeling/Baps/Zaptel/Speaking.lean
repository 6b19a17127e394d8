/-
**Who speaks in a conference, and who hears it.**

A row of sums grows by what a channel says, by as much of it as gets in. The channel takes that down, and takes
it out again of what it hears.

* `Desk.Handles` — what a step for one channel leaves as it was;
* `Desk.putaudio_next`, `Desk.getaudio_sums` — **a channel of a span speaks, and a pseudo channel does**;
* `Desk.getaudio_heard`, `Desk.putaudio_heard` — **they hear their row**, less what they have said;
* `Desk.getaudio_next`, `Desk.getaudio_real`, `Desk.putaudio_plain` — what changes no row.
-/

import Mathlib.Algebra.Order.Ring.Int
import Baps.Zaptel.Mixing

namespace Baps.Zaptel

open Baps.Signal (Rails Tallies foldl_others foldl_once)
open Finset

section

variable {n : Nat} {arith : Arith} {confs : Confs} {chan : ConfChan} {x a : Nat} {t : Fin n}
variable {desk desk' : Desk n} {sounds : Sounds n}

/-! ### Samples -/

theorem acss_fits (dst src : Chunk n) (t : Fin n) : arith.rails.Fits (arith.acss dst src t) := by
  show arith.rails.Fits (arith.add (dst t) (src t))
  rw [arith.add_eq]
  exact arith.rails.clip_fits _

/-- As much of a sample gets into a row as there is room for. -/
theorem talk_last (lin row : Chunk n) (t : Fin n) :
    (arith.talk lin row).2 t = arith.rails.added (row t) (lin t) := by
  show arith.sub (arith.add (lin t) (row t)) (row t) = _
  rw [arith.sub_eq, arith.add_eq]
  rfl

/-- The row grows by that. -/
theorem talk_row {lin row : Chunk n} (row_fits : arith.rails.Fits (row t)) (fits : arith.rails.Fits (lin t)) :
    (arith.talk lin row).1 t = row t + (arith.talk lin row).2 t := by
  show arith.add (row t) ((arith.talk lin row).2 t) = _
  rw [arith.add_eq, talk_last, Rails.clip_add_added row_fits fits]

theorem hear_eq (lin last row : Chunk n) (t : Fin n) :
    arith.hear lin last row t = arith.rails.clip (arith.rails.clip (lin t - last t) + row t) := by
  show arith.add (arith.sub (lin t) (last t)) (row t) = _
  rw [arith.add_eq, arith.sub_eq]

/-! ### A step for one channel -/

namespace Desk

theorem setVoice_self (desk : Desk n) (x : Nat) (ms : Voice n) : (desk.setVoice x ms).voices x = ms := by
  show Function.update desk.voices x ms x = ms
  rw [Function.update_self]

theorem setVoice_of_ne (desk : Desk n) {x y : Nat} (other : y ≠ x) (ms : Voice n) :
    (desk.setVoice x ms).voices y = desk.voices y := by
  show Function.update desk.voices x ms y = desk.voices y
  rw [Function.update_of_ne other]

/-- All samples are samples. -/
structure Bounded (arith : Arith) (desk : Desk n) : Prop where
  law : ∀ x b, arith.rails.Fits ((desk.voices x).law.xlaw b) ∧ arith.rails.Fits (-(desk.voices x).law.xlaw b)
  prev : ∀ a t, arith.rails.Fits (desk.prev a t)
  sums : ∀ a t, arith.rails.Fits (desk.sums a t)
  next : ∀ a t, arith.rails.Fits (desk.next a t)

/-- What a channel is set to. -/
structure Kept (ms ms' : Voice n) : Prop where
  pseudo : ms'.pseudo = ms.pseudo
  law : ms'.law = ms.law
  confmute : ms'.confmute = ms.confmute
  rxgain : ms'.rxgain = ms.rxgain
  txgain : ms'.txgain = ms.txgain

theorem Kept.refl (ms : Voice n) : Kept ms ms := ⟨rfl, rfl, rfl, rfl, rfl⟩

theorem Kept.trans {ms ms' ms'' : Voice n} (first : Kept ms ms') (second : Kept ms' ms'') : Kept ms ms'' where
  pseudo := second.pseudo.trans first.pseudo
  law := second.law.trans first.law
  confmute := second.confmute.trans first.confmute
  rxgain := second.rxgain.trans first.rxgain
  txgain := second.txgain.trans first.txgain

/-- What a step for channel `x` leaves as it was. -/
structure Handles (arith : Arith) (x : Nat) (desk desk' : Desk n) : Prop where
  others : ∀ y, y ≠ x → desk'.voices y = desk.voices y
  handed : ∀ y, y ≠ x → desk'.toReader y = desk.toReader y ∧ desk'.toLine y = desk.toLine y
  kept : Kept (desk.voices x) (desk'.voices x)
  bounded : desk.Bounded arith → desk'.Bounded arith

namespace Handles

theorem refl (x : Nat) (desk : Desk n) : Handles arith x desk desk :=
  ⟨fun _ _ => rfl, fun _ _ => ⟨rfl, rfl⟩, Kept.refl _, id⟩

theorem trans {desk₁ desk₂ desk₃ : Desk n} (first : Handles arith x desk₁ desk₂)
    (second : Handles arith x desk₂ desk₃) : Handles arith x desk₁ desk₃ where
  others y other := (second.others y other).trans (first.others y other)
  handed y other :=
    ⟨(second.handed y other).1.trans (first.handed y other).1,
      (second.handed y other).2.trans (first.handed y other).2⟩
  kept := first.kept.trans second.kept
  bounded := second.bounded ∘ first.bounded

/-- What a channel is set to stays. -/
theorem setVoice {ms : Voice n} (kept : Kept (desk.voices x) ms) :
    Handles arith x desk (desk.setVoice x ms) where
  others y other := setVoice_of_ne desk other ms
  handed _ _ := ⟨rfl, rfl⟩
  kept := by rwa [setVoice_self]
  bounded bounded := by
    refine ⟨fun y b => ?_, bounded.prev, bounded.sums, bounded.next⟩
    by_cases same : y = x
    · rw [same, setVoice_self, kept.law]
      exact bounded.law x b
    · rw [setVoice_of_ne desk same]
      exact bounded.law y b

theorem setSums {row : Chunk n} (fits : ∀ t, arith.rails.Fits (row t)) :
    Handles arith x desk (desk.setSums a row) where
  others _ _ := rfl
  handed _ _ := ⟨rfl, rfl⟩
  kept := Kept.refl _
  bounded bounded := by
    refine ⟨bounded.law, bounded.prev, fun b t => ?_, bounded.next⟩
    show arith.rails.Fits (Function.update desk.sums a row b t)
    by_cases same : b = a
    · rw [same, Function.update_self]
      exact fits t
    · rw [Function.update_of_ne same]
      exact bounded.sums b t

theorem setNext {row : Chunk n} (fits : ∀ t, arith.rails.Fits (row t)) :
    Handles arith x desk (desk.setNext a row) where
  others _ _ := rfl
  handed _ _ := ⟨rfl, rfl⟩
  kept := Kept.refl _
  bounded bounded := by
    refine ⟨bounded.law, bounded.prev, bounded.sums, fun b t => ?_⟩
    show arith.rails.Fits (Function.update desk.next a row b t)
    by_cases same : b = a
    · rw [same, Function.update_self]
      exact fits t
    · rw [Function.update_of_ne same]
      exact bounded.next b t

/-- A chunk is handed to a process. -/
theorem toReader (x : Nat) (desk : Desk n) (buf : Bytes n) :
    Handles arith x desk { desk with toReader := Function.update desk.toReader x buf } :=
  ⟨fun _ _ => rfl, fun _ other => ⟨Function.update_of_ne other _ _, rfl⟩, Kept.refl _,
    fun bounded => ⟨bounded.law, bounded.prev, bounded.sums, bounded.next⟩⟩

/-- A chunk is handed to a line. -/
theorem toLine (x : Nat) (desk : Desk n) (buf : Bytes n) :
    Handles arith x desk { desk with toLine := Function.update desk.toLine x buf } :=
  ⟨fun _ _ => rfl, fun _ other => ⟨rfl, Function.update_of_ne other _ _⟩, Kept.refl _,
    fun bounded => ⟨bounded.law, bounded.prev, bounded.sums, bounded.next⟩⟩

end Handles

theorem say_handles (chan : ConfChan) (x : Nat) (putlin : Chunk n) (desk : Desk n) :
    Handles arith x desk (desk.say arith chan x putlin) := by
  unfold say
  dsimp only
  split
  · exact (Handles.setNext (acss_fits _ _)).trans (Handles.setVoice ⟨rfl, rfl, rfl, rfl, rfl⟩)
  · exact Handles.setVoice ⟨rfl, rfl, rfl, rfl, rfl⟩

theorem sayAgain_handles (chan : ConfChan) (x : Nat) (putlin : Chunk n) (desk : Desk n) :
    Handles arith x desk (desk.sayAgain arith chan x putlin) := by
  unfold sayAgain
  dsimp only
  split
  · exact (Handles.setSums (acss_fits _ _)).trans (Handles.setVoice ⟨rfl, rfl, rfl, rfl, rfl⟩)
  · exact Handles.setVoice ⟨rfl, rfl, rfl, rfl, rfl⟩

theorem putMode_handles (chan : ConfChan) (x : Nat) (putlin : Chunk n) (rxb : Bytes n) (desk : Desk n) :
    Handles arith x desk (desk.putMode arith chan x putlin rxb).1 := by
  unfold putMode
  dsimp only
  split
  · exact say_handles chan x putlin desk
  · split
    · exact Handles.setVoice ⟨rfl, rfl, rfl, rfl, rfl⟩
    · exact say_handles chan x putlin desk
  · exact say_handles chan x putlin desk
  · exact sayAgain_handles chan x putlin desk
  · exact sayAgain_handles chan x putlin desk
  · exact Handles.refl x desk
  · split <;> exact Handles.refl x desk

/-- A chunk that is taken changes a channel alone, and not what it has said last. -/
theorem take_handles (arith : Arith) (x : Nat) (rxb : Bytes n) (desk : Desk n) :
    Handles arith x desk (desk.take x rxb).1 ∧
      ((desk.take x rxb).1.voices x).conflast = (desk.voices x).conflast := by
  unfold take Voice.keep
  dsimp only
  split
  · exact ⟨Handles.setVoice ⟨rfl, rfl, rfl, rfl, rfl⟩, by rw [setVoice_self]; rfl⟩
  · exact ⟨Handles.setVoice ⟨rfl, rfl, rfl, rfl, rfl⟩, by rw [setVoice_self]; rfl⟩

theorem putaudio_handles (arith : Arith) (chan : ConfChan) (x : Nat) (rxb : Bytes n) (desk : Desk n) :
    Handles arith x desk (desk.putaudio arith chan x rxb).1 := by
  unfold putaudio
  dsimp only
  split
  · exact (take_handles _ x rxb desk).1.trans (putMode_handles chan x _ _ _)
  · exact (take_handles _ x rxb desk).1

theorem getConf_handles (chan : ConfChan) (x : Nat) (getlin : Chunk n) (desk : Desk n) :
    Handles arith x desk (desk.getConf arith chan x getlin).1 := by
  unfold getConf
  dsimp only
  split
  · split
    · exact (Handles.setSums (acss_fits _ _)).trans (Handles.setVoice ⟨rfl, rfl, rfl, rfl, rfl⟩)
    · exact Handles.setVoice ⟨rfl, rfl, rfl, rfl, rfl⟩
  · exact Handles.refl x desk

theorem getPseudo_handles (arith : Arith) (chan : ConfChan) (x : Nat) (getlin : Chunk n) (desk : Desk n) :
    Handles arith x desk (desk.getPseudo arith chan x getlin) := by
  unfold getPseudo
  dsimp only
  split
  · exact (Handles.setNext (acss_fits _ _)).trans (Handles.setVoice ⟨rfl, rfl, rfl, rfl, rfl⟩)
  · exact Handles.setVoice ⟨rfl, rfl, rfl, rfl, rfl⟩

theorem getMode_handles (confs : Confs) (chan : ConfChan) (x : Nat) (getlin : Chunk n) (txb : Bytes n)
    (desk : Desk n) : Handles arith x desk (desk.getMode arith confs chan x getlin txb).1 := by
  unfold getMode
  dsimp only
  split
  · exact (getPseudo_handles _ chan x getlin desk).trans (getConf_handles chan x 0 _)
  · exact getConf_handles chan x getlin desk
  · exact Handles.refl x desk
  · exact Handles.setNext (acss_fits _ _)
  · exact Handles.setNext (acss_fits _ _)
  · split <;> exact Handles.refl x desk
  · split <;> exact Handles.refl x desk

theorem getOpen_handles (arith : Arith) (confs : Confs) (chan : ConfChan) (x : Nat) (txb : Bytes n) (desk : Desk n) :
    Handles arith x desk (desk.getOpen arith confs chan x txb).1 := by
  unfold getOpen
  dsimp only
  split
  · exact getMode_handles confs chan x _ txb desk
  · exact Handles.refl x desk

theorem getaudio_handles (arith : Arith) (confs : Confs) (chan : ConfChan) (x : Nat) (txb : Bytes n) (desk : Desk n) :
    Handles arith x desk (desk.getaudio arith confs chan x txb).1 :=
  (getOpen_handles _ confs chan x txb desk).trans (Handles.setVoice ⟨rfl, rfl, rfl, rfl, rfl⟩)

end Desk

/-! ### Who speaks -/

/-- A channel in one of these modes puts what it says into the sums. -/
def ConfChan.talks (chan : ConfChan) (pseudo : Bool) : Bool :=
  chan.confmode.talker ∧
    (chan.confmode.mode = .conf ∨ chan.confmode.mode = .realandpseudo ∨
      (¬ pseudo ∧ chan.confmode.mode = .confann))

/-- It does so now. -/
def ConfChan.speaks (chan : ConfChan) (ms : Voice n) : Bool :=
  chan.talks ms.pseudo ∧ (ms.pseudo ∨ (¬ ms.confmute ∧ ms.afterdialingtimer = 0))

namespace Desk

/-- What a row has of a channel that is in it. -/
def part (chan : ConfChan) (a : Nat) (t : Fin n) (ms : Voice n) : Int :=
  if chan.confn = a ∧ chan.speaks ms then ms.conflast t else 0

theorem part_of_ne (elsewhere : chan.confn ≠ a) (t : Fin n) (ms : Voice n) : part chan a t ms = 0 :=
  if_neg fun both => elsewhere both.1

theorem part_of_not_speaks {ms : Voice n} (silent : chan.speaks ms = false) (a : Nat) (t : Fin n) :
    part chan a t ms = 0 :=
  if_neg fun both => Bool.false_ne_true (silent.symm.trans both.2)

/-! ### The sums of the next tick -/

theorem say_last (chan : ConfChan) (x : Nat) (putlin : Chunk n) (desk : Desk n) (t : Fin n) :
    ((desk.say arith chan x putlin).voices x).conflast t =
      if chan.confmode.talker then arith.rails.added (desk.next chan.confn t) (putlin t) else 0 := by
  unfold say
  by_cases talker : chan.confmode.talker = true
  · rw [if_pos talker, if_pos talker, setVoice_self]
    exact talk_last putlin (desk.next chan.confn) t
  · rw [if_neg talker, if_neg talker, setVoice_self]
    rfl

/-- **The next sums grow** by what a talker says. -/
theorem say_next (bounded : desk.Bounded arith) {putlin : Chunk n} (fits : ∀ t, arith.rails.Fits (putlin t))
    (chan : ConfChan) (x a : Nat) (t : Fin n) :
    (desk.say arith chan x putlin).next a t = desk.next a t +
      if chan.confn = a then ((desk.say arith chan x putlin).voices x).conflast t else 0 := by
  rw [say_last]
  unfold say
  by_cases talker : chan.confmode.talker = true
  · rw [if_pos talker, if_pos talker]
    show Function.update desk.next chan.confn (arith.talk putlin (desk.next chan.confn)).1 a t = _
    by_cases same : chan.confn = a
    · rw [if_pos same, ← same, Function.update_self, talk_row (bounded.next _ t) (fits t), talk_last]
    · rw [if_neg same, Function.update_of_ne (Ne.symm same), add_zero]
  · rw [if_neg talker, if_neg talker, ite_self, add_zero]
    rfl

/-- What comes in ends no wait after a dialling. -/
theorem putMode_timer (arith : Arith) (chan : ConfChan) (x : Nat) (putlin : Chunk n) (rxb : Bytes n) (desk : Desk n) :
    ((desk.putMode arith chan x putlin rxb).1.voices x).afterdialingtimer
      = (desk.voices x).afterdialingtimer := by
  have said : ((desk.say arith chan x putlin).voices x).afterdialingtimer
      = (desk.voices x).afterdialingtimer := by
    unfold say
    dsimp only
    split <;> rw [setVoice_self]
  have again : ((desk.sayAgain arith chan x putlin).voices x).afterdialingtimer
      = (desk.voices x).afterdialingtimer := by
    unfold sayAgain
    dsimp only
    split <;> rw [setVoice_self]
  unfold putMode
  dsimp only
  split
  · exact said
  · split
    · rw [setVoice_self]
    · exact said
  · exact said
  · exact again
  · exact again
  · rfl
  · split <;> rfl

theorem sayAgain_next (chan : ConfChan) (x : Nat) (putlin : Chunk n) (desk : Desk n) :
    (desk.sayAgain arith chan x putlin).next = desk.next := by
  unfold sayAgain
  dsimp only
  split <;> rfl

/-- A channel of a span speaks to the next sums where it is in one of three modes. -/
theorem putMode_talks (real : (desk.voices x).pseudo = false) (putlin : Chunk n) (rxb : Bytes n)
    (talks : chan.confmode.mode = .conf ∨ chan.confmode.mode = .realandpseudo ∨ chan.confmode.mode = .confann) :
    (desk.putMode arith chan x putlin rxb).1 = desk.say arith chan x putlin := by
  unfold putMode
  rcases talks with mode | mode | mode <;> rw [mode]
  · dsimp only
    rw [real]
    rfl

/-- In any other mode it does not. -/
theorem putMode_silent (putlin : Chunk n) (rxb : Bytes n)
    (silent : ¬ (chan.confmode.mode = .conf ∨ chan.confmode.mode = .realandpseudo ∨
      chan.confmode.mode = .confann)) :
    (desk.putMode arith chan x putlin rxb).1.next = desk.next := by
  rw [not_or, not_or] at silent
  unfold putMode
  dsimp only
  split
  next mode => exact absurd mode silent.2.1
  next mode => exact absurd mode silent.1
  next mode => exact absurd mode silent.2.2
  · exact sayAgain_next chan x putlin desk
  · exact sayAgain_next chan x putlin desk
  · rfl
  · split <;> rfl

/-- It speaks afterwards where it does when its chunk is taken. -/
theorem putaudio_speaks (chan : ConfChan) (x : Nat) (rxb : Bytes n) (desk : Desk n) :
    chan.speaks ((desk.putaudio arith chan x rxb).1.voices x)
      = chan.speaks ((desk.take x rxb).1.voices x) := by
  have after := putaudio_handles arith chan x rxb desk
  have before := (take_handles arith x rxb desk).1
  unfold ConfChan.speaks
  rw [after.kept.pseudo, after.kept.confmute, before.kept.pseudo, before.kept.confmute]
  unfold putaudio
  dsimp only
  split
  · rw [putMode_timer]
  · rfl

/-- What a channel has to say in row `a`. -/
def offer (chan : ConfChan) (a : Nat) (t : Fin n) (ms : Voice n) (lin : Chunk n) : Int :=
  if chan.confn = a ∧ chan.speaks ms then lin t else 0

/-- It is a sample, from either side. -/
theorem offer_fits {lin : Chunk n} (fits : arith.rails.Fits (lin t) ∧ arith.rails.Fits (-lin t)) (chan : ConfChan)
    (a : Nat) (ms : Voice n) :
    arith.rails.Fits (offer chan a t ms lin) ∧ arith.rails.Fits (-offer chan a t ms lin) := by
  unfold offer
  split
  · exact fits
  · rw [neg_zero]
    exact ⟨arith.rails.zero_fits, arith.rails.zero_fits⟩

/-- What it takes for a channel of a span to speak. -/
theorem speaks_real {ms : Voice n} (real : ms.pseudo = false) :
    chan.speaks ms = true ↔ chan.confmode.talker = true ∧
      (chan.confmode.mode = .conf ∨ chan.confmode.mode = .realandpseudo ∨ chan.confmode.mode = .confann) ∧
      ¬ ms.confmute = true ∧ ms.afterdialingtimer = 0 := by
  unfold ConfChan.speaks ConfChan.talks
  rw [real]
  simp only [Bool.false_eq_true, not_false_eq_true, true_and, false_or, decide_eq_true_eq, and_assoc]

/-- **A channel of a span speaks**: its row grows by as much as gets in. -/
theorem putaudio_next (bounded : desk.Bounded arith) (real : (desk.voices x).pseudo = false) (chan : ConfChan)
    (rxb : Bytes n) (a : Nat) (t : Fin n) :
    (desk.putaudio arith chan x rxb).1.next a t
        = desk.next a t + part chan a t ((desk.putaudio arith chan x rxb).1.voices x) ∧
      part chan a t ((desk.putaudio arith chan x rxb).1.voices x)
        = arith.rails.added (desk.next a t)
          (offer chan a t ((desk.take x rxb).1.voices x) (desk.take x rxb).2.1) := by
  have fits (t : Fin n) : arith.rails.Fits ((desk.take x rxb).2.1 t) := (bounded.law x _).1
  have bounded' := (take_handles _ x rxb desk).1.bounded bounded
  have real' := (take_handles arith x rxb desk).1.kept.pseudo.trans real
  have before : (desk.take x rxb).1.next = desk.next := rfl
  unfold part offer
  rw [putaudio_speaks, ← before]
  unfold putaudio
  dsimp only
  generalize desk.take x rxb = taken at *
  by_cases here : chan.confn = a ∧ chan.speaks (taken.1.voices x) = true
  · obtain ⟨talker, mode, opened⟩ := (speaks_real real').mp here.2
    rw [if_pos (Or.inl opened), putMode_talks real' _ _ mode, if_pos here, if_pos here, say_next bounded' fits,
      if_pos here.1, say_last, if_pos talker, here.1]
    exact ⟨rfl, rfl⟩
  · rw [if_neg here, if_neg here, add_zero, Rails.added_zero (bounded'.next a t)]
    refine ⟨?_, rfl⟩
    by_cases opened : (¬ (taken.1.voices x).confmute = true ∧ (taken.1.voices x).afterdialingtimer = 0) ∨
        (taken.1.voices x).pseudo = true
    · rw [if_pos opened]
      by_cases mode : chan.confmode.mode = .conf ∨ chan.confmode.mode = .realandpseudo ∨
          chan.confmode.mode = .confann
      · rw [putMode_talks real' _ _ mode, say_next bounded' fits, say_last]
        by_cases inside : chan.confn = a
        · -- it is not a talker then
          have silent : ¬ chan.confmode.talker = true := fun talker => here ⟨inside, (speaks_real real').mpr
            ⟨talker, mode, opened.resolve_right (by rw [real']; exact Bool.false_ne_true)⟩⟩
          rw [if_neg silent, ite_self, add_zero]
        · rw [if_neg inside, add_zero]
      · rw [putMode_silent _ _ mode]
    · rw [if_neg opened]

/-- The wait after a dialling goes on while a chunk is taken. -/
theorem take_timer (x : Nat) (rxb : Bytes n) (desk : Desk n) :
    ((desk.take x rxb).1.voices x).afterdialingtimer = (desk.voices x).dialed.afterdialingtimer := by
  unfold take Voice.keep
  dsimp only
  rw [setVoice_self]
  split <;> rfl

/-- **What a channel of a span takes down** is what its row has of it, and can be taken out again. -/
theorem putaudio_own (bounded : desk.Bounded arith) (real : (desk.voices x).pseudo = false)
    (heard : (desk.voices x).confmute = false) (idle : (desk.voices x).dialed.afterdialingtimer = 0)
    (mode : chan.confmode.mode = .conf ∨ chan.confmode.mode = .realandpseudo) (rxb : Bytes n) (t : Fin n) :
    arith.rails.Fits (-((desk.putaudio arith chan x rxb).1.voices x).conflast t) ∧
      part chan chan.confn t ((desk.putaudio arith chan x rxb).1.voices x)
        = ((desk.putaudio arith chan x rxb).1.voices x).conflast t := by
  have taken := (take_handles arith x rxb desk).1
  have real' := taken.kept.pseudo.trans real
  have heard' := taken.kept.confmute.trans heard
  have opened : ¬ ((desk.take x rxb).1.voices x).confmute = true ∧
      ((desk.take x rxb).1.voices x).afterdialingtimer = 0 :=
    ⟨ne_true_of_eq_false heard', (take_timer x rxb desk).trans idle⟩
  have modes : chan.confmode.mode = .conf ∨ chan.confmode.mode = .realandpseudo ∨
      chan.confmode.mode = .confann := mode.imp_right Or.inl
  have own : part chan chan.confn t ((desk.putaudio arith chan x rxb).1.voices x)
      = ((desk.putaudio arith chan x rxb).1.voices x).conflast t := by
    unfold part
    rw [putaudio_speaks]
    by_cases talker : chan.confmode.talker = true
    · rw [if_pos ⟨rfl, (speaks_real real').mpr ⟨talker, modes, opened⟩⟩]
    · rw [if_neg fun both => talker ((speaks_real real').mp both.2).1]
      unfold putaudio
      dsimp only
      rw [if_pos (Or.inl opened), putMode_talks real' _ _ modes, say_last, if_neg talker]
  obtain ⟨-, room⟩ := putaudio_next bounded real chan rxb chan.confn t
  have samples := @offer_fits n arith t (desk.take x rxb).2.1 (bounded.law x _) chan chan.confn
    ((desk.take x rxb).1.voices x)
  obtain ⟨above, below⟩ := Rails.added_between (bounded.next chan.confn t) samples.1
  rw [← own, room]
  exact ⟨Rails.neg_fits_between samples.2 above below, rfl⟩

/-! ### What goes out -/

/-- What it takes for a pseudo channel to speak. -/
theorem speaks_pseudo {ms : Voice n} (pseudo : ms.pseudo = true) :
    chan.speaks ms = true ↔ chan.confmode.talker = true ∧
      (chan.confmode.mode = .conf ∨ chan.confmode.mode = .realandpseudo) := by
  unfold ConfChan.speaks ConfChan.talks
  rw [pseudo]
  simp only [not_true_eq_false, false_and, or_false, true_or, and_true, decide_eq_true_eq]

theorem getConf_last (pseudo : (desk.voices x).pseudo = true) (chan : ConfChan) (getlin : Chunk n)
    (t : Fin n) :
    ((desk.getConf arith chan x getlin).1.voices x).conflast t =
      if chan.confmode.talker then arith.rails.added (desk.sums chan.confn t) (getlin t) else 0 := by
  unfold getConf
  dsimp only
  rw [if_pos pseudo]
  by_cases talker : chan.confmode.talker = true
  · rw [if_pos talker, if_pos talker, setVoice_self]
    exact talk_last getlin (desk.sums chan.confn) t
  · rw [if_neg talker, if_neg talker, setVoice_self]
    rfl

/-- **The sums grow** by what a pseudo channel says. -/
theorem getConf_sums (bounded : desk.Bounded arith) (pseudo : (desk.voices x).pseudo = true) {getlin : Chunk n}
    (fits : ∀ t, arith.rails.Fits (getlin t)) (chan : ConfChan) (a : Nat) (t : Fin n) :
    (desk.getConf arith chan x getlin).1.sums a t = desk.sums a t +
      if chan.confn = a then ((desk.getConf arith chan x getlin).1.voices x).conflast t else 0 := by
  rw [getConf_last pseudo]
  unfold getConf
  dsimp only
  rw [if_pos pseudo]
  by_cases talker : chan.confmode.talker = true
  · rw [if_pos talker, if_pos talker]
    show Function.update desk.sums chan.confn (arith.talk getlin (desk.sums chan.confn)).1 a t = _
    by_cases same : chan.confn = a
    · rw [if_pos same, ← same, Function.update_self, talk_row (bounded.sums _ t) (fits t), talk_last]
    · rw [if_neg same, Function.update_of_ne (Ne.symm same), add_zero]
  · rw [if_neg talker, if_neg talker, ite_self, add_zero]
    rfl

/-- The other half of a channel does not speak to the sums of this tick. -/
theorem getPseudo_sums (chan : ConfChan) (x : Nat) (getlin : Chunk n) (desk : Desk n) :
    (desk.getPseudo arith chan x getlin).sums = desk.sums := by
  unfold getPseudo
  dsimp only
  split <;> rfl

/-- In any other mode, sums and what was said stay. -/
theorem getMode_silent (silent : ¬ (chan.confmode.mode = .conf ∨ chan.confmode.mode = .realandpseudo))
    (confs : Confs) (x : Nat) (getlin : Chunk n) (txb : Bytes n) (desk : Desk n) :
    (desk.getMode arith confs chan x getlin txb).1.sums = desk.sums := by
  rw [not_or] at silent
  unfold getMode
  dsimp only
  split
  next mode => exact absurd mode silent.2
  next mode => exact absurd mode silent.1
  · rfl
  · rfl
  · rfl
  · split <;> rfl
  · split <;> rfl

/-- What a pseudo channel has to say: nothing, where its process speaks for the other half. -/
def offered (chan : ConfChan) (lin : Chunk n) : Chunk n :=
  if chan.confmode.mode = .realandpseudo then 0 else lin

/-- **A pseudo channel speaks**: its row grows by as much as gets in. -/
theorem getaudio_sums (bounded : desk.Bounded arith) (pseudo : (desk.voices x).pseudo = true) (confs : Confs)
    (chan : ConfChan) (txb : Bytes n) (a : Nat) (t : Fin n) :
    (desk.getaudio arith confs chan x txb).1.sums a t
        = desk.sums a t + part chan a t ((desk.getaudio arith confs chan x txb).1.voices x) ∧
      part chan a t ((desk.getaudio arith confs chan x txb).1.voices x)
        = arith.rails.added (desk.sums a t)
          (offer chan a t (desk.voices x) (offered chan ((desk.voices x).law.toLin txb))) := by
  have pseudo' := (getaudio_handles arith confs chan x txb desk).kept.pseudo.trans pseudo
  have speaks : chan.speaks ((desk.getaudio arith confs chan x txb).1.voices x)
      = chan.speaks (desk.voices x) := by
    rw [Bool.eq_iff_iff, speaks_pseudo pseudo', speaks_pseudo pseudo]
  have fits (t : Fin n) : arith.rails.Fits ((desk.voices x).law.toLin txb t) := (bounded.law x _).1
  have last : ((desk.getaudio arith confs chan x txb).1.voices x).conflast
      = ((desk.getMode arith confs chan x ((desk.voices x).law.toLin txb) txb).1.voices x).conflast := by
    unfold getaudio getOpen
    dsimp only
    rw [if_pos (Or.inr pseudo), setVoice_self]
  have sums : (desk.getaudio arith confs chan x txb).1.sums
      = (desk.getMode arith confs chan x ((desk.voices x).law.toLin txb) txb).1.sums := by
    unfold getaudio getOpen
    dsimp only
    rw [if_pos (Or.inr pseudo)]
    rfl
  unfold part offer
  rw [speaks, last, sums]
  by_cases mode : chan.confmode.mode = .conf ∨ chan.confmode.mode = .realandpseudo
  · -- both come to the same, with the samples or with silence
    obtain ⟨desk', eq, bounded', pseudo'', same⟩ : ∃ desk' : Desk n,
        (desk.getMode arith confs chan x ((desk.voices x).law.toLin txb) txb).1
          = (desk'.getConf arith chan x (offered chan ((desk.voices x).law.toLin txb))).1 ∧
        desk'.Bounded arith ∧ (desk'.voices x).pseudo = true ∧ desk'.sums = desk.sums := by
      unfold getMode offered
      rcases mode with mode | mode <;> rw [mode]
      · exact ⟨desk, rfl, bounded, pseudo, rfl⟩
      · have first := getPseudo_handles arith chan x ((desk.voices x).law.toLin txb) desk
        exact ⟨_, rfl, first.bounded bounded, first.kept.pseudo.trans pseudo, getPseudo_sums chan x _ desk⟩
    have fits' (t : Fin n) : arith.rails.Fits (offered chan ((desk.voices x).law.toLin txb) t) := by
      unfold offered
      split
      · exact arith.rails.zero_fits
      · exact fits t
    rw [eq, getConf_sums bounded' pseudo'' fits', getConf_last pseudo'', same]
    by_cases inside : chan.confn = a
    · by_cases talker : chan.confmode.talker = true
      · have here := And.intro inside ((speaks_pseudo pseudo).mpr ⟨talker, mode⟩)
        rw [if_pos inside, if_pos talker, if_pos here, if_pos here, inside]
        exact ⟨rfl, rfl⟩
      · have silent : ¬ (chan.confn = a ∧ chan.speaks (desk.voices x) = true) :=
          fun both => talker ((speaks_pseudo pseudo).mp both.2).1
        rw [if_neg talker, if_neg silent, if_neg silent, ite_self, Rails.added_zero (bounded.sums a t)]
        exact ⟨rfl, rfl⟩
    · have elsewhere : ¬ (chan.confn = a ∧ chan.speaks (desk.voices x) = true) := fun both => inside both.1
      rw [if_neg inside, if_neg elsewhere, if_neg elsewhere, Rails.added_zero (bounded.sums a t)]
      exact ⟨rfl, rfl⟩
  · have silent : ¬ (chan.confn = a ∧ chan.speaks (desk.voices x) = true) :=
      fun both => mode ((speaks_pseudo pseudo).mp both.2).2
    rw [if_neg silent, if_neg silent, Rails.added_zero (bounded.sums a t), getMode_silent mode, add_zero]
    exact ⟨rfl, rfl⟩

/-- **What a pseudo channel takes down** is what its row has of it, and can be taken out again. -/
theorem getaudio_own (bounded : desk.Bounded arith) (pseudo : (desk.voices x).pseudo = true) (confs : Confs)
    (mode : chan.confmode.mode = .conf) (txb : Bytes n) (t : Fin n) :
    arith.rails.Fits (-((desk.getaudio arith confs chan x txb).1.voices x).conflast t) ∧
      part chan chan.confn t ((desk.getaudio arith confs chan x txb).1.voices x)
        = ((desk.getaudio arith confs chan x txb).1.voices x).conflast t := by
  have pseudo' := (getaudio_handles arith confs chan x txb desk).kept.pseudo.trans pseudo
  have own : part chan chan.confn t ((desk.getaudio arith confs chan x txb).1.voices x)
      = ((desk.getaudio arith confs chan x txb).1.voices x).conflast t := by
    unfold part
    by_cases talker : chan.confmode.talker = true
    · rw [if_pos ⟨rfl, (speaks_pseudo pseudo').mpr ⟨talker, Or.inl mode⟩⟩]
    · rw [if_neg fun both => talker ((speaks_pseudo pseudo').mp both.2).1]
      unfold getaudio getOpen getMode
      dsimp only
      rw [if_pos (Or.inr pseudo), mode, setVoice_self]
      dsimp only
      rw [getConf_last pseudo, if_neg talker]
  obtain ⟨-, room⟩ := getaudio_sums bounded pseudo confs chan txb chan.confn t
  have plain : offered chan ((desk.voices x).law.toLin txb) = (desk.voices x).law.toLin txb :=
    if_neg (by rw [mode]; nofun)
  have samples := @offer_fits n arith t ((desk.voices x).law.toLin txb) (bounded.law x _) chan chan.confn
    (desk.voices x)
  rw [plain] at room
  obtain ⟨above, below⟩ := Rails.added_between (bounded.sums chan.confn t) samples.1
  rw [← own, room]
  exact ⟨Rails.neg_fits_between samples.2 above below, rfl⟩

/-! ### What stays -/

/-- The channel speaks to the next sums when a chunk goes out to it. -/
def announces (chan : ConfChan) : Bool :=
  chan.confmode.mode = .confann ∨ chan.confmode.mode = .confannmon ∨
    (chan.confmode.mode = .realandpseudo ∧ chan.confmode.pseudoTalker)

theorem getConf_next (chan : ConfChan) (x : Nat) (getlin : Chunk n) (desk : Desk n) :
    (desk.getConf arith chan x getlin).1.next = desk.next := by
  unfold getConf
  dsimp only
  split
  · split <;> rfl
  · rfl

/-- Only who announces changes the next sums of a row then. -/
theorem getaudio_next (quiet : chan.confn = a → announces chan = false) (confs : Confs) (x : Nat)
    (txb : Bytes n) (desk : Desk n) : (desk.getaudio arith confs chan x txb).1.next a = desk.next a := by
  show (desk.getOpen arith confs chan x txb).1.next a = desk.next a
  have elsewhere (loud : announces chan = true) : a ≠ chan.confn := fun same =>
    Bool.false_ne_true ((quiet same.symm).symm.trans loud)
  unfold getOpen
  dsimp only
  split
  · unfold getMode
    dsimp only
    split
    next mode =>
      rw [getConf_next]
      unfold getPseudo
      by_cases talker : chan.confmode.pseudoTalker = true
      · rw [if_pos talker]
        exact Function.update_of_ne (elsewhere (decide_eq_true (Or.inr (Or.inr ⟨mode, talker⟩)))) _ _
      · rw [if_neg talker]
        rfl
    · rw [getConf_next]
    · rfl
    next mode => exact Function.update_of_ne (elsewhere (decide_eq_true (Or.inl mode))) _ _
    next mode => exact Function.update_of_ne (elsewhere (decide_eq_true (Or.inr (Or.inl mode)))) _ _
    · split <;> rfl
    · split <;> rfl
  · rfl

/-- A channel of a span that is sent to has said what it has said. -/
theorem getaudio_real (real : (desk.voices x).pseudo = false) (confs : Confs) (chan : ConfChan)
    (txb : Bytes n) :
    (desk.getaudio arith confs chan x txb).1.sums = desk.sums ∧
      ((desk.getaudio arith confs chan x txb).1.voices x).conflast = (desk.voices x).conflast ∧
      ((desk.getaudio arith confs chan x txb).1.voices x).afterdialingtimer
        = (desk.voices x).afterdialingtimer := by
  have opened : (desk.getOpen arith confs chan x txb).1.sums = desk.sums ∧
      ((desk.getOpen arith confs chan x txb).1.voices x).conflast = (desk.voices x).conflast ∧
      ((desk.getOpen arith confs chan x txb).1.voices x).afterdialingtimer
        = (desk.voices x).afterdialingtimer := by
    have closed (desk' : Desk n) (real' : (desk'.voices x).pseudo = false) (lin : Chunk n) :
        (desk'.getConf arith chan x lin).1 = desk' := by
      unfold getConf
      dsimp only
      rw [real']
      rfl
    have half := getPseudo_handles arith chan x ((desk.voices x).law.toLin txb) desk
    unfold getOpen
    dsimp only
    split
    · unfold getMode
      dsimp only
      split
      · rw [closed _ (half.kept.pseudo.trans real)]
        unfold getPseudo
        dsimp only
        split <;> rw [setVoice_self] <;> exact ⟨rfl, rfl, rfl⟩
      · rw [closed desk real]
        exact ⟨rfl, rfl, rfl⟩
      · exact ⟨rfl, rfl, rfl⟩
      · exact ⟨rfl, rfl, rfl⟩
      · exact ⟨rfl, rfl, rfl⟩
      · split <;> exact ⟨rfl, rfl, rfl⟩
      · split <;> exact ⟨rfl, rfl, rfl⟩
    · exact ⟨rfl, rfl, rfl⟩
  unfold getaudio
  dsimp only
  rw [setVoice_self]
  exact opened

/-- **A channel of a span hears its row**, less what it has said. -/
theorem getaudio_heard (real : (desk.voices x).pseudo = false) (heard : (desk.voices x).confmute = false)
    (idle : (desk.voices x).dialing = false) (confs : Confs) (listener : chan.confmode.listener = true)
    (mode : chan.confmode.mode = .conf ∨ chan.confmode.mode = .realandpseudo) (txb : Bytes n) (t : Fin n) :
    (desk.getaudio arith confs chan x txb).2 t = (desk.voices x).txgain ((desk.voices x).law.lin2x
      (arith.hear (offered chan ((desk.voices x).law.toLin txb)) (desk.voices x).conflast
        (desk.sums chan.confn) t)) := by
  have handles := getOpen_handles arith confs chan x txb desk
  unfold getaudio
  dsimp only
  rw [handles.kept.confmute, handles.kept.txgain, heard, if_neg Bool.false_ne_true]
  congr 1
  unfold getOpen
  dsimp only
  rw [if_pos (Or.inl ⟨ne_true_of_eq_false heard, ne_true_of_eq_false idle⟩)]
  have listens (desk' : Desk n) (real' : (desk'.voices x).pseudo = false) (lin : Chunk n) :
      (desk'.getConf arith chan x lin).2.2
        = (desk'.voices x).law.toX (arith.hear lin (desk'.voices x).conflast (desk'.sums chan.confn)) := by
    unfold getConf
    dsimp only
    rw [real', if_neg Bool.false_ne_true]
    unfold listen
    dsimp only
    rw [if_pos listener]
  unfold getMode offered
  rcases mode with mode | mode <;> rw [mode]
  · exact congrFun (listens desk real _) t
  · have half := getPseudo_handles arith chan x ((desk.voices x).law.toLin txb) desk
    have last : ((desk.getPseudo arith chan x ((desk.voices x).law.toLin txb)).voices x).conflast
        = (desk.voices x).conflast := by
      unfold getPseudo
      dsimp only
      split <;> rw [setVoice_self]
    have eq := listens _ (half.kept.pseudo.trans real) 0
    rw [half.kept.law, last, getPseudo_sums] at eq
    exact congrFun eq t

/-! ### A pseudo channel that receives -/

/-- A pseudo channel in a conference is an ordinary member. -/
def Plain (confs : Confs) (a : Nat) (desk : Desk n) : Prop :=
  ∀ x chan, confs.chans x = some chan → (desk.voices x).pseudo = true → chan.confn = a →
    chan.confmode.mode.isConf = true → chan.confmode.mode = .conf

/-- Other rows stay. -/
theorem putMode_elsewhere (arith : Arith) (elsewhere : a ≠ chan.confn) (x : Nat) (putlin : Chunk n) (rxb : Bytes n) (desk : Desk n) :
    (desk.putMode arith chan x putlin rxb).1.sums a = desk.sums a ∧
      (desk.putMode arith chan x putlin rxb).1.next a = desk.next a := by
  have said : (desk.say arith chan x putlin).sums a = desk.sums a ∧
      (desk.say arith chan x putlin).next a = desk.next a := by
    unfold say
    dsimp only
    split
    · exact ⟨rfl, Function.update_of_ne elsewhere _ _⟩
    · exact ⟨rfl, rfl⟩
  have again : (desk.sayAgain arith chan x putlin).sums a = desk.sums a ∧
      (desk.sayAgain arith chan x putlin).next a = desk.next a := by
    unfold sayAgain
    dsimp only
    split
    · exact ⟨Function.update_of_ne elsewhere _ _, rfl⟩
    · exact ⟨rfl, rfl⟩
  unfold putMode
  dsimp only
  split
  · exact said
  · split
    · exact ⟨rfl, rfl⟩
    · exact said
  · exact said
  · exact again
  · exact again
  · exact ⟨rfl, rfl⟩
  · split <;> exact ⟨rfl, rfl⟩

/-- An ordinary member that receives changes no row at all, and not what it has said. -/
theorem putMode_plain (arith : Arith) (pseudo : (desk.voices x).pseudo = true)
    (plain : chan.confmode.mode.isConf = true → chan.confmode.mode = .conf) (putlin : Chunk n) (rxb : Bytes n) :
    (desk.putMode arith chan x putlin rxb).1.sums = desk.sums ∧
      (desk.putMode arith chan x putlin rxb).1.next = desk.next ∧
      ((desk.putMode arith chan x putlin rxb).1.voices x).conflast = (desk.voices x).conflast := by
  unfold putMode
  dsimp only
  split
  next mode => exact absurd ((plain (mode ▸ rfl)).symm.trans mode) nofun
  · rw [if_pos pseudo, setVoice_self]
    exact ⟨rfl, rfl, rfl⟩
  next mode => exact absurd ((plain (mode ▸ rfl)).symm.trans mode) nofun
  next mode => exact absurd ((plain (mode ▸ rfl)).symm.trans mode) nofun
  next mode => exact absurd ((plain (mode ▸ rfl)).symm.trans mode) nofun
  · exact ⟨rfl, rfl, rfl⟩
  · split <;> exact ⟨rfl, rfl, rfl⟩

/-- Where it is, what it receives does not matter for row `a`. -/
theorem putaudio_plain (pseudo : (desk.voices x).pseudo = true)
    (plain : chan.confn = a → chan.confmode.mode.isConf = true → chan.confmode.mode = .conf)
    (rxb : Bytes n) (t : Fin n) :
    (desk.putaudio arith chan x rxb).1.sums a = desk.sums a ∧
      (desk.putaudio arith chan x rxb).1.next a = desk.next a ∧
      part chan a t ((desk.putaudio arith chan x rxb).1.voices x) = part chan a t (desk.voices x) := by
  obtain ⟨taken, last⟩ := take_handles arith x rxb desk
  have pseudo' := taken.kept.pseudo.trans pseudo
  have eq : desk.putaudio arith chan x rxb
      = (desk.take x rxb).1.putMode arith chan x (desk.take x rxb).2.1 (desk.take x rxb).2.2 :=
    if_pos (Or.inr pseudo')
  by_cases inside : chan.confn = a
  · obtain ⟨sums, next, same⟩ := putMode_plain arith pseudo' (plain inside) (desk.take x rxb).2.1
      (desk.take x rxb).2.2
    have after := (putaudio_handles arith chan x rxb desk).kept.pseudo.trans pseudo
    have speaks : chan.speaks ((desk.putaudio arith chan x rxb).1.voices x)
        = chan.speaks (desk.voices x) := by
      rw [Bool.eq_iff_iff, speaks_pseudo after, speaks_pseudo pseudo]
    unfold part
    rw [speaks, eq, sums, next, same, last]
    exact ⟨rfl, rfl, rfl⟩
  · obtain ⟨sums, next⟩ := putMode_elsewhere arith (Ne.symm inside) x (desk.take x rxb).2.1
      (desk.take x rxb).2.2 (desk.take x rxb).1
    rw [part_of_ne inside, part_of_ne inside, eq, sums, next]
    exact ⟨rfl, rfl, rfl⟩

/-- **A pseudo channel hears its row**, less what its process has said. -/
theorem putaudio_heard (pseudo : (desk.voices x).pseudo = true) (listener : chan.confmode.listener = true)
    (mode : chan.confmode.mode = .conf) (rxb : Bytes n) (t : Fin n) :
    (desk.putaudio arith chan x rxb).2 t = (desk.voices x).law.lin2x
      (arith.hear (desk.take x rxb).2.1 (desk.voices x).conflast (desk.sums chan.confn) t) := by
  obtain ⟨taken, last⟩ := take_handles arith x rxb desk
  unfold putaudio
  dsimp only
  rw [if_pos (Or.inr (taken.kept.pseudo.trans pseudo))]
  unfold putMode
  dsimp only
  rw [mode, if_pos (taken.kept.pseudo.trans pseudo), if_pos listener, last, taken.kept.law]
  rfl

end Desk

end

end Baps.Zaptel
