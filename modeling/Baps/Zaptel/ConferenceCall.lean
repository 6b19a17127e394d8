/-
**What a conference hears.**

After a tick, the row of a conference is what was left in it and the sum of what its channels have said, of each
as much as got in. So a channel that subtracts what it has said itself hears all others, and itself not at all,
however loud the sum has become.

* `Desk.tick_sums` — **a row is a sum** over all channels;
* `Desk.tick_line`, `Desk.tick_reader` — **what is heard**, on a line and by a process;
* `Desk.tick_exact` — nothing is lost where the channels are not too loud together;
* `Desk.tick_next` — what is left for the next tick.
-/

import Baps.Zaptel.Speaking

namespace Baps.Zaptel

open Baps.Signal (Rails Tallies foldl_others foldl_once)
open Finset

namespace Desk

section

variable {n : Nat} {arith : Arith} {confs : Confs} {chan : ConfChan} {x y a : Nat} {t : Fin n}
variable {desk desk' : Desk n} {sounds : Sounds n} {links : List (Nat × Nat)}

/-! ### Steps -/

/-- What a channel is set to stays, whichever the step is for. -/
theorem Handles.settings (handles : Handles arith x desk desk') (y : Nat) :
    Kept (desk.voices y) (desk'.voices y) := by
  by_cases same : y = x
  · rw [same]
    exact handles.kept
  · rw [handles.others y same]
    exact Kept.refl _

theorem getbuf_handles (arith : Arith) (sounds : Sounds n) (x : Nat) (desk : Desk n) :
    Handles arith x desk (desk.getbuf sounds x) := Handles.setVoice ⟨rfl, rfl, rfl, rfl, rfl⟩

theorem receiveReal_handles (arith : Arith) (confs : Confs) (sounds : Sounds n) (desk : Desk n) (x : Nat) :
    Handles arith x desk (desk.receiveReal arith confs sounds x) := by
  unfold receiveReal
  split
  · exact Handles.refl x desk
  · split
    · exact (putaudio_handles arith _ x _ desk).trans (Handles.toReader x _ _)
    · exact Handles.refl x desk

theorem transmitPseudo_handles (arith : Arith) (confs : Confs) (sounds : Sounds n) (desk : Desk n) (x : Nat) :
    Handles arith x desk (desk.transmitPseudo arith confs sounds x) := by
  unfold transmitPseudo
  split
  · exact Handles.refl x desk
  · split
    · dsimp only
      split
      · exact (getbuf_handles arith sounds x desk).trans (getaudio_handles arith confs _ x _ _)
      · exact getbuf_handles arith sounds x desk
    · exact Handles.refl x desk

theorem receivePseudo_handles (arith : Arith) (confs : Confs) (sounds : Sounds n) (desk : Desk n) (x : Nat) :
    Handles arith x desk (desk.receivePseudo arith confs sounds x) := by
  unfold receivePseudo
  split
  · exact Handles.refl x desk
  · split
    · dsimp only
      split
      · exact (putaudio_handles arith _ x _ desk).trans (Handles.toReader x _ _)
      · exact Handles.toReader x desk _
    · exact Handles.refl x desk

theorem transmitReal_handles (arith : Arith) (confs : Confs) (sounds : Sounds n) (desk : Desk n) (x : Nat) :
    Handles arith x desk (desk.transmitReal arith confs sounds x) := by
  unfold transmitReal
  split
  · exact Handles.refl x desk
  · split
    · exact ((getbuf_handles arith sounds x desk).trans (getaudio_handles arith confs _ x _ _)).trans
        (Handles.toLine x _ _)
    · exact Handles.refl x desk

/-! ### The row of a conference -/

/-- What row `a` has of channel `x`. -/
def said (confs : Confs) (a : Nat) (t : Fin n) (desk : Desk n) (x : Nat) : Int :=
  match confs.chans x with
  | none => 0
  | some chan => part chan a t (desk.voices x)

/-- It depends on the channel alone. -/
theorem said_congr (same : desk'.voices x = desk.voices x) (confs : Confs) (a : Nat) (t : Fin n) :
    said confs a t desk' x = said confs a t desk x := by
  unfold said
  rw [same]

/-- It depends on little of the channel. -/
theorem said_of_same (pseudo : (desk'.voices x).pseudo = (desk.voices x).pseudo)
    (mute : (desk'.voices x).confmute = (desk.voices x).confmute)
    (last : (desk'.voices x).conflast = (desk.voices x).conflast)
    (timer : (desk'.voices x).afterdialingtimer = (desk.voices x).afterdialingtimer) (confs : Confs) (a : Nat)
    (t : Fin n) : said confs a t desk' x = said confs a t desk x := by
  unfold said
  cases confs.chans x with
  | none => rfl
  | some chan =>
    unfold part ConfChan.speaks
    dsimp only
    rw [pseudo, mute, last, timer]

theorem part_zero {chan : ConfChan} (none : chan.confmode = .zero) (a : Nat) (t : Fin n) (ms : Voice n) :
    part chan a t ms = 0 := by
  apply part_of_not_speaks
  unfold ConfChan.speaks ConfChan.talks
  rw [none]
  exact decide_eq_false fun both => Bool.false_ne_true (of_decide_eq_true both.1).1

/-- A step for a channel that is not there, or not of a span, or in no conference. -/
theorem receiveReal_idle (idle : ∀ chan, confs.chans x = some chan →
    ¬ (chan.confmode ≠ .zero ∧ ¬ (desk.voices x).pseudo = true)) :
    desk.receiveReal arith confs sounds x = desk := by
  unfold receiveReal
  cases known : confs.chans x with
  | none => rfl
  | some chan => exact if_neg (idle chan known)

theorem receiveReal_real (arith : Arith) (sounds : Sounds n) (known : confs.chans x = some chan)
    (real : chan.confmode ≠ .zero ∧ ¬ (desk.voices x).pseudo = true) :
    ∃ toReader, desk.receiveReal arith confs sounds x
      = { (desk.putaudio arith chan x ((sounds.received x).getD (desk.voices x).silence)).1 with toReader } := by
  unfold receiveReal
  rw [known]
  exact ⟨_, if_pos real⟩

theorem said_of_known (known : confs.chans x = some chan) (a : Nat) (t : Fin n) (desk : Desk n) :
    said confs a t desk x = part chan a t (desk.voices x) := by
  unfold said
  rw [known]

/-- A channel in no conference says nothing there. -/
theorem said_zero (idle : ∀ chan, confs.chans x = some chan → chan.confmode = .zero) (a : Nat) (t : Fin n)
    (desk : Desk n) : said confs a t desk x = 0 := by
  unfold said
  cases known : confs.chans x with
  | none => rfl
  | some chan => exact part_zero (idle chan known) a t _

/-- The channels of spans speak to the next sums. -/
theorem receive_tallies (confs : Confs) (sounds : Sounds n) (a : Nat) (t : Fin n) :
    Tallies (receiveReal arith confs sounds) (Bounded arith) (fun desk => desk.next a t)
      fun desk x => if (desk.voices x).pseudo then 0 else said confs a t desk x where
  keeps_good desk x := (receiveReal_handles arith confs sounds desk x).bounded
  grows desk x bounded := by
    by_cases real : ∃ chan, confs.chans x = some chan ∧ chan.confmode ≠ .zero ∧ ¬ (desk.voices x).pseudo = true
    · obtain ⟨chan, known, real⟩ := real
      obtain ⟨toReader, eq⟩ := receiveReal_real arith sounds known real
      have pseudo := (receiveReal_handles arith confs sounds desk x).kept.pseudo
      obtain ⟨row, -⟩ := putaudio_next bounded (eq_false_of_ne_true real.2) chan
        ((sounds.received x).getD (desk.voices x).silence) a t
      rw [pseudo, if_neg real.2, said_of_known known, eq]
      exact row
    · have idle : ∀ chan, confs.chans x = some chan →
          ¬ (chan.confmode ≠ .zero ∧ ¬ (desk.voices x).pseudo = true) := fun chan known both =>
        real ⟨chan, known, both⟩
      rw [receiveReal_idle idle]
      by_cases pseudo : (desk.voices x).pseudo = true
      · rw [if_pos pseudo, add_zero]
      · rw [said_zero fun chan known => not_not.mp fun some => idle chan known ⟨some, pseudo⟩, ite_self, add_zero]
  keeps desk x y other := by
    have same := (receiveReal_handles arith confs sounds desk x).others y other
    rw [same, said_congr same]

/-- A step for a channel that is not there, or of a span. -/
theorem transmitPseudo_idle (idle : ∀ chan, confs.chans x = some chan → ¬ (desk.voices x).pseudo = true) :
    desk.transmitPseudo arith confs sounds x = desk := by
  unfold transmitPseudo
  cases known : confs.chans x with
  | none => rfl
  | some chan => exact if_neg (idle chan known)

theorem transmitPseudo_pseudo (known : confs.chans x = some chan) (pseudo : (desk.voices x).pseudo = true)
    (some : chan.confmode ≠ .zero) : desk.transmitPseudo arith confs sounds x
      = ((desk.getbuf sounds x).getaudio arith confs chan x (sounds.written x).bytes).1 := by
  unfold transmitPseudo
  rw [known]
  dsimp only
  rw [if_pos pseudo, if_pos (Or.inr some)]

/-- In no conference, it changes no sums. -/
theorem transmitPseudo_zero (arith : Arith) (known : confs.chans x = some chan) (none : chan.confmode = .zero)
    (sounds : Sounds n) (desk : Desk n) : (desk.transmitPseudo arith confs sounds x).sums = desk.sums := by
  have still (txb : Bytes n) (desk : Desk n) : (desk.getaudio arith confs chan x txb).1.sums = desk.sums := by
    show (desk.getOpen arith confs chan x txb).1.sums = desk.sums
    unfold getOpen
    dsimp only
    split
    · unfold getMode
      rw [none]
      dsimp only [Confmode.zero]
      split <;> rfl
    · rfl
  unfold transmitPseudo
  rw [known]
  dsimp only
  split
  · split
    · exact still _ _
    · rfl
  · rfl

/-- Pseudo channels speak to the sums. -/
theorem transmit_tallies (confs : Confs) (sounds : Sounds n) (a : Nat) (t : Fin n) :
    Tallies (transmitPseudo arith confs sounds) (Bounded arith) (fun desk => desk.sums a t)
      fun desk x => if (desk.voices x).pseudo then said confs a t desk x else 0 where
  keeps_good desk x := (transmitPseudo_handles arith confs sounds desk x).bounded
  grows desk x bounded := by
    have handles := transmitPseudo_handles arith confs sounds desk x
    rw [handles.kept.pseudo]
    by_cases pseudo : (desk.voices x).pseudo = true
    · rw [if_pos pseudo]
      cases known : confs.chans x with
      | none =>
        rw [transmitPseudo_idle fun chan some => absurd (known.symm.trans some) nofun]
        rw [said_zero fun chan some => absurd (known.symm.trans some) nofun, add_zero]
      | some chan =>
        rw [said_of_known known]
        by_cases none : chan.confmode = .zero
        · rw [transmitPseudo_zero arith known none, part_zero none, add_zero]
        · have written := getbuf_handles arith sounds x desk
          obtain ⟨row, -⟩ := getaudio_sums (written.bounded bounded) (written.kept.pseudo.trans pseudo) confs chan
            (sounds.written x).bytes a t
          rw [transmitPseudo_pseudo known pseudo none]
          exact row
    · rw [if_neg pseudo, transmitPseudo_idle fun _ _ => pseudo, add_zero]
  keeps desk x y other := by
    have same := (transmitPseudo_handles arith confs sounds desk x).others y other
    rw [same, said_congr same]

/-! ### Stages of a tick -/

/-- What a stage leaves as it was. -/
structure Stage (arith : Arith) (desk desk' : Desk n) : Prop where
  kept : ∀ y, Kept (desk.voices y) (desk'.voices y)
  bounded : desk.Bounded arith → desk'.Bounded arith

theorem Stage.refl (desk : Desk n) : Stage arith desk desk := ⟨fun _ => Kept.refl _, id⟩

theorem Stage.trans {desk₁ desk₂ desk₃ : Desk n} (first : Stage arith desk₁ desk₂)
    (second : Stage arith desk₂ desk₃) : Stage arith desk₁ desk₃ where
  kept y := (first.kept y).trans (second.kept y)
  bounded := second.bounded ∘ first.bounded

/-- A stage goes over some channels. -/
theorem Stage.foldl {step : Desk n → Nat → Desk n} (handles : ∀ desk x, Handles arith x desk (step desk x))
    (desk : Desk n) (xs : List Nat) : Stage arith desk (xs.foldl step desk) := by
  induction xs generalizing desk with
  | nil => exact Stage.refl desk
  | cons x xs ih => exact Stage.trans ⟨(handles desk x).settings, (handles desk x).bounded⟩ (ih (step desk x))

theorem Stage.rotateSums (confs : Confs) (desk : Desk n) : Stage arith desk (desk.rotateSums confs) where
  kept _ := Kept.refl _
  bounded bounded := by
    refine ⟨bounded.law, bounded.sums, bounded.next, fun a t => ?_⟩
    show arith.rails.Fits ((if a < confs.maxconfs then 0 else desk.prev a) t)
    split
    · exact arith.rails.zero_fits
    · exact bounded.prev a t

/-- Links change no channel, no sums for the next tick, and no row that none of them goes to. -/
theorem link_keeps (arith : Arith) (confs : Confs) (desk : Desk n) (links : List (Nat × Nat)) :
    (links.foldl (link arith confs) desk).voices = desk.voices ∧
      (links.foldl (link arith confs) desk).next = desk.next ∧
      (desk.Bounded arith → (links.foldl (link arith confs) desk).Bounded arith) ∧
      ((∀ link ∈ links, confs.confalias link.2 ≠ a) →
        (links.foldl (link arith confs) desk).sums a = desk.sums a) := by
  induction links generalizing desk with
  | nil => exact ⟨rfl, rfl, id, fun _ => rfl⟩
  | cons first links ih =>
    obtain ⟨voices, next, bounded, sums⟩ := ih (desk.link arith confs first)
    have one : (desk.link arith confs first).voices = desk.voices ∧
        (desk.link arith confs first).next = desk.next ∧
        (desk.Bounded arith → (desk.link arith confs first).Bounded arith) ∧
        (confs.confalias first.2 ≠ a → (desk.link arith confs first).sums a = desk.sums a) := by
      unfold link
      dsimp only
      split
      · refine ⟨rfl, rfl, ?_, fun elsewhere => Function.update_of_ne (Ne.symm elsewhere) _ _⟩
        exact @Handles.bounded _ arith 0 _ _ (Handles.setSums (acss_fits _ _))
      · exact ⟨rfl, rfl, id, fun _ => rfl⟩
    refine ⟨voices.trans one.1, next.trans one.2.1, bounded ∘ one.2.2.1, fun unlinked => ?_⟩
    rw [List.foldl_cons, sums fun link among => unlinked link (List.mem_cons_of_mem first among)]
    exact one.2.2.2 (unlinked first List.mem_cons_self)

/-- Channels of spans that receive leave pseudo channels alone. -/
theorem receive_pseudo (arith : Arith) (confs : Confs) (sounds : Sounds n) (desk : Desk n) (xs : List Nat)
    (pseudo : (desk.voices y).pseudo = true) :
    (xs.foldl (receiveReal arith confs sounds) desk).voices y = desk.voices y := by
  refine List.foldlRecOn (motive := fun now : Desk n => now.voices y = desk.voices y) xs _ rfl
    fun now same x _ => ?_
  by_cases own : y = x
  · rw [receiveReal_idle fun chan _ both => both.2 (by rw [← own, same]; exact pseudo), same]
  · rw [(receiveReal_handles arith confs sounds now x).others y own, same]

/-- Pseudo channels that are sent to leave channels of spans alone. -/
theorem transmit_real (arith : Arith) (confs : Confs) (sounds : Sounds n) (desk : Desk n) (xs : List Nat)
    (real : (desk.voices y).pseudo = false) :
    (xs.foldl (transmitPseudo arith confs sounds) desk).voices y = desk.voices y := by
  refine List.foldlRecOn (motive := fun now : Desk n => now.voices y = desk.voices y) xs _ rfl
    fun now same x _ => ?_
  by_cases own : y = x
  · rw [transmitPseudo_idle fun chan _ => (by rw [← own, same]; exact ne_true_of_eq_false real), same]
  · rw [(transmitPseudo_handles arith confs sounds now x).others y own, same]

/-- Pseudo channels that receive leave row `a` alone, where they are ordinary members of it. -/
theorem receivePseudo_keeps (plain : Plain confs a desk) (sounds : Sounds n) (x : Nat) (t : Fin n) :
    (desk.receivePseudo arith confs sounds x).sums a = desk.sums a ∧
      (desk.receivePseudo arith confs sounds x).next a = desk.next a ∧
      ∀ y, said confs a t (desk.receivePseudo arith confs sounds x) y = said confs a t desk y := by
  have others (y : Nat) (other : y ≠ x) :
      said confs a t (desk.receivePseudo arith confs sounds x) y = said confs a t desk y :=
    said_congr ((receivePseudo_handles arith confs sounds desk x).others y other) confs a t
  suffices own : (desk.receivePseudo arith confs sounds x).sums a = desk.sums a ∧
      (desk.receivePseudo arith confs sounds x).next a = desk.next a ∧
      said confs a t (desk.receivePseudo arith confs sounds x) x = said confs a t desk x by
    refine ⟨own.1, own.2.1, fun y => ?_⟩
    by_cases same : y = x
    · rw [same, own.2.2]
    · exact others y same
  unfold said receivePseudo
  cases known : confs.chans x with
  | none => exact ⟨rfl, rfl, rfl⟩
  | some chan =>
    dsimp only
    by_cases pseudo : (desk.voices x).pseudo = true
    · rw [if_pos pseudo]
      split
      · exact putaudio_plain pseudo (plain x chan known pseudo) (sounds.empty x) t
      · exact ⟨rfl, rfl, rfl⟩
    · rw [if_neg pseudo]
      exact ⟨rfl, rfl, rfl⟩

/-- A channel of a span that is sent to: all sums of the tick stay, and what it has said, and row `a` of the next
sums where it announces nothing there. -/
theorem transmitReal_own (arith : Arith) (confs : Confs) (sounds : Sounds n) (desk : Desk n) (x : Nat) :
    (desk.transmitReal arith confs sounds x).sums = desk.sums ∧
      ((desk.transmitReal arith confs sounds x).voices x).conflast = (desk.voices x).conflast ∧
      ((desk.transmitReal arith confs sounds x).voices x).afterdialingtimer
        = (desk.voices x).afterdialingtimer ∧
      ((∀ chan, confs.chans x = some chan → chan.confn = a → announces chan = false) →
        (desk.transmitReal arith confs sounds x).next a = desk.next a) := by
  unfold transmitReal
  cases known : confs.chans x with
  | none => exact ⟨rfl, rfl, rfl, fun _ => rfl⟩
  | some chan =>
    dsimp only
    by_cases real : chan.confmode ≠ .zero ∧ ¬ (desk.voices x).pseudo = true
    · rw [if_pos real]
      have written := getbuf_handles arith sounds x desk
      obtain ⟨sums, last, timer⟩ := getaudio_real (written.kept.pseudo.trans (eq_false_of_ne_true real.2)) confs
        chan (sounds.written x).bytes
      have last' : ((desk.getbuf sounds x).voices x).conflast = (desk.voices x).conflast := by
        unfold getbuf
        rw [setVoice_self]
      have timer' : ((desk.getbuf sounds x).voices x).afterdialingtimer = (desk.voices x).afterdialingtimer := by
        unfold getbuf
        rw [setVoice_self]
      exact ⟨sums, last.trans last', timer.trans timer', fun quiet =>
        getaudio_next (quiet chan rfl) confs x _ _⟩
    · rw [if_neg real]
      exact ⟨rfl, rfl, rfl, fun _ => rfl⟩

/-- No channel has said anything else then. -/
theorem transmitReal_said (arith : Arith) (confs : Confs) (sounds : Sounds n) (desk : Desk n) (x a : Nat)
    (t : Fin n) (y : Nat) :
    said confs a t (desk.transmitReal arith confs sounds x) y = said confs a t desk y := by
  have handles := transmitReal_handles arith confs sounds desk x
  by_cases same : y = x
  · obtain ⟨-, last, timer, -⟩ := @transmitReal_own n a arith confs sounds desk x
    rw [same]
    exact said_of_same handles.kept.pseudo handles.kept.confmute last timer confs a t
  · exact said_congr (handles.others y same) confs a t

/-! ### A tick -/

/-- The channels of a tick. -/
theorem rows_eq (confs : Confs) : Ico 1 (confs.maxchans - 1 + 1) = Ico 1 confs.maxchans := by
  ext x
  rw [mem_Ico, mem_Ico]
  omega

/-- What the channels of spans and the pseudo channels have said, together. -/
theorem sum_said {early : Desk n} (flags : ∀ y, (desk.voices y).pseudo = (early.voices y).pseudo)
    (real : ∀ y, (early.voices y).pseudo = false → desk.voices y = early.voices y) (confs : Confs) (a : Nat)
    (t : Fin n) (xs : Finset Nat) :
    (∑ x ∈ xs, if (early.voices x).pseudo then 0 else said confs a t early x) +
      (∑ x ∈ xs, if (desk.voices x).pseudo then said confs a t desk x else 0)
        = ∑ x ∈ xs, said confs a t desk x := by
  rw [← sum_add_distrib]
  refine sum_congr rfl fun x _ => ?_
  rw [flags x]
  by_cases pseudo : (early.voices x).pseudo = true
  · rw [if_pos pseudo, if_pos pseudo, zero_add]
  · rw [if_neg pseudo, if_neg pseudo, add_zero, said_congr (real x (eq_false_of_ne_true pseudo))]

/-- All channels have spoken. -/
def spoken (arith : Arith) (confs : Confs) (sounds : Sounds n) (desk : Desk n) : Desk n :=
  (channels confs).foldl (transmitPseudo arith confs sounds)
    (((channels confs).foldl (receiveReal arith confs sounds) desk).rotateSums confs)

theorem spoken_stage (arith : Arith) (confs : Confs) (sounds : Sounds n) (desk : Desk n) :
    Stage arith desk (desk.spoken arith confs sounds) :=
  ((Stage.foldl (receiveReal_handles arith confs sounds) desk (channels confs)).trans
    (Stage.rotateSums confs _)).trans (Stage.foldl (transmitPseudo_handles arith confs sounds) _ (channels confs))

/-- **All channels speak**, and the row of a conference is the sum of what they have said. -/
theorem spoken_sums (bounded : desk.Bounded arith) (confs : Confs) (sounds : Sounds n) (a : Nat) (t : Fin n) :
    (desk.spoken arith confs sounds).sums a t
      = desk.next a t + ∑ x ∈ Ico 1 confs.maxchans, said confs a t (desk.spoken arith confs sounds) x := by
  have received := Stage.foldl (receiveReal_handles arith confs sounds) desk (channels confs)
  have rotated := received.trans (Stage.rotateSums confs _)
  have sent := Stage.foldl (transmitPseudo_handles arith confs sounds)
    (((channels confs).foldl (receiveReal arith confs sounds) desk).rotateSums confs) (channels confs)
  have first := (receive_tallies confs sounds a t).run bounded (confs.maxchans - 1)
  have second := (transmit_tallies confs sounds a t).run (rotated.bounded bounded) (confs.maxchans - 1)
  rw [rows_eq] at first second
  have both := @sum_said n (desk.spoken arith confs sounds)
    ((channels confs).foldl (receiveReal arith confs sounds) desk) (fun y => (sent.kept y).pseudo)
    (fun y real => transmit_real arith confs sounds _ (channels confs) real) confs a t (Ico 1 confs.maxchans)
  calc (desk.spoken arith confs sounds).sums a t
      = ((channels confs).foldl (receiveReal arith confs sounds) desk).next a t + _ := second
    _ = _ := by rw [show ((channels confs).foldl (receiveReal arith confs sounds) desk).next a t = _ from first,
      add_assoc, ← both]; rfl

/-- The links are made, and pseudo channels receive. -/
def linked (arith : Arith) (confs : Confs) (links : List (Nat × Nat)) (sounds : Sounds n) (desk : Desk n) :
    Desk n :=
  (channels confs).foldl (receivePseudo arith confs sounds)
    (links.foldl (link arith confs) (desk.spoken arith confs sounds))

theorem tick_eq (arith : Arith) (confs : Confs) (links : List (Nat × Nat)) (sounds : Sounds n) (desk : Desk n) :
    desk.tick arith confs links sounds = (channels confs).foldl (transmitReal arith confs sounds)
      (desk.linked arith confs links sounds) := rfl

theorem linked_stage (arith : Arith) (confs : Confs) (links : List (Nat × Nat)) (sounds : Sounds n)
    (desk : Desk n) : Stage arith desk (desk.linked arith confs links sounds) := by
  obtain ⟨voices, -, bounded, -⟩ := @link_keeps n 0 arith confs (desk.spoken arith confs sounds) links
  refine ((spoken_stage arith confs sounds desk).trans ⟨fun y => ?_, bounded⟩).trans
    (Stage.foldl (receivePseudo_handles arith confs sounds) _ (channels confs))
  rw [voices]
  exact Kept.refl _

/-- Members of row `a` stay ordinary. -/
theorem Stage.plain (stage : Stage arith desk desk') (plain : Plain confs a desk) : Plain confs a desk' :=
  fun x chan known pseudo => plain x chan known ((stage.kept x).pseudo.symm.trans pseudo)

/-- Pseudo channels that receive leave a row alone of which they are ordinary members. -/
theorem receive_keeps (plain : Plain confs a desk) (sounds : Sounds n) (xs : List Nat) (t : Fin n) :
    (xs.foldl (receivePseudo arith confs sounds) desk).sums a = desk.sums a ∧
      (xs.foldl (receivePseudo arith confs sounds) desk).next a = desk.next a ∧
      ∀ y, said confs a t (xs.foldl (receivePseudo arith confs sounds) desk) y = said confs a t desk y := by
  induction xs generalizing desk with
  | nil => exact ⟨rfl, rfl, fun _ => rfl⟩
  | cons x xs ih =>
    have one := @receivePseudo_keeps n arith confs a desk plain sounds x t
    have handles := receivePseudo_handles arith confs sounds desk x
    obtain ⟨sums, next, same⟩ := ih (Stage.plain ⟨handles.settings, handles.bounded⟩ plain)
    exact ⟨sums.trans one.1, next.trans one.2.1, fun y => (same y).trans (one.2.2 y)⟩

/-- Channels of spans that are sent to leave the sums alone. -/
theorem transmit_keeps (arith : Arith) (confs : Confs) (sounds : Sounds n) (desk : Desk n) (xs : List Nat)
    (t : Fin n) :
    (xs.foldl (transmitReal arith confs sounds) desk).sums = desk.sums ∧
      (∀ y, said confs a t (xs.foldl (transmitReal arith confs sounds) desk) y = said confs a t desk y) ∧
      ((∀ x chan, confs.chans x = some chan → chan.confn = a → announces chan = false) →
        (xs.foldl (transmitReal arith confs sounds) desk).next a = desk.next a) := by
  induction xs generalizing desk with
  | nil => exact ⟨rfl, fun _ => rfl, fun _ => rfl⟩
  | cons x xs ih =>
    obtain ⟨sums, same, next⟩ := ih (desk.transmitReal arith confs sounds x)
    obtain ⟨sums', -, -, next'⟩ := @transmitReal_own n a arith confs sounds desk x
    refine ⟨sums.trans sums', fun y => (same y).trans (transmitReal_said arith confs sounds desk x a t y),
      fun quiet => (next quiet).trans (next' (quiet x))⟩

/-- What the links and the second half of a tick leave said. -/
theorem tick_said (plain : Plain confs a desk) (links : List (Nat × Nat)) (sounds : Sounds n) (t : Fin n)
    (x : Nat) : said confs a t (desk.tick arith confs links sounds) x
      = said confs a t (desk.spoken arith confs sounds) x := by
  have stage := spoken_stage arith confs sounds desk
  obtain ⟨voices, -, -, -⟩ := @link_keeps n a arith confs (desk.spoken arith confs sounds) links
  have plain' : Plain confs a (links.foldl (link arith confs) (desk.spoken arith confs sounds)) := by
    intro x chan known pseudo
    rw [voices] at pseudo
    exact stage.plain plain x chan known pseudo
  obtain ⟨-, -, same⟩ := @receive_keeps n arith confs a _ plain' sounds (channels confs) t
  obtain ⟨-, same', -⟩ := @transmit_keeps n a arith confs sounds (desk.linked arith confs links sounds)
    (channels confs) t
  rw [tick_eq, same' x, linked, same x]
  exact said_congr (congrFun voices x) confs a t

/-- **The row of a conference is a sum** over all channels, of what each of them has said and got in. -/
theorem tick_sums (bounded : desk.Bounded arith) (plain : Plain confs a desk)
    (unlinked : ∀ link ∈ links, confs.confalias link.2 ≠ a) (sounds : Sounds n) (t : Fin n) :
    (desk.tick arith confs links sounds).sums a t = desk.next a t +
      ∑ x ∈ Ico 1 confs.maxchans, said confs a t (desk.tick arith confs links sounds) x := by
  have stage := spoken_stage arith confs sounds desk
  obtain ⟨voices, -, -, row⟩ := @link_keeps n a arith confs (desk.spoken arith confs sounds) links
  have plain' : Plain confs a (links.foldl (link arith confs) (desk.spoken arith confs sounds)) := by
    intro x chan known pseudo
    rw [voices] at pseudo
    exact stage.plain plain x chan known pseudo
  obtain ⟨sums, -, -⟩ := @receive_keeps n arith confs a _ plain' sounds (channels confs) t
  obtain ⟨sums', -, -⟩ := @transmit_keeps n a arith confs sounds (desk.linked arith confs links sounds)
    (channels confs) t
  rw [sum_congr rfl fun x _ => tick_said plain links sounds t x, ← spoken_sums bounded]
  rw [tick_eq, sums', linked, sums, row unlinked]

/-- **The next sums are silent** after a tick, where nobody in the conference announces anything. -/
theorem tick_next (plain : Plain confs a desk) (cleared : a < confs.maxconfs)
    (quiet : ∀ x chan, confs.chans x = some chan → chan.confn = a → announces chan = false)
    (links : List (Nat × Nat)) (sounds : Sounds n) : (desk.tick arith confs links sounds).next a = 0 := by
  have spoken : (desk.spoken arith confs sounds).next a = 0 := by
    refine List.foldlRecOn (motive := fun now : Desk n => now.next a = 0) (channels confs) _ (if_pos cleared)
      fun now silent x _ => ?_
    unfold transmitPseudo
    cases known : confs.chans x with
    | none => exact silent
    | some chan =>
      dsimp only
      split
      · split
        · rw [getaudio_next (quiet x chan known)]
          exact silent
        · exact silent
      · exact silent
  have stage := spoken_stage arith confs sounds desk
  obtain ⟨voices, next, -, -⟩ := @link_keeps n a arith confs (desk.spoken arith confs sounds) links
  have plain' : Plain confs a (links.foldl (link arith confs) (desk.spoken arith confs sounds)) := by
    intro x chan known pseudo
    rw [voices] at pseudo
    exact stage.plain plain x chan known pseudo
  funext t
  obtain ⟨-, next', -⟩ := @receive_keeps n arith confs a _ plain' sounds (channels confs) t
  obtain ⟨-, -, next''⟩ := @transmit_keeps n a arith confs sounds (desk.linked arith confs links sounds)
    (channels confs) t
  rw [tick_eq, next'' quiet, linked, next', next, spoken]

/-- A channel of the tick. -/
theorem mem_channels {i : Nat} (low : 1 ≤ i) (high : i < confs.maxchans) : i ∈ channels confs := by
  unfold channels
  rw [List.mem_range'_1]
  omega

/-- A channel of a span is sent what it hears. -/
theorem transmitReal_heard (known : confs.chans x = some chan) (real : (desk.voices x).pseudo = false)
    (heard : (desk.voices x).confmute = false) (idle : (sounds.written x).dialing = false)
    (listener : chan.confmode.listener = true)
    (mode : chan.confmode.mode = .conf ∨ chan.confmode.mode = .realandpseudo) (t : Fin n) :
    (desk.transmitReal arith confs sounds x).toLine x t = (desk.voices x).txgain ((desk.voices x).law.lin2x
        (arith.hear (offered chan ((desk.voices x).law.toLin (sounds.written x).bytes)) (desk.voices x).conflast
          (desk.sums chan.confn) t)) ∧
      ((desk.transmitReal arith confs sounds x).voices x).conflast = (desk.voices x).conflast := by
  have some : chan.confmode ≠ .zero := fun none => by
    rw [none] at mode
    exact absurd mode (by decide)
  have eq : (desk.getbuf sounds x).voices x = { desk.voices x with dialing := (sounds.written x).dialing } := by
    unfold getbuf
    rw [setVoice_self]
  have real' : ((desk.getbuf sounds x).voices x).pseudo = false := by rw [eq]; exact real
  obtain ⟨-, last, -⟩ := @getaudio_real n arith x _ real' confs chan (sounds.written x).bytes
  have sent := @getaudio_heard n arith chan x _ real' (by rw [eq]; exact heard) (by rw [eq]; exact idle) confs
    listener mode (sounds.written x).bytes t
  rw [eq] at last sent
  unfold transmitReal
  rw [known]
  dsimp only
  rw [if_pos ⟨some, ne_true_of_eq_false real⟩]
  exact ⟨(congrFun (Function.update_self x _ _) t).trans sent, last⟩

/-- **What a line hears**: the row of its conference, less what it has said itself. -/
theorem tick_line {i : Nat} (low : 1 ≤ i) (high : i < confs.maxchans) (known : confs.chans i = some chan)
    (real : (desk.voices i).pseudo = false) (heard : (desk.voices i).confmute = false)
    (idle : (sounds.written i).dialing = false) (listener : chan.confmode.listener = true)
    (mode : chan.confmode.mode = .conf ∨ chan.confmode.mode = .realandpseudo) (links : List (Nat × Nat))
    (t : Fin n) :
    (desk.tick arith confs links sounds).toLine i t = (desk.voices i).txgain ((desk.voices i).law.lin2x
      (arith.hear (offered chan ((desk.voices i).law.toLin (sounds.written i).bytes))
        ((desk.tick arith confs links sounds).voices i).conflast
        ((desk.tick arith confs links sounds).sums chan.confn) t)) := by
  have kept := (linked_stage arith confs links sounds desk).kept i
  rw [tick_eq]
  generalize desk.linked arith confs links sounds = now at kept ⊢
  rw [← kept.law, ← kept.txgain]
  have handles := transmitReal_handles arith confs sounds
  have sums (s : Desk n) (x : Nat) : (s.transmitReal arith confs sounds x).sums = s.sums :=
    (@transmitReal_own n 0 arith confs sounds s x).1
  obtain ⟨sent, last, row⟩ := @foldl_once (Desk n) Nat (transmitReal arith confs sounds)
    (fun s => s.sums = now.sums ∧ s.voices i = now.voices i)
    (fun s => s.toLine i t = (now.voices i).txgain ((now.voices i).law.lin2x
      (arith.hear (offered chan ((now.voices i).law.toLin (sounds.written i).bytes)) (now.voices i).conflast
        (now.sums chan.confn) t)) ∧ (s.voices i).conflast = (now.voices i).conflast ∧ s.sums = now.sums)
    i (channels confs) List.nodup_range' (mem_channels low high)
    (fun s x other ready => ⟨(sums s x).trans ready.1, ((handles s x).others i (Ne.symm other)).trans ready.2⟩)
    (fun s ready => by
      have one := @transmitReal_heard n arith confs chan i s sounds known
        (by rw [ready.2]; exact kept.pseudo.trans real) (by rw [ready.2]; exact kept.confmute.trans heard) idle
        listener mode t
      rw [ready.1, ready.2] at one
      exact ⟨one.1, one.2, (sums s i).trans ready.1⟩)
    (fun s x other done => ⟨(congrFun ((handles s x).handed i (Ne.symm other)).2 t).trans done.1,
      (congrArg Voice.conflast ((handles s x).others i (Ne.symm other))).trans done.2.1,
      (sums s x).trans done.2.2⟩)
    now ⟨rfl, rfl⟩
  rw [sent, ← last, ← row]

/-- What a pseudo channel has said stays while it receives. -/
theorem receivePseudo_last (arith : Arith) (known : confs.chans x = some chan)
    (pseudo : (desk.voices x).pseudo = true) (mode : chan.confmode.mode = .conf) (sounds : Sounds n) :
    ((desk.receivePseudo arith confs sounds x).voices x).conflast = (desk.voices x).conflast := by
  obtain ⟨taken, last⟩ := take_handles arith x (sounds.empty x) desk
  have pseudo' := taken.kept.pseudo.trans pseudo
  obtain ⟨-, -, last'⟩ := putMode_plain arith pseudo' (fun _ => mode) (desk.take x (sounds.empty x)).2.1
    (desk.take x (sounds.empty x)).2.2
  unfold receivePseudo
  rw [known]
  dsimp only
  rw [if_pos pseudo]
  split
  · show ((desk.putaudio arith chan x (sounds.empty x)).1.voices x).conflast = _
    unfold putaudio
    dsimp only
    rw [if_pos (Or.inr pseudo'), last', last]
  · rfl

/-- A pseudo channel is handed what it hears. -/
theorem receivePseudo_heard (arith : Arith) (known : confs.chans x = some chan)
    (pseudo : (desk.voices x).pseudo = true) (listener : chan.confmode.listener = true)
    (mode : chan.confmode.mode = .conf) (sounds : Sounds n) (t : Fin n) :
    (desk.receivePseudo arith confs sounds x).toReader x t = (desk.voices x).law.lin2x
      (arith.hear ((desk.voices x).law.toLin fun y => (desk.voices x).rxgain (sounds.empty x y))
        (desk.voices x).conflast (desk.sums chan.confn) t) := by
  have some : chan.confmode ≠ .zero := fun none => by
    rw [none] at mode
    exact absurd mode nofun
  have heard := @putaudio_heard n arith chan x desk pseudo listener mode (sounds.empty x) t
  -- a pseudo channel never receives silence for its dialling
  have gained : (desk.take x (sounds.empty x)).2.1
      = (desk.voices x).law.toLin fun y => (desk.voices x).rxgain (sounds.empty x y) := by
    show (desk.voices x).law.toLin ((desk.voices x).dialed.gained (sounds.empty x)) = _
    unfold Voice.gained
    rw [if_neg fun both => both.2 pseudo]
    rfl
  rw [gained] at heard
  unfold receivePseudo
  rw [known]
  dsimp only
  rw [if_pos pseudo, if_pos (Or.inr some)]
  exact (congrFun (Function.update_self x _ _) t).trans heard

/-- Channels of spans that are sent to leave pseudo channels alone. -/
theorem transmit_pseudo (arith : Arith) (confs : Confs) (sounds : Sounds n) (desk : Desk n) (xs : List Nat)
    (pseudo : (desk.voices y).pseudo = true) :
    (xs.foldl (transmitReal arith confs sounds) desk).voices y = desk.voices y ∧
      (xs.foldl (transmitReal arith confs sounds) desk).toReader y = desk.toReader y := by
  refine List.foldlRecOn (motive := fun now : Desk n => now.voices y = desk.voices y ∧
    now.toReader y = desk.toReader y) xs _ ⟨rfl, rfl⟩ fun now same x _ => ?_
  by_cases own : y = x
  · have idle : now.transmitReal arith confs sounds x = now := by
      unfold transmitReal
      cases known : confs.chans x with
      | none => rfl
      | some chan => exact if_neg fun both => both.2 (by rw [← own, same.1]; exact pseudo)
    rw [idle]
    exact same
  · have handles := transmitReal_handles arith confs sounds now x
    exact ⟨(handles.others y own).trans same.1, (handles.handed y own).1.trans same.2⟩

/-- **What a process hears** on a pseudo channel: the row of its conference, less what it has said itself. -/
theorem tick_reader {i : Nat} (plain : Plain confs chan.confn desk) (low : 1 ≤ i) (high : i < confs.maxchans)
    (known : confs.chans i = some chan) (pseudo : (desk.voices i).pseudo = true)
    (listener : chan.confmode.listener = true) (mode : chan.confmode.mode = .conf) (links : List (Nat × Nat))
    (sounds : Sounds n) (t : Fin n) :
    (desk.tick arith confs links sounds).toReader i t = (desk.voices i).law.lin2x
      (arith.hear ((desk.voices i).law.toLin fun y => (desk.voices i).rxgain (sounds.empty i y))
        ((desk.tick arith confs links sounds).voices i).conflast
        ((desk.tick arith confs links sounds).sums chan.confn) t) := by
  have spoke := spoken_stage arith confs sounds desk
  obtain ⟨voices, -, bounded, -⟩ := @link_keeps n 0 arith confs (desk.spoken arith confs sounds) links
  have stage : Stage arith desk (links.foldl (link arith confs) (desk.spoken arith confs sounds)) :=
    spoke.trans ⟨fun y => by rw [voices]; exact Kept.refl _, bounded⟩
  obtain ⟨voices', handed⟩ := transmit_pseudo arith confs sounds (desk.linked arith confs links sounds)
    (channels confs) (((linked_stage arith confs links sounds desk).kept i).pseudo.trans pseudo)
  obtain ⟨row, -, -⟩ := @transmit_keeps n 0 arith confs sounds (desk.linked arith confs links sounds)
    (channels confs) t
  rw [tick_eq, voices', handed, row]
  unfold linked
  generalize links.foldl (link arith confs) (desk.spoken arith confs sounds) = now at stage ⊢
  have kept := stage.kept i
  rw [← kept.law, ← kept.rxgain]
  have handles := receivePseudo_handles arith confs sounds
  have still (s : Desk n) (x : Nat) (fine : Plain confs chan.confn s) :
      (s.receivePseudo arith confs sounds x).sums chan.confn = s.sums chan.confn ∧
        Plain confs chan.confn (s.receivePseudo arith confs sounds x) :=
    ⟨(@receivePseudo_keeps n arith confs chan.confn s fine sounds x t).1,
      Stage.plain ⟨(handles s x).settings, (handles s x).bounded⟩ fine⟩
  obtain ⟨given, last, sums, -⟩ := @foldl_once (Desk n) Nat (receivePseudo arith confs sounds)
    (fun s => (s.sums chan.confn = now.sums chan.confn ∧ Plain confs chan.confn s) ∧ s.voices i = now.voices i)
    (fun s => s.toReader i t = (now.voices i).law.lin2x
      (arith.hear ((now.voices i).law.toLin fun y => (now.voices i).rxgain (sounds.empty i y))
        (now.voices i).conflast (now.sums chan.confn) t) ∧
      (s.voices i).conflast = (now.voices i).conflast ∧
      s.sums chan.confn = now.sums chan.confn ∧ Plain confs chan.confn s)
    i (channels confs) List.nodup_range' (mem_channels low high)
    (fun s x other ready =>
      ⟨⟨(still s x ready.1.2).1.trans ready.1.1, (still s x ready.1.2).2⟩,
        ((handles s x).others i (Ne.symm other)).trans ready.2⟩)
    (fun s ready => by
      have pseudo' : (s.voices i).pseudo = true := by rw [ready.2]; exact kept.pseudo.trans pseudo
      have one := @receivePseudo_heard n confs chan i s arith known pseudo' listener mode sounds t
      have same := receivePseudo_last arith known pseudo' mode sounds
      rw [ready.1.1, ready.2] at one
      rw [ready.2] at same
      exact ⟨one, same, (still s i ready.1.2).1.trans ready.1.1, (still s i ready.1.2).2⟩)
    (fun s x other done =>
      ⟨(congrFun ((handles s x).handed i (Ne.symm other)).1 t).trans done.1,
        (congrArg Voice.conflast ((handles s x).others i (Ne.symm other))).trans done.2.1,
        (still s x done.2.2.2).1.trans done.2.2.1, (still s x done.2.2.2).2⟩)
    now ⟨⟨rfl, stage.plain plain⟩, rfl⟩
  rw [given, ← last, ← sums]

/-! ### One's own voice -/

/-- What a channel of a span has said stays to the end of the tick. -/
theorem tick_last (real : (desk.voices y).pseudo = false) (links : List (Nat × Nat)) (sounds : Sounds n) :
    ((desk.tick arith confs links sounds).voices y).conflast
        = (((channels confs).foldl (receiveReal arith confs sounds) desk).voices y).conflast ∧
      ((desk.tick arith confs links sounds).voices y).afterdialingtimer
        = (((channels confs).foldl (receiveReal arith confs sounds) desk).voices y).afterdialingtimer := by
  have received := (Stage.foldl (receiveReal_handles arith confs sounds) desk (channels confs)).kept y
  have spoke := (spoken_stage arith confs sounds desk).kept y
  obtain ⟨voices, -, -, -⟩ := @link_keeps n 0 arith confs (desk.spoken arith confs sounds) links
  have first : (desk.spoken arith confs sounds).voices y
      = ((channels confs).foldl (receiveReal arith confs sounds) desk).voices y :=
    transmit_real arith confs sounds (((channels confs).foldl (receiveReal arith confs sounds) desk).rotateSums
      confs) (channels confs) (received.pseudo.trans real)
  have second : (desk.linked arith confs links sounds).voices y = (desk.spoken arith confs sounds).voices y := by
    rw [← congrFun voices y]
    refine List.foldlRecOn (motive := fun now : Desk n => now.voices y
      = (links.foldl (link arith confs) (desk.spoken arith confs sounds)).voices y) (channels confs) _ rfl
      fun now same x _ => ?_
    by_cases own : y = x
    · have idle : now.receivePseudo arith confs sounds x = now := by
        unfold receivePseudo
        cases known : confs.chans x with
        | none => rfl
        | some chan =>
          refine if_neg (ne_true_of_eq_false ?_)
          rw [← own, same, voices]
          exact spoke.pseudo.trans real
      rw [idle, same]
    · exact ((receivePseudo_handles arith confs sounds now x).others y own).trans same
  rw [tick_eq, ← first, ← second]
  refine List.foldlRecOn (motive := fun now : Desk n =>
    (now.voices y).conflast = ((desk.linked arith confs links sounds).voices y).conflast ∧
      (now.voices y).afterdialingtimer = ((desk.linked arith confs links sounds).voices y).afterdialingtimer)
    (channels confs) _ ⟨rfl, rfl⟩ fun now same x _ => ?_
  by_cases own : y = x
  · obtain ⟨-, last, timer, -⟩ := @transmitReal_own n 0 arith confs sounds now x
    rw [own] at same ⊢
    exact ⟨last.trans same.1, timer.trans same.2⟩
  · rw [(transmitReal_handles arith confs sounds now x).others y own]
    exact same

/-- A channel of a span that is open when it receives: it can take out what it has said, which is nothing if it
is no talker. -/
theorem receive_last {i : Nat} (bounded : desk.Bounded arith) (low : 1 ≤ i) (high : i < confs.maxchans)
    (known : confs.chans i = some chan) (real : (desk.voices i).pseudo = false)
    (heard : (desk.voices i).confmute = false) (idle : (desk.voices i).dialed.afterdialingtimer = 0)
    (mode : chan.confmode.mode = .conf ∨ chan.confmode.mode = .realandpseudo) (sounds : Sounds n) (t : Fin n) :
    arith.rails.Fits (-((((channels confs).foldl (receiveReal arith confs sounds) desk).voices i).conflast t)) ∧
      said confs chan.confn t ((channels confs).foldl (receiveReal arith confs sounds) desk) i
        = (((channels confs).foldl (receiveReal arith confs sounds) desk).voices i).conflast t := by
  have handles := receiveReal_handles arith confs sounds
  refine @foldl_once (Desk n) Nat (receiveReal arith confs sounds)
    (fun s => s.voices i = desk.voices i ∧ s.Bounded arith)
    (fun s => arith.rails.Fits (-(s.voices i).conflast t) ∧
      said confs chan.confn t s i = (s.voices i).conflast t)
    i (channels confs) List.nodup_range' (mem_channels low high)
    (fun s x other ready => ⟨((handles s x).others i (Ne.symm other)).trans ready.1,
      (handles s x).bounded ready.2⟩)
    (fun s ready => ?_)
    (fun s x other done => ?_) desk ⟨rfl, bounded⟩
  · obtain ⟨voice, fine⟩ := ready
    have some : chan.confmode ≠ .zero := fun none => by
      rw [none] at mode
      exact absurd mode (by decide)
    have real' : (s.voices i).pseudo = false := by rw [voice]; exact real
    obtain ⟨toReader, eq⟩ := receiveReal_real arith sounds known ⟨some, ne_true_of_eq_false real'⟩
    have own := putaudio_own fine real' (by rw [voice]; exact heard) (by rw [voice]; exact idle) mode
      ((sounds.received i).getD (s.voices i).silence) t
    rw [said_of_known known, eq]
    exact own
  · have same := (handles s x).others i (Ne.symm other)
    rw [same, said_congr same]
    exact done

/-- What a pseudo channel has said stays to the end of the tick, too, and it can take it out. -/
theorem transmit_last {i : Nat} (bounded : desk.Bounded arith) (plain : Plain confs chan.confn desk)
    (low : 1 ≤ i) (high : i < confs.maxchans) (known : confs.chans i = some chan)
    (pseudo : (desk.voices i).pseudo = true) (mode : chan.confmode.mode = .conf) (links : List (Nat × Nat))
    (sounds : Sounds n) (t : Fin n) :
    arith.rails.Fits (-(((desk.tick arith confs links sounds).voices i).conflast t)) ∧
      said confs chan.confn t (desk.tick arith confs links sounds) i
        = ((desk.tick arith confs links sounds).voices i).conflast t := by
  have some : chan.confmode ≠ .zero := fun none => by
    rw [none] at mode
    exact absurd mode nofun
  have rotated := (Stage.foldl (receiveReal_handles arith confs sounds) desk (channels confs)).trans
    (Stage.rotateSums confs _)
  have handles := transmitPseudo_handles arith confs sounds
  -- it is as it was until it speaks, and has said the same from then on
  have spoke : arith.rails.Fits (-(((desk.spoken arith confs sounds).voices i).conflast t)) ∧
      said confs chan.confn t (desk.spoken arith confs sounds) i
        = ((desk.spoken arith confs sounds).voices i).conflast t := by
    refine @foldl_once (Desk n) Nat (transmitPseudo arith confs sounds)
      (fun s => (s.voices i).pseudo = true ∧ s.Bounded arith)
      (fun s => arith.rails.Fits (-(s.voices i).conflast t) ∧
        said confs chan.confn t s i = (s.voices i).conflast t)
      i (channels confs) List.nodup_range' (mem_channels low high)
      (fun s x other ready => ⟨((handles s x).settings i).pseudo.trans ready.1, (handles s x).bounded ready.2⟩)
      (fun s ready => ?_)
      (fun s x other done => ?_) _ ⟨(rotated.kept i).pseudo.trans pseudo, rotated.bounded bounded⟩
    · have written := getbuf_handles arith sounds i s
      rw [said_of_known known, transmitPseudo_pseudo known ready.1 some]
      exact getaudio_own (written.bounded ready.2) (written.kept.pseudo.trans ready.1) confs mode _ t
    · have same := (handles s x).others i (Ne.symm other)
      rw [same, said_congr same]
      exact done
  have last : ((desk.tick arith confs links sounds).voices i).conflast
      = ((desk.spoken arith confs sounds).voices i).conflast := by
    obtain ⟨voices, -, -, -⟩ := @link_keeps n 0 arith confs (desk.spoken arith confs sounds) links
    have start := (spoken_stage arith confs sounds desk).kept i
    have second : ((desk.linked arith confs links sounds).voices i).pseudo = true ∧
        ((desk.linked arith confs links sounds).voices i).conflast
          = ((desk.spoken arith confs sounds).voices i).conflast := by
      refine List.foldlRecOn (motive := fun now : Desk n => (now.voices i).pseudo = true ∧
        (now.voices i).conflast = ((desk.spoken arith confs sounds).voices i).conflast) (channels confs) _
        (by rw [voices]; exact ⟨start.pseudo.trans pseudo, rfl⟩) fun now same x _ => ?_
      have received := receivePseudo_handles arith confs sounds now x
      refine ⟨(received.settings i).pseudo.trans same.1, ?_⟩
      by_cases own : i = x
      · rw [← own]
        exact (receivePseudo_last arith known same.1 mode sounds).trans same.2
      · rw [received.others i own, same.2]
    rw [tick_eq, (transmit_pseudo arith confs sounds _ (channels confs) second.1).1, second.2]
  rw [last, tick_said plain]
  exact spoke

/-- **A line hears all others**, and itself not at all: what it hears is the sum of what the others have said,
clipped once, where its process is silent. -/
theorem tick_others {i : Nat} (bounded : desk.Bounded arith) (plain : Plain confs chan.confn desk)
    (unlinked : ∀ link ∈ links, confs.confalias link.2 ≠ chan.confn) (low : 1 ≤ i) (high : i < confs.maxchans)
    (known : confs.chans i = some chan) (real : (desk.voices i).pseudo = false)
    (heard : (desk.voices i).confmute = false) (idle : (desk.voices i).dialed.afterdialingtimer = 0)
    (still : (sounds.written i).dialing = false) (listener : chan.confmode.listener = true)
    (mode : chan.confmode.mode = .conf ∨ chan.confmode.mode = .realandpseudo) {t : Fin n}
    (silent : offered chan ((desk.voices i).law.toLin (sounds.written i).bytes) t = 0) :
    (desk.tick arith confs links sounds).toLine i t = (desk.voices i).txgain ((desk.voices i).law.lin2x
      (arith.rails.clip (desk.next chan.confn t + ∑ x ∈ (Ico 1 confs.maxchans).erase i,
        said confs chan.confn t (desk.tick arith confs links sounds) x))) := by
  obtain ⟨fits, own⟩ := receive_last bounded low high known real heard idle mode sounds t
  obtain ⟨last, timer⟩ := @tick_last n arith confs i desk real links sounds
  have received := (Stage.foldl (receiveReal_handles arith confs sounds) desk (channels confs)).kept i
  have linked := (linked_stage arith confs links sounds desk).kept i
  have ticked : Kept (desk.voices i) ((desk.tick arith confs links sounds).voices i) := linked.trans
    ((Stage.foldl (transmitReal_handles arith confs sounds) _ (channels confs)).kept i)
  have same : said confs chan.confn t (desk.tick arith confs links sounds) i
      = ((desk.tick arith confs links sounds).voices i).conflast t := by
    rw [said_of_same (ticked.pseudo.trans received.pseudo.symm) (ticked.confmute.trans received.confmute.symm)
      last timer, own, last]
  rw [tick_line low high known real heard still listener mode links t, hear_eq, silent]
  rw [← last] at fits
  rw [Rails.clip_without fits, tick_sums bounded plain unlinked sounds t, ← same]
  rw [← add_sum_erase _ _ (mem_Ico.mpr ⟨low, high⟩), add_left_comm, add_sub_cancel_left]

/-- **A process hears all others** on a pseudo channel, and itself not at all, unless there is a tone. -/
theorem tick_others_reader {i : Nat} (bounded : desk.Bounded arith) (plain : Plain confs chan.confn desk)
    (unlinked : ∀ link ∈ links, confs.confalias link.2 ≠ chan.confn) (low : 1 ≤ i) (high : i < confs.maxchans)
    (known : confs.chans i = some chan) (pseudo : (desk.voices i).pseudo = true)
    (listener : chan.confmode.listener = true) (mode : chan.confmode.mode = .conf) {t : Fin n}
    (silent : (desk.voices i).law.xlaw ((desk.voices i).rxgain (sounds.empty i t)) = 0) :
    (desk.tick arith confs links sounds).toReader i t = (desk.voices i).law.lin2x
      (arith.rails.clip (desk.next chan.confn t + ∑ x ∈ (Ico 1 confs.maxchans).erase i,
        said confs chan.confn t (desk.tick arith confs links sounds) x)) := by
  obtain ⟨fits, own⟩ := transmit_last bounded plain low high known pseudo mode links sounds t
  rw [tick_reader plain low high known pseudo listener mode links sounds t, hear_eq]
  rw [show (desk.voices i).law.toLin (fun y => (desk.voices i).rxgain (sounds.empty i y)) t = 0 from silent]
  rw [Rails.clip_without fits, tick_sums bounded plain unlinked sounds t, ← own]
  rw [← add_sum_erase _ _ (mem_Ico.mpr ⟨low, high⟩), add_left_comm, add_sub_cancel_left]

/-! ### Not too loud -/

/-- What a channel says. -/
def talk (confs : Confs) (sounds : Sounds n) (a : Nat) (t : Fin n) (desk : Desk n) (x : Nat) : Int :=
  match confs.chans x with
  | none => 0
  | some chan =>
    let ms := desk.voices x
    if ms.pseudo then offer chan a t ms (offered chan (ms.law.toLin (sounds.written x).bytes))
    else offer chan a t ms.dialed (ms.law.toLin (ms.dialed.gained ((sounds.received x).getD ms.silence)))

theorem talk_congr (same : desk'.voices x = desk.voices x) (confs : Confs) (sounds : Sounds n) (a : Nat)
    (t : Fin n) : talk confs sounds a t desk' x = talk confs sounds a t desk x := by
  unfold talk
  rw [same]

theorem talk_zero (idle : ∀ chan, confs.chans x = some chan → chan.confmode = .zero) (sounds : Sounds n)
    (a : Nat) (t : Fin n) (desk : Desk n) : talk confs sounds a t desk x = 0 := by
  unfold talk
  cases known : confs.chans x with
  | none => rfl
  | some chan =>
    have silent (ms : Voice n) (lin : Chunk n) : offer chan a t ms lin = 0 := by
      refine if_neg fun both => ?_
      have speaks := both.2
      unfold ConfChan.speaks ConfChan.talks at speaks
      rw [idle chan known] at speaks
      exact Bool.false_ne_true (of_decide_eq_true (of_decide_eq_true speaks).1).1
    dsimp only
    rw [silent, silent, ite_self]

/-- As much of what a channel of a span says gets in as there is room for. -/
theorem receive_adds (bounded : desk.Bounded arith) (confs : Confs) (sounds : Sounds n) (a : Nat) (t : Fin n)
    (x : Nat) :
    (if ((desk.receiveReal arith confs sounds x).voices x).pseudo then 0
      else said confs a t (desk.receiveReal arith confs sounds x) x)
        = arith.rails.added (desk.next a t)
          (if (desk.voices x).pseudo then 0 else talk confs sounds a t desk x) := by
  rw [(receiveReal_handles arith confs sounds desk x).kept.pseudo]
  by_cases pseudo : (desk.voices x).pseudo = true
  · rw [if_pos pseudo, if_pos pseudo, Rails.added_zero (bounded.next a t)]
  · rw [if_neg pseudo, if_neg pseudo]
    by_cases real : ∃ chan, confs.chans x = some chan ∧ chan.confmode ≠ .zero
    · obtain ⟨chan, known, some⟩ := real
      obtain ⟨toReader, eq⟩ := receiveReal_real arith sounds known ⟨some, pseudo⟩
      obtain ⟨-, room⟩ := putaudio_next bounded (eq_false_of_ne_true pseudo) chan
        ((sounds.received x).getD (desk.voices x).silence) a t
      have taken := (take_handles arith x ((sounds.received x).getD (desk.voices x).silence) desk).1
      have speaks : chan.speaks ((desk.take x ((sounds.received x).getD (desk.voices x).silence)).1.voices x)
          = chan.speaks (desk.voices x).dialed := by
        unfold ConfChan.speaks
        rw [taken.kept.pseudo, taken.kept.confmute, take_timer]
        rfl
      rw [said_of_known known, eq]
      refine room.trans ?_
      unfold talk offer
      rw [known, speaks]
      dsimp only
      rw [if_neg pseudo]
      rfl
    · have idle : ∀ chan, confs.chans x = some chan → chan.confmode = .zero := fun chan known =>
        not_not.mp fun some => real ⟨chan, known, some⟩
      rw [said_zero idle, talk_zero idle, Rails.added_zero (bounded.next a t)]

/-- So it does of what a pseudo channel says. -/
theorem transmit_adds (bounded : desk.Bounded arith) (confs : Confs) (sounds : Sounds n) (a : Nat) (t : Fin n)
    (x : Nat) :
    (if ((desk.transmitPseudo arith confs sounds x).voices x).pseudo then
      said confs a t (desk.transmitPseudo arith confs sounds x) x else 0)
        = arith.rails.added (desk.sums a t)
          (if (desk.voices x).pseudo then talk confs sounds a t desk x else 0) := by
  rw [(transmitPseudo_handles arith confs sounds desk x).kept.pseudo]
  by_cases pseudo : (desk.voices x).pseudo = true
  · rw [if_pos pseudo, if_pos pseudo]
    by_cases there : ∃ chan, confs.chans x = some chan ∧ chan.confmode ≠ .zero
    · obtain ⟨chan, known, inside⟩ := there
      have written := getbuf_handles arith sounds x desk
      obtain ⟨-, room⟩ := getaudio_sums (written.bounded bounded) (written.kept.pseudo.trans pseudo) confs chan
        (sounds.written x).bytes a t
      have eq : (desk.getbuf sounds x).voices x = { desk.voices x with dialing := (sounds.written x).dialing } := by
        unfold getbuf
        rw [setVoice_self]
      rw [said_of_known known, transmitPseudo_pseudo known pseudo inside]
      refine room.trans ?_
      unfold talk
      rw [known, eq]
      dsimp only
      rw [if_pos pseudo]
      rfl
    · have idle : ∀ chan, confs.chans x = some chan → chan.confmode = .zero := fun chan known =>
        not_not.mp fun inside => there ⟨chan, known, inside⟩
      rw [said_zero idle, talk_zero idle, Rails.added_zero (bounded.sums a t)]
  · rw [if_neg pseudo, if_neg pseudo, Rails.added_zero (bounded.sums a t)]

/-- **Nothing gets lost** where all channels of a conference together are not too loud. -/
theorem tick_exact (bounded : desk.Bounded arith) (plain : Plain confs a desk) (links : List (Nat × Nat))
    (sounds : Sounds n) (t : Fin n) {bound : Int} (low : bound ≤ -arith.rails.low) (high : bound ≤ arith.rails.high)
    (quiet : |desk.next a t| + ∑ x ∈ Ico 1 confs.maxchans, |talk confs sounds a t desk x| ≤ bound) :
    ∀ x ∈ Ico 1 confs.maxchans,
      said confs a t (desk.tick arith confs links sounds) x = talk confs sounds a t desk x := by
  have received := Stage.foldl (receiveReal_handles arith confs sounds) desk (channels confs)
  have rotated := received.trans (Stage.rotateSums confs _)
  -- what all say is what the channels of spans say, and what the pseudo channels say
  have halves : (∑ x ∈ Ico 1 confs.maxchans, |if (desk.voices x).pseudo then 0 else talk confs sounds a t desk x|) +
      (∑ x ∈ Ico 1 confs.maxchans, |if (desk.voices x).pseudo then talk confs sounds a t desk x else 0|)
        = ∑ x ∈ Ico 1 confs.maxchans, |talk confs sounds a t desk x| := by
    rw [← sum_add_distrib]
    refine sum_congr rfl fun x _ => ?_
    by_cases pseudo : (desk.voices x).pseudo = true
    · rw [if_pos pseudo, if_pos pseudo, abs_zero, zero_add]
    · rw [if_neg pseudo, if_neg pseudo, abs_zero, add_zero]
  have others : 0 ≤ ∑ x ∈ Ico 1 confs.maxchans,
      |if (desk.voices x).pseudo then talk confs sounds a t desk x else 0| :=
    sum_nonneg fun x _ => abs_nonneg _
  rw [← halves] at quiet
  have first := (receive_tallies confs sounds a t).exact
    (fun x => if (desk.voices x).pseudo then 0 else talk confs sounds a t desk x)
    (fun s x => s.voices x = desk.voices x)
    (fun s x y other same => ((receiveReal_handles arith confs sounds s x).others y other).trans same)
    (fun s x fine same => by rw [receive_adds fine confs sounds a t x, same, talk_congr same])
    bounded (fun x => rfl) low high (confs.maxchans - 1) (by rw [rows_eq]; omega)
  have sum := (receive_tallies confs sounds a t).run bounded (confs.maxchans - 1)
  rw [sum_congr rfl first, rows_eq] at sum
  rw [rows_eq] at first
  obtain ⟨half, eq⟩ : ∃ half : Desk n,
      half = ((channels confs).foldl (receiveReal arith confs sounds) desk).rotateSums confs := ⟨_, rfl⟩
  rw [← eq] at rotated
  have sums : half.sums a t = desk.next a t +
      ∑ x ∈ Ico 1 confs.maxchans, if (desk.voices x).pseudo then 0 else talk confs sounds a t desk x := by
    rw [eq]
    exact sum
  have before (x : Nat) (pseudo : (desk.voices x).pseudo = true) : half.voices x = desk.voices x := by
    rw [eq]
    exact receive_pseudo arith confs sounds desk (channels confs) pseudo
  have there : |half.sums a t| ≤ |desk.next a t| +
      ∑ x ∈ Ico 1 confs.maxchans, |if (desk.voices x).pseudo then 0 else talk confs sounds a t desk x| := by
    rw [sums]
    exact (abs_add_le _ _).trans (add_le_add_right (abs_sum_le_sum_abs _ _) _)
  have second := (transmit_tallies confs sounds a t).exact
    (fun x => if (desk.voices x).pseudo then talk confs sounds a t desk x else 0)
    (fun s x => s.voices x = half.voices x)
    (fun s x y other same => ((transmitPseudo_handles arith confs sounds s x).others y other).trans same)
    (fun s x fine same => by
      rw [transmit_adds fine confs sounds a t x, same, (rotated.kept x).pseudo]
      by_cases pseudo : (desk.voices x).pseudo = true
      · rw [talk_congr (same.trans (before x pseudo))]
      · rw [if_neg pseudo, if_neg pseudo])
    (rotated.bounded bounded) (fun x => rfl) low high (confs.maxchans - 1) (by rw [rows_eq]; omega)
  rw [rows_eq, eq] at second
  have spoke := spoken_stage arith confs sounds desk
  intro x inside
  rw [tick_said plain links sounds t x]
  by_cases pseudo : (desk.voices x).pseudo = true
  · have said_eq := second x inside
    rw [if_pos pseudo] at said_eq
    rw [← said_eq]
    exact (if_pos ((spoke.kept x).pseudo.trans pseudo)).symm
  · have said_eq := first x inside
    have real := eq_false_of_ne_true pseudo
    have same := transmit_real arith confs sounds (((channels confs).foldl (receiveReal arith confs sounds)
      desk).rotateSums confs) (channels confs) ((received.kept x).pseudo.trans real)
    have real' := (received.kept x).pseudo.trans real
    rw [if_neg pseudo] at said_eq
    rw [← said_eq]
    exact (said_congr same confs a t).trans (if_neg (ne_true_of_eq_false real')).symm

/-- **A line hears all that the others say**, and what its process has written, where that is not too loud. -/
theorem tick_line_exact {i : Nat} (bounded : desk.Bounded arith) (plain : Plain confs chan.confn desk)
    (unlinked : ∀ link ∈ links, confs.confalias link.2 ≠ chan.confn) (low : 1 ≤ i) (high : i < confs.maxchans)
    (known : confs.chans i = some chan) (real : (desk.voices i).pseudo = false)
    (heard : (desk.voices i).confmute = false) (idle : (desk.voices i).dialed.afterdialingtimer = 0)
    (still : (sounds.written i).dialing = false) (listener : chan.confmode.listener = true)
    (mode : chan.confmode.mode = .conf ∨ chan.confmode.mode = .realandpseudo) {t : Fin n} {bound : Int}
    (lower : bound ≤ -arith.rails.low) (upper : bound ≤ arith.rails.high)
    (quiet : |offered chan ((desk.voices i).law.toLin (sounds.written i).bytes) t| + (|desk.next chan.confn t| +
      ∑ x ∈ Ico 1 confs.maxchans, |talk confs sounds chan.confn t desk x|) ≤ bound) :
    (desk.tick arith confs links sounds).toLine i t = (desk.voices i).txgain ((desk.voices i).law.lin2x
      (offered chan ((desk.voices i).law.toLin (sounds.written i).bytes) t + (desk.next chan.confn t +
        ∑ x ∈ (Ico 1 confs.maxchans).erase i, talk confs sounds chan.confn t desk x))) := by
  obtain ⟨last, timer⟩ := @tick_last n arith confs i desk real links sounds
  obtain ⟨-, own⟩ := receive_last bounded low high known real heard idle mode sounds t
  have inside := mem_Ico.mpr ⟨low, high⟩
  have loud := abs_nonneg (offered chan ((desk.voices i).law.toLin (sounds.written i).bytes) t)
  have exact_ := tick_exact bounded plain links sounds t lower upper (by omega)
  have received := (Stage.foldl (receiveReal_handles arith confs sounds) desk (channels confs)).kept i
  have linked := (linked_stage arith confs links sounds desk).kept i
  have ticked : Kept (desk.voices i) ((desk.tick arith confs links sounds).voices i) := linked.trans
    ((Stage.foldl (transmitReal_handles arith confs sounds) _ (channels confs)).kept i)
  have same : ((desk.tick arith confs links sounds).voices i).conflast t
      = talk confs sounds chan.confn t desk i := by
    rw [← exact_ i inside, said_of_same (ticked.pseudo.trans received.pseudo.symm)
      (ticked.confmute.trans received.confmute.symm) last timer, own, last]
  rw [tick_line low high known real heard still listener mode links t, hear_eq, same,
    tick_sums bounded plain unlinked sounds t, sum_congr rfl exact_]
  rw [← add_sum_erase _ _ inside] at quiet ⊢
  generalize offered chan ((desk.voices i).law.toLin (sounds.written i).bytes) t = mine at *
  have sums := abs_sum_le_sum_abs (fun x => talk confs sounds chan.confn t desk x)
    ((Ico 1 confs.maxchans).erase i)
  generalize ∑ x ∈ (Ico 1 confs.maxchans).erase i, talk confs sounds chan.confn t desk x = others at *
  generalize ∑ x ∈ (Ico 1 confs.maxchans).erase i, |talk confs sounds chan.confn t desk x| = most at *
  generalize talk confs sounds chan.confn t desk i = said at *
  generalize desk.next chan.confn t = left at *
  -- nothing is clipped on the way
  have mine_le := abs_le.mp (le_refl |mine|)
  have said_le := abs_le.mp (le_refl |said|)
  have left_le := abs_le.mp (le_refl |left|)
  have others_le := abs_le.mp sums
  have first : arith.rails.Fits (mine - said) := ⟨by omega, by omega⟩
  have second : arith.rails.Fits (mine - said + (left + (said + others))) := ⟨by omega, by omega⟩
  rw [first.clip, second.clip]
  congr 2
  omega

end

end Desk

end Baps.Zaptel
