/-
**Conferences and their aliases.**

A process asks for a conference by its number. What is mixed for it is kept in a row of sums, and rows are few:
a conference in use has an alias, the number of its row, and the channels in it remember that as `_confn`. The
row is cleared with every tick, up to `maxconfs`.

* `Confs.checkConf`, `Confs.getConfAlias` — an alias is taken away and given;
* `Confs.step` — a request of a process, or a channel that comes or goes;
* `Sound.step`, `Sound.run` — **the tables stay sound** over any run;
* `aliases_apart` — **no two conferences are mixed**, and every row in use is cleared.

The channels of a cross-connect (`span->dacs`) and the echo of monitored channels (`readchunkpreec`) are not
modelled. The constants of `zaptel.h` are arguments.
-/

import Baps.Memory.Alias
import Baps.Zaptel.Events

namespace Baps.Zaptel

open Baps.Memory (Paired)

/-! ### Data types -/

/-- `confmode & ZT_CONF_MODE_MASK`. -/
inductive ConfMode
  | normal
  | monitor
  | monitortx
  | monitorboth
  | monitorRxPreecho
  | monitorTxPreecho
  | monitorbothPreecho
  | conf
  | confann
  | confmon
  | confannmon
  | realandpseudo
  | digitalmon
  | other
  deriving DecidableEq, Repr

namespace ConfMode

/-- The modes of a conference. -/
def isConf : ConfMode → Bool
  | conf | confann | confmon | confannmon | realandpseudo => true
  | _ => false

/-- The modes in which a channel is listened to. -/
def isMonitor : ConfMode → Bool
  | monitor | monitortx | monitorboth | monitorRxPreecho | monitorTxPreecho | monitorbothPreecho => true
  | _ => false

/-- The modes that end with the channel that is listened to. -/
def watches (mode : ConfMode) : Bool := mode.isMonitor ∨ mode = digitalmon

end ConfMode

/-- `confmode`, with its `ZT_CONF_TALKER`, `ZT_CONF_LISTENER`, `ZT_CONF_PSEUDO_TALKER` and
`ZT_CONF_PSEUDO_LISTENER`. -/
structure Confmode where
  mode : ConfMode
  talker : Bool
  listener : Bool
  pseudoTalker : Bool
  pseudoListener : Bool
  deriving DecidableEq, Repr

/-- `0`. -/
def Confmode.zero : Confmode := ⟨.normal, false, false, false, false⟩

/-- A channel, as far as conferences go: `audio` is `ZT_FLAG_AUDIO`, `dacs` is `__ZT_SIG_DACS`, and `confn` is
`_confn`. -/
structure ConfChan where
  audio : Bool
  dacs : Bool
  confna : Nat
  confn : Nat
  confmode : Confmode
  deriving DecidableEq, Repr

/-- `ZT_MAX_CONF` and `ZT_MAX_CHANNELS`. A channel's number is good for an index into `confalias`. -/
structure ConfLimits where
  maxConf : Nat
  maxChannels : Nat
  channels_le : maxChannels ≤ maxConf + 1

/-- `confalias`, `confrev`, `maxconfs`, `chans` and `maxchans`. -/
structure Confs where
  confalias : Nat → Nat
  confrev : Nat → Nat
  maxconfs : Nat
  chans : Nat → Option ConfChan
  maxchans : Nat

/-- The channel is in a conference. -/
def ConfChan.inConf (chan : ConfChan) (x : Nat) : Bool := chan.confna = x ∧ chan.confmode.mode.isConf

namespace Confs

/-! ### Aliases -/

/-- `zt_first_empty_alias`. -/
def firstEmptyAlias (limits : ConfLimits) (confs : Confs) : Option Nat :=
  (List.range' 1 (limits.maxConf - 1)).find? fun x => confs.confrev x = 0

/-- `recalc_maxconfs`. -/
def recalcMaxconfs (limits : ConfLimits) (confs : Confs) : Confs :=
  { confs with
    maxconfs := match (List.range' 1 (limits.maxConf - 1)).reverse.find? fun x => confs.confrev x ≠ 0 with
      | some x => x + 1
      | none => 0 }

/-- `zt_first_empty_conference`. -/
def firstEmptyConference (limits : ConfLimits) (confs : Confs) : Option Nat :=
  (List.range' 1 (limits.maxConf - 1)).reverse.find? fun x => confs.confalias x = 0

/-- `zt_get_conf_alias`. There is no result where `confrev[-1]` is written. -/
def getConfAlias (limits : ConfLimits) (x : Nat) (confs : Confs) : Option (Nat × Confs) :=
  if confs.confalias x ≠ 0 then some (confs.confalias x, confs)
  else
    match confs.firstEmptyAlias limits with
    | none => none
    | some a =>
      some (a, { confs with
        confalias := Function.update confs.confalias x a
        confrev := Function.update confs.confrev a x }.recalcMaxconfs limits)

/-- `zt_check_conf`. -/
def checkConf (limits : ConfLimits) (x : Nat) (confs : Confs) : Confs :=
  if x = 0 then confs
  else if confs.confalias x = 0 then confs
  else if (List.range confs.maxchans).any fun y => (confs.chans y).any (·.inConf x) then confs
  else
    { confs with
      confrev := Function.update confs.confrev (confs.confalias x) 0
      confalias := Function.update confs.confalias x 0 }.recalcMaxconfs limits

/-- A channel is changed. -/
def setChan (i : Nat) (chan : ConfChan) (confs : Confs) : Confs :=
  { confs with chans := Function.update confs.chans i (some chan) }

/-! ### Requests -/

/-- What `ZT_SETCONF` finds wrong with its arguments. -/
def refuses (limits : ConfLimits) (chan : ConfChan) (confno : Int) (confmode : Confmode) (confs : Confs) :
    Bool :=
  ¬ chan.audio ∨
    (if confmode.mode.isMonitor then
      confno < 0 ∨ confno ≥ limits.maxChannels ∨ confs.chans confno.toNat = none
    else confno < -1 ∨ confno > limits.maxConf) ∨
    (confno = 0 ∧ confmode ≠ .zero) ∨ (confmode = .zero ∧ confno ≠ 0)

/-- `ZT_SETCONF` for channel `i`. There is no result where it reads or writes outside of a table. -/
def setconf (limits : ConfLimits) (i : Nat) (confno : Int) (confmode : Confmode) (confs : Confs) :
    Option (Confs × Option Errno) :=
  if i < 1 ∨ i > limits.maxChannels then some (confs, some .EINVAL)
  else if i = limits.maxChannels then none
  else
    match confs.chans i with
    | none => some (confs, some .EINVAL)
    | some chan =>
      if confs.refuses limits chan confno confmode then some (confs, some .EINVAL)
      else
        let confno : Int := if confno = -1 then
          match confs.firstEmptyConference limits with
          | some x => x
          | none => -1
          else confno
        if confno < 1 ∧ confmode ≠ .zero then some (confs, some .EBUSY)
        else
          let chan' : ConfChan := { chan with confna := confno.toNat, confmode, confn := 0 }
          let confs := ((confs.setChan i chan').checkConf limits chan.confna).checkConf limits confno.toNat
          -- if we are going onto a conf
          if confno ≠ 0 ∧ confmode.mode.isConf then
            match confs.getConfAlias limits confno.toNat with
            | none => none
            | some (a, confs) => some (confs.setChan i { chan' with confn := a }, none)
          else some (confs, none)

/-- A channel with no conference, but for one that is cross-connected. -/
def leave (chan : ConfChan) : ConfChan :=
  if chan.dacs then { chan with confn := 0 } else { chan with confn := 0, confna := 0, confmode := .zero }

/-- `close_channel`. -/
def closeChannel (limits : ConfLimits) (i : Nat) (confs : Confs) : Confs :=
  match confs.chans i with
  | none => confs
  | some chan => (confs.setChan i (leave chan)).checkConf limits chan.confna

/-- `initialize_channel`. The conference is looked after before the channel has left it. -/
def initializeChannel (limits : ConfLimits) (i : Nat) (confs : Confs) : Confs :=
  match confs.chans i with
  | none => confs
  | some chan => (confs.checkConf limits chan.confna).setChan i (leave chan)

/-- `ZT_AUDIOMODE`. -/
def audiomode (limits : ConfLimits) (i : Nat) (on : Bool) (confs : Confs) : Confs :=
  match confs.chans i with
  | none => confs
  | some chan =>
    if on then confs.setChan i { chan with audio := true }
    else
      (confs.setChan i { chan with audio := false, confn := 0, confna := 0, confmode := .zero }).checkConf
        limits chan.confna

/-- `zt_chan_reg`. -/
def chanReg (limits : ConfLimits) (chan : ConfChan) (confs : Confs) : Confs :=
  match (List.range' 1 (limits.maxChannels - 1)).find? fun x => confs.chans x = none with
  | none => confs
  | some x => ({ confs with maxchans := max confs.maxchans (x + 1) }.setChan x chan).closeChannel limits x

/-- The loop of `zt_chan_unreg`, for one other channel. -/
def unregOne (limits : ConfLimits) (x : Nat) (confs : Confs) (y : Nat) : Confs :=
  match confs.chans y with
  | none => confs
  | some chan =>
    let confs : Confs := { confs with maxchans := y + 1 }
    if chan.confna = x ∧ chan.confmode.mode.watches then
      -- take them out of conference with us
      (confs.checkConf limits chan.confna).setChan y
        { chan with confna := 0, confn := 0, confmode := .zero }
    else confs

/-- `zt_chan_unreg`. -/
def chanUnreg (limits : ConfLimits) (x : Nat) (confs : Confs) : Confs :=
  (List.range' 1 (limits.maxChannels - 1)).foldl (unregOne limits x)
    { confs with chans := Function.update confs.chans x none, maxchans := 0 }

end Confs

/-- What happens to the conferences. -/
inductive ConfStep
  | setconf (i : Nat) (confno : Int) (confmode : Confmode)
  | closeChannel (i : Nat)
  | initializeChannel (i : Nat)
  | audiomode (i : Nat) (on : Bool)
  | chanReg (chan : ConfChan)
  | chanUnreg (x : Nat)

/-- It happens. -/
def Confs.step (limits : ConfLimits) (confs : Confs) : ConfStep → Option Confs
  | .setconf i confno confmode => (confs.setconf limits i confno confmode).map Prod.fst
  | .closeChannel i => some (confs.closeChannel limits i)
  | .initializeChannel i => some (confs.initializeChannel limits i)
  | .audiomode i on => some (confs.audiomode limits i on)
  | .chanReg chan => some (confs.chanReg limits chan)
  | .chanUnreg x => some (confs.chanUnreg limits x)

/-- No conferences, and no channels. -/
def Confs.none : Confs := ⟨fun _ => 0, fun _ => 0, 0, fun _ => Option.none, 0⟩

/-! ### What stays -/

/-- The tables agree, and so do the channels, but for some. -/
structure SoundBut (limits : ConfLimits) (skip : Nat → Prop) (confs : Confs) : Prop where
  paired : Paired confs.confalias confs.confrev
  names : ∀ x, confs.confalias x ≠ 0 → x ≤ limits.maxConf
  aliases : ∀ a, confs.confrev a ≠ 0 → a < confs.maxconfs
  maxconfs : confs.maxconfs ≤ limits.maxConf
  members : ∀ i chan, ¬ skip i → confs.chans i = some chan → chan.dacs = false →
    chan.confmode.mode.isConf = true → chan.confn = confs.confalias chan.confna ∧ chan.confn ≠ 0
  listed : ∀ i chan, confs.chans i = some chan → 1 ≤ i ∧ i < confs.maxchans ∧ i < limits.maxChannels

/-- The tables agree, and so do the channels. -/
def Sound (limits : ConfLimits) (confs : Confs) : Prop := SoundBut limits (fun _ => False) confs

/-- A process asks for no conference where all but one of them have an alias, and no channel goes away that
another one listens to. -/
def Careful (limits : ConfLimits) (confs : Confs) : ConfStep → Prop
  | .setconf i _ _ => i ≠ limits.maxChannels ∧
    ∃ y z, y ≠ z ∧ (1 ≤ y ∧ y ≤ limits.maxConf ∧ confs.confalias y = 0) ∧
      (1 ≤ z ∧ z ≤ limits.maxConf ∧ confs.confalias z = 0)
  | .chanUnreg x => ∀ y chan, confs.chans y = some chan → chan.confna = x →
    chan.confmode.mode.watches = false
  | _ => True

/-- That holds all along a run. -/
def CarefulRun (limits : ConfLimits) (confs : Confs) : List ConfStep → Prop
  | [] => True
  | step :: run => Careful limits confs step ∧
    ∀ next, confs.step limits step = some next → CarefulRun limits next run

section

variable {limits : ConfLimits} {confs : Confs} {skip : Nat → Prop} {i x : Nat} {chan new : ConfChan}

theorem sound_none (limits : ConfLimits) : Sound limits Confs.none where
  paired := Paired.empty
  names _ bad := absurd rfl bad
  aliases _ bad := absurd rfl bad
  maxconfs := Nat.zero_le _
  members := nofun
  listed := nofun

/-! ### Aliases -/

theorem mem_rows {a : Nat} : a ∈ List.range' 1 (limits.maxConf - 1) ↔ 1 ≤ a ∧ a < limits.maxConf := by
  rw [List.mem_range'_1]
  omega

/-- What is found from the end is behind all others. -/
theorem le_of_find_reverse {holds : Nat → Bool} {count top a : Nat}
    (found : (List.range' 1 count).reverse.find? holds = some top) (inside : a ∈ List.range' 1 count)
    (too : holds a = true) : a ≤ top := by
  obtain ⟨-, before, behind, split, others⟩ := List.find?_eq_some_iff_append.mp found
  have sorted : (List.range' 1 count).reverse.Pairwise (· > ·) :=
    List.pairwise_reverse.mpr (List.pairwise_lt_range' _)
  rw [split, List.pairwise_append, List.pairwise_cons] at sorted
  rw [← List.mem_reverse, split, List.mem_append, List.mem_cons] at inside
  rcases inside with early | rfl | late
  · have not := others a early
    rw [too] at not
    exact absurd not (by decide)
  · exact le_rfl
  · exact (sorted.2.1.1 a late).le

/-- The highest row in use is known again. -/
theorem SoundBut.recalc (paired : Paired confs.confalias confs.confrev)
    (names : ∀ x, confs.confalias x ≠ 0 → x ≤ limits.maxConf)
    (rows : ∀ a, confs.confrev a ≠ 0 → a < limits.maxConf)
    (members : ∀ i chan, ¬ skip i → confs.chans i = some chan → chan.dacs = false →
      chan.confmode.mode.isConf = true → chan.confn = confs.confalias chan.confna ∧ chan.confn ≠ 0)
    (listed : ∀ i chan, confs.chans i = some chan → 1 ≤ i ∧ i < confs.maxchans ∧ i < limits.maxChannels) :
    SoundBut limits skip (confs.recalcMaxconfs limits) := by
  unfold Confs.recalcMaxconfs
  cases found : (List.range' 1 (limits.maxConf - 1)).reverse.find? fun x => confs.confrev x ≠ 0 with
  | none =>
    refine ⟨paired, names, fun a used => ?_, Nat.zero_le _, members, listed⟩
    have row : a ∈ (List.range' 1 (limits.maxConf - 1)).reverse := by
      rw [List.mem_reverse, mem_rows]
      refine ⟨Nat.one_le_iff_ne_zero.mpr fun zero => used (zero ▸ paired.name_zero), rows a used⟩
    exact absurd (decide_eq_true used) (List.find?_eq_none.mp found a row)
  | some top =>
    refine ⟨paired, names, fun a used => ?_, ?_, members, listed⟩
    · have row : a ∈ List.range' 1 (limits.maxConf - 1) := by
        rw [mem_rows]
        exact ⟨Nat.one_le_iff_ne_zero.mpr fun zero => used (zero ▸ paired.name_zero), rows a used⟩
      exact Nat.lt_succ_of_le (le_of_find_reverse found row (decide_eq_true used))
    · have inside := List.mem_of_find?_eq_some found
      rw [List.mem_reverse, mem_rows] at inside
      exact inside.2

/-- `zt_check_conf` changes no channel. -/
theorem checkConf_chans (limits : ConfLimits) (x : Nat) (confs : Confs) :
    (confs.checkConf limits x).chans = confs.chans ∧
      (confs.checkConf limits x).maxchans = confs.maxchans ∧
      ∀ y, confs.confalias y = 0 → (confs.checkConf limits x).confalias y = 0 := by
  unfold Confs.checkConf
  split
  · exact ⟨rfl, rfl, fun _ none => none⟩
  split
  · exact ⟨rfl, rfl, fun _ none => none⟩
  split
  · exact ⟨rfl, rfl, fun _ none => none⟩
  · refine ⟨rfl, rfl, fun y none => ?_⟩
    show Function.update confs.confalias x 0 y = 0
    by_cases same : y = x
    · rw [same, Function.update_self]
    · rw [Function.update_of_ne same, none]

/-- A channel in a conference is seen. -/
theorem SoundBut.seen (sound : SoundBut limits skip confs)
    (nobody : ¬ ((List.range confs.maxchans).any fun y => (confs.chans y).any (·.inConf x)) = true)
    (known : confs.chans i = some chan) (conf : chan.confmode.mode.isConf = true) : chan.confna ≠ x := by
  rintro rfl
  apply nobody
  rw [List.any_eq_true]
  refine ⟨i, List.mem_range.mpr (sound.listed i chan known).2.1, ?_⟩
  rw [known]
  exact decide_eq_true ⟨rfl, conf⟩

/-- **`zt_check_conf` takes an alias away** only where nobody is in the conference. -/
theorem SoundBut.checkConf (sound : SoundBut limits skip confs) (x : Nat) :
    SoundBut limits skip (confs.checkConf limits x) := by
  unfold Confs.checkConf
  split
  · exact sound
  split
  · exact sound
  next aliased =>
  split
  · exact sound
  next nobody =>
  apply SoundBut.recalc
  · exact sound.paired.release aliased
  · intro y some
    change Function.update confs.confalias x 0 y ≠ 0 at some
    by_cases same : y = x
    · rw [same, Function.update_self] at some
      exact absurd rfl some
    · rw [Function.update_of_ne same] at some
      exact sound.names y some
  · intro a some
    change Function.update confs.confrev (confs.confalias x) 0 a ≠ 0 at some
    by_cases same : a = confs.confalias x
    · rw [same, Function.update_self] at some
      exact absurd rfl some
    · rw [Function.update_of_ne same] at some
      exact (sound.aliases a some).trans_le sound.maxconfs
  · intro j chan stays known plain conf
    have other := sound.seen nobody known conf
    show chan.confn = Function.update confs.confalias x 0 chan.confna ∧ _
    rw [Function.update_of_ne other]
    exact sound.members j chan stays known plain conf
  · exact sound.listed

/-- **`zt_get_conf_alias` finds an alias.** -/
theorem SoundBut.getConfAlias (sound : SoundBut limits skip confs) (x_pos : x ≠ 0) (x_le : x ≤ limits.maxConf)
    {y z : Nat} (differ : y ≠ z) (y_free : 1 ≤ y ∧ y ≤ limits.maxConf ∧ confs.confalias y = 0)
    (z_free : 1 ≤ z ∧ z ≤ limits.maxConf ∧ confs.confalias z = 0) :
    ∃ a next, confs.getConfAlias limits x = some (a, next) ∧ SoundBut limits skip next ∧
      next.confalias x = a ∧ a ≠ 0 ∧ next.chans = confs.chans ∧ next.maxchans = confs.maxchans := by
  unfold Confs.getConfAlias
  by_cases aliased : confs.confalias x ≠ 0
  · rw [if_pos aliased]
    exact ⟨_, confs, rfl, sound, rfl, aliased, rfl, rfl⟩
  have none : confs.confalias x = 0 := not_not.mp aliased
  -- two conferences have no alias, and there is one alias less than conferences
  have among : ∀ w, confs.confalias w ≠ 0 → w ∈ ((Finset.Ico 1 (limits.maxConf + 1)).erase y).erase z := by
    intro w some
    have w_pos : w ≠ 0 := fun zero => some (zero ▸ sound.paired.alias_zero)
    rw [Finset.mem_erase, Finset.mem_erase, Finset.mem_Ico]
    refine ⟨fun bad => some (bad ▸ z_free.2.2), fun bad => some (bad ▸ y_free.2.2), by omega, ?_⟩
    exact Nat.lt_succ_of_le (sound.names w some)
  have y_in : y ∈ Finset.Ico 1 (limits.maxConf + 1) := Finset.mem_Ico.mpr ⟨y_free.1, by omega⟩
  have z_in : z ∈ (Finset.Ico 1 (limits.maxConf + 1)).erase y :=
    Finset.mem_erase.mpr ⟨differ.symm, Finset.mem_Ico.mpr ⟨z_free.1, by omega⟩⟩
  have fewer : (((Finset.Ico 1 (limits.maxConf + 1)).erase y).erase z).card
      < (Finset.Ico 1 limits.maxConf).card := by
    rw [Finset.card_erase_of_mem z_in, Finset.card_erase_of_mem y_in, Nat.card_Ico, Nat.card_Ico]
    omega
  obtain ⟨b, b_pos, b_lt, free⟩ := sound.paired.exists_free among fewer
  obtain ⟨a, found⟩ : ∃ a, confs.firstEmptyAlias limits = some a := by
    rw [← Option.isSome_iff_exists]
    unfold Confs.firstEmptyAlias
    rw [List.find?_isSome]
    exact ⟨b, mem_rows.mpr ⟨b_pos, b_lt⟩, decide_eq_true free⟩
  have row := mem_rows.mp (List.mem_of_find?_eq_some found)
  have empty : confs.confrev a = 0 := by
    unfold Confs.firstEmptyAlias at found
    have holds := List.find?_some found
    exact of_decide_eq_true holds
  have a_pos : a ≠ 0 := by omega
  rw [if_neg aliased, found]
  refine ⟨a, _, rfl, ?_, ?_, a_pos, rfl, rfl⟩
  · apply SoundBut.recalc
    · exact sound.paired.bind x_pos a_pos none empty
    · intro w some
      change Function.update confs.confalias x a w ≠ 0 at some
      by_cases same : w = x
      · rw [same]
        exact x_le
      · rw [Function.update_of_ne same] at some
        exact sound.names w some
    · intro b some
      change Function.update confs.confrev a x b ≠ 0 at some
      by_cases same : b = a
      · rw [same]
        exact row.2
      · rw [Function.update_of_ne same] at some
        exact (sound.aliases b some).trans_le sound.maxconfs
    · intro j chan stays known plain conf
      obtain ⟨confn, some⟩ := sound.members j chan stays known plain conf
      have other : chan.confna ≠ x := fun same => by
        rw [same, none] at confn
        exact some confn
      show chan.confn = Function.update confs.confalias x a chan.confna ∧ _
      rw [Function.update_of_ne other]
      exact ⟨confn, some⟩
    · exact sound.listed
  · exact Function.update_self x a confs.confalias


/-! ### Requests -/

/-- A channel that is known is changed. -/
theorem SoundBut.setChan (sound : SoundBut limits skip confs) (known : confs.chans i = some chan)
    {skip' : Nat → Prop} (others : ∀ j, j ≠ i → skip j → skip' j)
    (new_ok : ¬ skip' i → new.dacs = false → new.confmode.mode.isConf = true →
      new.confn = confs.confalias new.confna ∧ new.confn ≠ 0) :
    SoundBut limits skip' (confs.setChan i new) where
  paired := sound.paired
  names := sound.names
  aliases := sound.aliases
  maxconfs := sound.maxconfs
  members j other stays known' plain conf := by
    change Function.update confs.chans i (some new) j = some other at known'
    by_cases same : j = i
    · rw [same] at known' stays
      rw [Function.update_self] at known'
      obtain rfl := Option.some.inj known'
      exact new_ok stays plain conf
    · rw [Function.update_of_ne same] at known'
      exact sound.members j other (fun skipped => stays (others j same skipped)) known' plain conf
  listed j other known' := by
    change Function.update confs.chans i (some new) j = some other at known'
    by_cases same : j = i
    · rw [same]
      exact sound.listed i chan known
    · rw [Function.update_of_ne same] at known'
      exact sound.listed j other known'

theorem setChan_chans (i : Nat) (new : ConfChan) (confs : Confs) :
    (confs.setChan i new).chans i = some new := by
  show Function.update confs.chans i (some new) i = some new
  exact Function.update_self i (some new) confs.chans

/-- The tables agree with all channels again. -/
theorem SoundBut.join (sound : SoundBut limits (· = i) confs) (known : confs.chans i = some chan)
    (joined : chan.dacs = false → chan.confmode.mode.isConf = true →
      chan.confn = confs.confalias chan.confna ∧ chan.confn ≠ 0) : Sound limits confs where
  paired := sound.paired
  names := sound.names
  aliases := sound.aliases
  maxconfs := sound.maxconfs
  members j other _ known' plain conf := by
    by_cases same : j = i
    · rw [same, known] at known'
      obtain rfl := Option.some.inj known'
      exact joined plain conf
    · exact sound.members j other same known' plain conf
  listed := sound.listed

/-- A channel of a conference is not listened to. -/
theorem isMonitor_of_isConf {mode : ConfMode} (conf : mode.isConf = true) : mode.isMonitor = false := by
  cases mode <;> first | rfl | cases conf

/-- The number of a conference is within the tables. -/
theorem confno_le {confno : Int} {confmode : Confmode}
    (fine : ¬ confs.refuses limits chan confno confmode = true) (conf : confmode.mode.isConf = true) :
    (if confno = -1 then
      match confs.firstEmptyConference limits with
      | some x => (x : Int)
      | none => -1
      else confno) ≤ limits.maxConf := by
  by_cases wants : confno = -1
  · rw [if_pos wants]
    cases found : confs.firstEmptyConference limits with
    | none =>
      show (-1 : Int) ≤ limits.maxConf
      omega
    | some x =>
      have inside := List.mem_of_find?_eq_some found
      rw [List.mem_reverse, mem_rows] at inside
      exact Int.ofNat_le.mpr inside.2.le
  · rw [if_neg wants]
    unfold Confs.refuses at fine
    rw [isMonitor_of_isConf conf] at fine
    simp only [Bool.false_eq_true, if_false, decide_eq_true_eq, not_or, not_lt] at fine
    omega

/-- **`ZT_SETCONF`.** -/
theorem Sound.setconf (sound : Sound limits confs) {confno : Int} {confmode : Confmode}
    (careful : Careful limits confs (.setconf i confno confmode)) :
    ∃ next errno, confs.setconf limits i confno confmode = some (next, errno) ∧ Sound limits next := by
  obtain ⟨inside, y, z, differ, y_free, z_free⟩ := careful
  unfold Confs.setconf
  by_cases number : i < 1 ∨ i > limits.maxChannels
  · rw [if_pos number]
    exact ⟨confs, _, rfl, sound⟩
  rw [if_neg number, if_neg inside]
  cases known : confs.chans i with
  | none => exact ⟨confs, _, rfl, sound⟩
  | some chan =>
    dsimp only
    by_cases refused : confs.refuses limits chan confno confmode = true
    · rw [if_pos refused]
      exact ⟨confs, _, rfl, sound⟩
    rw [if_neg refused]
    generalize wanted : (if confno = -1 then
        match confs.firstEmptyConference limits with
        | some x => (x : Int)
        | none => -1
        else confno) = conf
    by_cases full : conf < 1 ∧ confmode ≠ .zero
    · rw [if_pos full]
      exact ⟨confs, _, rfl, sound⟩
    rw [if_neg full]
    -- the channel leaves its conference, and is in none while the tables are looked after
    have moved : SoundBut limits (· = i)
        (confs.setChan i { chan with confna := conf.toNat, confmode, confn := 0 }) :=
      sound.setChan known (fun _ _ => False.elim) fun bad => absurd rfl bad
    have checked := (moved.checkConf chan.confna).checkConf conf.toNat
    have first := checkConf_chans limits chan.confna
      (confs.setChan i { chan with confna := conf.toNat, confmode, confn := 0 })
    have second := checkConf_chans limits conf.toNat
      ((confs.setChan i { chan with confna := conf.toNat, confmode, confn := 0 }).checkConf limits chan.confna)
    have free {w : Nat} (none : confs.confalias w = 0) := second.2.2 w (first.2.2 w none)
    have there := (congrFun (second.1.trans first.1) i).trans
      (setChan_chans i { chan with confna := conf.toNat, confmode, confn := 0 } confs)
    generalize ((confs.setChan i { chan with confna := conf.toNat, confmode, confn := 0 }).checkConf limits
      chan.confna).checkConf limits conf.toNat = left at *
    by_cases joins : conf ≠ 0 ∧ confmode.mode.isConf = true
    · rw [if_pos joins]
      have upper := wanted ▸ confno_le refused joins.2
      have positive : 0 < conf := by
        refine not_le.mp fun small => full ⟨?_, fun zero => ?_⟩
        · omega
        · rw [zero] at joins
          exact Bool.false_ne_true joins.2
      obtain ⟨a, next, given, sound', alias_eq, a_ne, chans_eq, -⟩ :=
        checked.getConfAlias (x := conf.toNat) (by omega) (by omega) differ
          ⟨y_free.1, y_free.2.1, free y_free.2.2⟩ ⟨z_free.1, z_free.2.1, free z_free.2.2⟩
      rw [given]
      refine ⟨_, none, rfl, ?_⟩
      exact sound'.setChan ((congrFun chans_eq i).trans there) (fun j other same => other same)
        fun _ _ _ => ⟨alias_eq.symm, a_ne⟩
    · rw [if_neg joins]
      refine ⟨left, _, rfl, checked.join there fun _ isConf => ?_⟩
      refine absurd ⟨fun zero => ?_, isConf⟩ joins
      refine full ⟨by omega, fun none => ?_⟩
      rw [none] at isConf
      exact Bool.false_ne_true isConf

/-! ### Channels that come and go -/

/-- A channel that leaves is in no conference. -/
theorem leave_ok (plain : (Confs.leave chan).dacs = false) :
    (Confs.leave chan).confmode.mode.isConf = false := by
  unfold Confs.leave at plain ⊢
  by_cases dacs : chan.dacs = true
  · rw [if_pos dacs] at plain
    exact absurd (dacs.symm.trans plain) Bool.false_ne_true.symm
  · rw [if_neg dacs]
    rfl

/-- **`close_channel`.** -/
theorem SoundBut.closeChannel (sound : SoundBut limits (· = i) confs) :
    (confs.chans i).isSome → Sound limits (confs.closeChannel limits i) := by
  intro there
  obtain ⟨chan, known⟩ := Option.isSome_iff_exists.mp there
  unfold Confs.closeChannel
  rw [known]
  have left : Sound limits (confs.setChan i (Confs.leave chan)) :=
    sound.setChan known (fun j other same => other same) fun _ plain conf =>
      absurd conf (by rw [leave_ok plain]; exact Bool.false_ne_true)
  exact left.checkConf chan.confna

theorem SoundBut.weaken (sound : Sound limits confs) (skip : Nat → Prop) : SoundBut limits skip confs where
  paired := sound.paired
  names := sound.names
  aliases := sound.aliases
  maxconfs := sound.maxconfs
  members i chan _ := sound.members i chan id
  listed := sound.listed

theorem Sound.closeChannel (sound : Sound limits confs) (i : Nat) :
    Sound limits (confs.closeChannel limits i) := by
  cases known : confs.chans i with
  | none =>
    unfold Confs.closeChannel
    rw [known]
    exact sound
  | some chan =>
    apply SoundBut.closeChannel
    · exact SoundBut.weaken sound _
    · rw [known]
      rfl

/-- **`initialize_channel`.** -/
theorem Sound.initializeChannel (sound : Sound limits confs) (i : Nat) :
    Sound limits (confs.initializeChannel limits i) := by
  unfold Confs.initializeChannel
  cases known : confs.chans i with
  | none => exact sound
  | some chan =>
    have checked := sound.checkConf chan.confna
    have there := (congrFun (checkConf_chans limits chan.confna confs).1 i).trans known
    exact checked.setChan there (fun _ _ => id) fun _ plain conf =>
      absurd conf (by rw [leave_ok plain]; exact Bool.false_ne_true)

/-- **`ZT_AUDIOMODE`.** -/
theorem Sound.audiomode (sound : Sound limits confs) (i : Nat) (on : Bool) :
    Sound limits (confs.audiomode limits i on) := by
  unfold Confs.audiomode
  cases known : confs.chans i with
  | none => exact sound
  | some chan =>
    cases on with
    | true =>
      exact sound.setChan known (fun _ _ => id) fun _ plain conf => sound.members i chan id known plain conf
    | false =>
      have left : Sound limits (confs.setChan i
          { chan with audio := false, confn := 0, confna := 0, confmode := .zero }) :=
        sound.setChan known (fun _ _ => id) fun _ _ conf => absurd conf Bool.false_ne_true
      exact left.checkConf chan.confna

/-- **`zt_chan_reg`.** -/
theorem Sound.chanReg (sound : Sound limits confs) (chan : ConfChan) :
    Sound limits (confs.chanReg limits chan) := by
  unfold Confs.chanReg
  cases found : (List.range' 1 (limits.maxChannels - 1)).find? fun x => confs.chans x = none with
  | none => exact sound
  | some x =>
    have inside := List.mem_of_find?_eq_some found
    rw [List.mem_range'_1] at inside
    apply SoundBut.closeChannel
    · refine ⟨sound.paired, sound.names, sound.aliases, sound.maxconfs, fun j other apart known => ?_,
        fun j other known => ?_⟩
      · change Function.update confs.chans x (some chan) j = some other at known
        rw [Function.update_of_ne apart] at known
        exact sound.members j other id known
      · change Function.update confs.chans x (some chan) j = some other at known
        show 1 ≤ j ∧ j < max confs.maxchans (x + 1) ∧ j < limits.maxChannels
        by_cases same : j = x
        · omega
        · rw [Function.update_of_ne same] at known
          have before := sound.listed j other known
          omega
    · rw [setChan_chans]
      rfl

/-- The loop of `zt_chan_unreg` counts the channels again, where none of them listens to the one that goes. -/
theorem foldl_unregOne (nobody : ∀ y chan, confs.chans y = some chan → chan.confna = x →
    chan.confmode.mode.watches = false) (count : Nat) :
    ∃ most, (List.range' 1 count).foldl (Confs.unregOne limits x) { confs with maxchans := 0 }
        = { confs with maxchans := most } ∧
      ∀ y chan, confs.chans y = some chan → 1 ≤ y → y ≤ count → y < most := by
  induction count with
  | zero => exact ⟨0, rfl, fun y _ _ low high => absurd (low.trans high) (by omega)⟩
  | succ count ih =>
    obtain ⟨most, eq, all⟩ := ih
    rw [List.range'_1_concat, List.foldl_append, eq]
    show ∃ most', Confs.unregOne limits x { confs with maxchans := most } (1 + count) = _ ∧ _
    unfold Confs.unregOne
    cases known : confs.chans (1 + count) with
    | none =>
      refine ⟨most, rfl, fun y chan there low high => all y chan there low ?_⟩
      have other : y ≠ 1 + count := fun same => by
        rw [same, known] at there
        exact Option.some_ne_none chan there.symm
      omega
    | some chan =>
      have apart : ¬ (chan.confna = x ∧ chan.confmode.mode.watches = true) := fun both =>
        Bool.false_ne_true ((nobody _ chan known both.1).symm.trans both.2)
      refine ⟨1 + count + 1, if_neg apart, fun y _ _ _ high => ?_⟩
      omega

/-- **`zt_chan_unreg`.** -/
theorem Sound.chanUnreg (sound : Sound limits confs) (careful : Careful limits confs (.chanUnreg x)) :
    Sound limits (confs.chanUnreg limits x) := by
  have still {j : Nat} {other : ConfChan} (known : Function.update confs.chans x none j = some other) :
      confs.chans j = some other := by
    by_cases same : j = x
    · rw [same, Function.update_self] at known
      cases known
    · rwa [Function.update_of_ne same] at known
  obtain ⟨most, eq, all⟩ := @foldl_unregOne limits { confs with chans := Function.update confs.chans x none } x
    (fun y chan known => careful y chan (still known)) (limits.maxChannels - 1)
  unfold Confs.chanUnreg
  rw [eq]
  refine ⟨sound.paired, sound.names, sound.aliases, sound.maxconfs,
    fun j other _ known => sound.members j other id (still known), fun j other known => ?_⟩
  have before := sound.listed j other (still known)
  exact ⟨before.1, all j other known before.1 (by omega), before.2.2⟩

/-! ### Runs -/

/-- **One step** leaves the tables sound. -/
theorem Sound.step (sound : Sound limits confs) {step : ConfStep} (careful : Careful limits confs step) :
    ∃ next, confs.step limits step = some next ∧ Sound limits next := by
  cases step with
  | setconf i confno confmode =>
    obtain ⟨next, errno, eq, sound'⟩ := sound.setconf careful
    refine ⟨next, ?_, sound'⟩
    show (confs.setconf limits i confno confmode).map Prod.fst = some next
    rw [eq]
    rfl
  | closeChannel i => exact ⟨_, rfl, sound.closeChannel i⟩
  | initializeChannel i => exact ⟨_, rfl, sound.initializeChannel i⟩
  | audiomode i on => exact ⟨_, rfl, sound.audiomode i on⟩
  | chanReg chan => exact ⟨_, rfl, sound.chanReg chan⟩
  | chanUnreg x => exact ⟨_, rfl, sound.chanUnreg careful⟩

/-- **A whole run** leaves the tables sound. -/
theorem Sound.run (run : List ConfStep) (sound : Sound limits confs) (careful : CarefulRun limits confs run) :
    ∃ final, run.foldlM (Confs.step limits) confs = some final ∧ Sound limits final := by
  induction run generalizing confs with
  | nil => exact ⟨confs, rfl, sound⟩
  | cons step run ih =>
    obtain ⟨next, eq, sound'⟩ := sound.step careful.1
    obtain ⟨final, rest, last⟩ := ih sound' (careful.2 next eq)
    refine ⟨final, ?_, last⟩
    rw [List.foldlM_cons, eq]
    exact rest

end

/-- **No two conferences are mixed.** Two channels have the same row of sums just where they are in the same
conference, and the row is one that is cleared with every tick. -/
theorem aliases_apart (limits : ConfLimits) (run : List ConfStep) (careful : CarefulRun limits .none run) :
    ∃ confs, run.foldlM (Confs.step limits) .none = some confs ∧ confs.maxconfs ≤ limits.maxConf ∧
      ∀ i chan, confs.chans i = some chan → chan.dacs = false → chan.confmode.mode.isConf = true →
        0 < chan.confn ∧ chan.confn < confs.maxconfs ∧
        ∀ j other, confs.chans j = some other → other.dacs = false → other.confmode.mode.isConf = true →
          (chan.confn = other.confn ↔ chan.confna = other.confna) := by
  obtain ⟨confs, eq, sound⟩ := (sound_none limits).run run careful
  refine ⟨confs, eq, sound.maxconfs, fun i chan known plain conf => ?_⟩
  obtain ⟨confn, some⟩ := sound.members i chan id known plain conf
  have aliased : confs.confalias chan.confna ≠ 0 := confn ▸ some
  refine ⟨Nat.pos_of_ne_zero some, ?_, fun j other known' plain' conf' => ?_⟩
  · rw [confn]
    exact sound.aliases _ (sound.paired.name_ne_zero aliased)
  · have confn' := (sound.members j other id known' plain' conf').1
    rw [confn, confn']
    exact ⟨sound.paired.alias_inj aliased, congrArg confs.confalias⟩

/-- Two channels come, and go to two conferences; the second one takes any that is free. -/
def twoConferences : List ConfStep :=
  [.chanReg ⟨true, false, 0, 0, .zero⟩, .chanReg ⟨true, false, 0, 0, .zero⟩,
    .setconf 1 5 ⟨.conf, true, true, false, false⟩, .setconf 2 (-1) ⟨.confmon, false, true, false, false⟩]

/-- Their rows are not the same. -/
theorem aliases_apart_two :
    ∃ confs, twoConferences.foldlM (Confs.step ⟨8, 8, by decide⟩) .none = some confs ∧
      (confs.chans 1).map ConfChan.confn ≠ (confs.chans 2).map ConfChan.confn := by
  have careful : CarefulRun ⟨8, 8, by decide⟩ .none twoConferences := by
    refine ⟨trivial, fun _ one => ?_⟩
    cases one
    refine ⟨trivial, fun _ two => ?_⟩
    cases two
    refine ⟨⟨by decide, 1, 2, by decide, by decide, by decide⟩, fun _ three => ?_⟩
    cases three
    refine ⟨⟨by decide, 1, 2, by decide, by decide, by decide⟩, fun _ four => ?_⟩
    cases four
    exact trivial
  obtain ⟨confs, eq, -, apart⟩ := aliases_apart ⟨8, 8, by decide⟩ twoConferences careful
  refine ⟨confs, eq, ?_⟩
  cases eq
  intro same
  have rows := (apart 1 _ rfl rfl rfl).2.2 2 _ rfl rfl rfl
  exact absurd (rows.mp (Option.some.inj same)) (by decide)

end Baps.Zaptel
