/-
**What goes to the GSM module, and where it goes.**

A tap on the bus records, for every byte and every 16-bit word sent with `SPI_NCSA`, what the CPLD's
multiplexer holds at that moment. The GSM module is to get the words, and nothing but the words.

* `Recorded.run` — the transfers of a driver program are those of its exchanges: each goes to the
  card the exchange names, whatever the cached card selection was before.
* `routed_iff_clean` — **in which runs modem traffic reaches the GSM module and nothing else does**: the
  module is in one of the first five slots when it is polled, no hook signal is for the GSM channel
  (each writes register 64 of a module that has no registers), and no FXS channel goes on hook during
  an answered GSM call (the `"ath"` is sent to that FXS card).
-/

import Baps.Gsm.Calls
import Baps.Gsm.Uart

namespace Baps.Gsm

open Interaction Wcfxs Bus Memory

/-! ### A tap on the bus -/

/-- A byte or word sent with `SPI_NCSA`, and what the multiplexer held. -/
structure Transfer where
  mux : UInt8
  wide : Bool
  deriving DecidableEq, Repr

/-- A bus with a tap: the last byte sent with `SPI_NCSB`, and the transfers so far. -/
structure Tapped (β : Type) where
  bus : β
  mux : UInt8
  transfers : List Transfer

namespace Tapped

variable {β : Type}

/-- A transfer with the given select line. -/
def record (select : Select) (wide : Bool) (bus : β) (tapped : Tapped β) : Tapped β where
  bus := bus
  mux := tapped.mux
  transfers := match select with
    | .ncsa => tapped.transfers ++ [⟨tapped.mux, wide⟩]
    | .ncsb => tapped.transfers

/-- A byte for the CPLD is what its multiplexer then holds. -/
def latch (select : Select) (bits : UInt8) (tapped : Tapped β) : Tapped β :=
  match select with
  | .ncsa => tapped
  | .ncsb => { tapped with mux := bits }

end Tapped

section Tap

variable {β : Type} (wire : WideWire β)

/-- The bus, tapped. -/
def tap : WideWire (Tapped β) where
  tx := fun select bits tapped =>
    (tapped.record select false (wire.tx select bits tapped.bus)).latch select bits
  rx := fun select tapped => ((wire.rx select tapped.bus).1,
    tapped.record select false (wire.rx select tapped.bus).2)
  reset := fun tapped => { tapped with bus := wire.reset tapped.bus }
  configure := fun wide tapped => { tapped with bus := wire.configure wide tapped.bus }
  txWord := fun select value tapped =>
    tapped.record select true (wire.txWord select value tapped.bus)
  rxWord := fun select value tapped => ((wire.rxWord select value tapped.bus).1,
    tapped.record select true (wire.rxWord select value tapped.bus).2)
  txBare := fun value tapped => { tapped with bus := wire.txBare value tapped.bus }

/-- The cached card is the one the multiplexer holds, if a card is cached. -/
def Coherent (spi : Spi (Tapped β)) : Prop :=
  spi.curcard = -1 ∨ spi.wire.mux = selectCode spi.curcard

/-- A card is cached and held. -/
structure Holds (card : Int) (spi : Spi (Tapped β)) : Prop where
  curcard : spi.curcard = card
  mux : spi.wire.mux = selectCode card

/-- Some transfers to a card, at least one, which is then held. -/
structure Sends (card : Int) (wide : Bool) (before after : Spi (Tapped β)) : Prop where
  holds : Holds card after
  transfers : ∃ more, after.wire.transfers = before.wire.transfers ++ more ∧ more ≠ [] ∧
    ∀ transfer ∈ more, transfer = ⟨selectCode card, wide⟩

variable {first spi after : Spi (Tapped β)} {card : Int} {wide : Bool}

theorem Holds.coherent (holds : Holds card spi) : Coherent spi :=
  .inr (by rw [holds.mux, holds.curcard])

theorem Sends.trans (start : Sends card wide first spi) (finish : Sends card wide spi after) :
    Sends card wide first after := by
  obtain ⟨more, moreEq, some, same⟩ := start.transfers
  obtain ⟨rest, restEq, -, sameRest⟩ := finish.transfers
  refine ⟨finish.holds, more ++ rest, ?_, ?_, ?_⟩
  · rw [restEq, moreEq, List.append_assoc]
  · exact fun none => some (List.append_eq_nil_iff.mp none).1
  · intro transfer member
    rcases List.mem_append.mp member with inFirst | inRest
    · exact same transfer inFirst
    · exact sameRest transfer inRest

/-- One transfer to the card that is held. -/
theorem Holds.sends (holds : Holds card spi) (curcard : after.curcard = spi.curcard)
    (mux : after.wire.mux = spi.wire.mux)
    (transfers : after.wire.transfers = spi.wire.transfers ++ [⟨spi.wire.mux, wide⟩]) :
    Sends card wide spi after := by
  refine ⟨⟨curcard.trans holds.curcard, mux.trans holds.mux⟩, [⟨selectCode card, wide⟩], ?_, by simp,
    by simp⟩
  rw [transfers, holds.mux]

theorem sportTxByte_sends (holds : Holds card spi) (bits : UInt8) :
    Sends card false spi (sportTxByte (tap wire).toWire .ncsa bits spi) :=
  holds.sends rfl rfl rfl

theorem sportRxByte_sends (holds : Holds card spi) :
    Sends card false spi (sportRxByte (tap wire).toWire .ncsa spi).2 :=
  holds.sends rfl rfl rfl

/-- **Selecting a card**: the multiplexer holds its code, whether it was cached or not. -/
theorem wcfxsSetcard_holds (coherent : Coherent spi) (real : card ≠ -1) :
    Holds card (wcfxsSetcard (tap wire).toWire card spi) ∧
      (wcfxsSetcard (tap wire).toWire card spi).wire.transfers = spi.wire.transfers := by
  unfold wcfxsSetcard
  by_cases cached : spi.curcard = card
  · rw [if_neg (not_not.mpr cached)]
    rcases coherent with none | held
    · exact absurd (cached.symm.trans none) real
    · exact ⟨⟨cached, by rw [held, cached]⟩, rfl⟩
  · rw [if_pos cached]
    exact ⟨⟨rfl, rfl⟩, rfl⟩

/-- Transfers to a card after selecting it. -/
theorem Sends.select (coherent : Coherent spi) (real : card ≠ -1)
    (sends : Holds card (wcfxsSetcard (tap wire).toWire card spi) →
      Sends card wide (wcfxsSetcard (tap wire).toWire card spi) after) : Sends card wide spi after := by
  obtain ⟨holds, unchanged⟩ := wcfxsSetcard_holds wire coherent real
  obtain ⟨after, transfers⟩ := sends holds
  exact ⟨after, unchanged ▸ transfers⟩

theorem card_real (slot : Card) : (slot.val : Int) ≠ -1 := by omega

/-- `wcfxs_setreg` sends bytes to its card. -/
theorem setreg_sends (coherent : Coherent spi) (modtype : Card → ModType) (slot : Card)
    (reg value : UInt8) :
    Sends slot.val false spi (setreg (tap wire).toWire modtype slot reg value spi) := by
  refine Sends.select wire coherent (card_real slot) fun holds => ?_
  cases type : modtype slot with
  | fxo =>
    simp only [setreg, type]
    have one := sportTxByte_sends wire holds 0x20
    have two := one.trans (sportTxByte_sends wire one.holds (reg &&& 0x7f))
    exact two.trans (sportTxByte_sends wire two.holds value)
  | fxs =>
    simp only [setreg, type]
    have one := sportTxByte_sends wire holds (reg &&& 0x7f)
    exact one.trans (sportTxByte_sends wire one.holds value)

/-- `wcfxs_getreg` exchanges bytes with its card. -/
theorem getreg_sends (coherent : Coherent spi) (modtype : Card → ModType) (slot : Card)
    (reg : UInt8) :
    Sends slot.val false spi (getreg (tap wire).toWire modtype slot reg spi).2 := by
  refine Sends.select wire coherent (card_real slot) fun holds => ?_
  cases type : modtype slot with
  | fxo =>
    simp only [getreg, type]
    have one := sportTxByte_sends wire holds 0x60
    have two := one.trans (sportTxByte_sends wire one.holds (reg &&& 0x7f))
    exact two.trans (sportRxByte_sends wire two.holds)
  | fxs =>
    simp only [getreg, type]
    have one := sportTxByte_sends wire holds (reg ||| 0x80)
    exact one.trans (sportRxByte_sends wire one.holds)

theorem portIndex_real (slot : Card) : portIndex slot.val ≠ -1 := by
  unfold portIndex
  split_ifs <;> omega

/-- A word written goes to the translated slot. -/
theorem fxWriteSpi2uart_sends (coherent : Coherent spi) (slot : Card) (value : UInt16) :
    Sends (portIndex slot.val) true spi (fxWriteSpi2uart (tap wire) slot.val value spi) :=
  Sends.select wire coherent (portIndex_real slot) fun holds => holds.sends rfl rfl rfl

/-- So does a word read. -/
theorem fxReadSpi2uart_sends (coherent : Coherent spi) (slot : Card) (value : UInt16) :
    Sends (portIndex slot.val) true spi (fxReadSpi2uart (tap wire) slot.val value spi).2 :=
  Sends.select wire coherent (portIndex_real slot) fun holds => holds.sends rfl rfl rfl

/-- So do the word written and the word read of `fx_program_register_SPI2UART`. -/
theorem fxProgramRegisterSpi2uart_sends (coherent : Coherent spi) (slot : Card) (value : UInt16) :
    Sends (portIndex slot.val) true spi
      (fxProgramRegisterSpi2uart (tap wire) slot.val value spi).2 := by
  refine Sends.select wire coherent (portIndex_real slot) fun holds => ?_
  refine ⟨⟨holds.curcard, holds.mux⟩,
    [⟨selectCode (portIndex slot.val), true⟩, ⟨selectCode (portIndex slot.val), true⟩], ?_, by simp,
    by simp⟩
  rw [← holds.mux]
  exact List.append_assoc _ _ _

/-- `GSM_send` sends words to the translated slot. -/
theorem gsmSend_sends (coherent : Coherent spi) (slot : Card) (info : List UInt8) :
    Sends (portIndex slot.val) true spi (gsmSend (tap wire) slot.val info spi) := by
  have words : ∀ (words : List UInt16) {spi : Spi (Tapped β)}, Coherent spi → words ≠ [] →
      Sends (portIndex slot.val) true spi
        (words.foldl (fun spi word => fxWriteSpi2uart (tap wire) slot.val word spi) spi) := by
    intro words
    induction words with
    | nil => exact fun _ some => absurd rfl some
    | cons word rest ih =>
      intro spi coherent _
      have one := fxWriteSpi2uart_sends wire coherent slot word
      by_cases none : rest = []
      · subst none
        exact one
      · exact one.trans (ih one.holds.coherent none)
  exact words _ coherent (by simp [gsmWords])

theorem receiveLoop_sends (slot : Card) (left : Nat) (kept : Nat × Bytes)
    (start : Sends (portIndex slot.val) true first spi) :
    Sends (portIndex slot.val) true first (receiveLoop (tap wire) slot.val left kept spi).2 := by
  induction left generalizing kept spi with
  | zero => exact start
  | succ left ih =>
    exact ih _ (start.trans (fxReadSpi2uart_sends wire start.holds.coherent slot 0x8000))

/-- `GSM_receive` exchanges words with the translated slot. -/
theorem gsmReceive_sends {bus : GsmBus (Tapped β)} (coherent : Coherent bus.spi) (slot : Card) :
    Sends (portIndex slot.val) true bus.spi (gsmReceive (tap wire) slot.val bus).2.spi := by
  have level := fxReadSpi2uart_sends wire coherent slot 0xC800
  unfold gsmReceive
  dsimp only
  split_ifs
  · exact level
  · exact receiveLoop_sends wire slot _ _ level

/-- The select code of a port's LED latch. -/
def ledCode (port : Nat) : UInt8 := if port > 4 then 0x45 else 0x05

/-- `wcfxs_set_led` sends one byte to an LED latch, and forgets the card. -/
theorem setLed_sends (port : Nat) (colour : FxLed) (spi : Spi (Tapped β)) :
    (setLed (tap wire).toWire port colour spi).curcard = -1 ∧
      (setLed (tap wire).toWire port colour spi).wire.transfers =
        spi.wire.transfers ++ [⟨ledCode port, false⟩] :=
  ⟨rfl, rfl⟩

end Tap

/-! ### The driver on the tapped bus -/

/-- What else the driver asks of the kernel. -/
structure Kernel (β : Type) where
  jiffies : β → UInt32 × β
  waitJustABit : Nat → β → β
  copyToUser : List Int → β → Bool × β

section Driver

variable {β : Type}

/-- Nothing of this is seen on the bus. -/
def Kernel.tapped (kernel : Kernel β) : Kernel (Tapped β) where
  jiffies := fun tapped =>
    ((kernel.jiffies tapped.bus).1, { tapped with bus := (kernel.jiffies tapped.bus).2 })
  waitJustABit := fun ticks tapped => { tapped with bus := kernel.waitJustABit ticks tapped.bus }
  copyToUser := fun data tapped =>
    ((kernel.copyToUser data tapped.bus).1, { tapped with bus := (kernel.copyToUser data tapped.bus).2 })

/-- Use the bus. -/
def GsmBus.onSpi (step : Spi β → Spi β) (bus : GsmBus β) : GsmBus β := { bus with spi := step bus.spi }

/-- Use what is at the end of the bus. -/
def GsmBus.onEnd (step : β → β) : GsmBus β → GsmBus β :=
  GsmBus.onSpi fun spi => { spi with wire := step spi.wire }

/-- Registers, LEDs and modem on one bus. -/
def onWire (wire : WideWire β) (modtype : Card → ModType) (kernel : Kernel β) : Env (GsmBus β) where
  setreg := fun card reg value => GsmBus.onSpi (setreg wire.toWire modtype card reg value)
  getreg := fun card reg bus => ((getreg wire.toWire modtype card reg bus.spi).1,
    bus.onSpi fun spi => (getreg wire.toWire modtype card reg spi).2)
  setLed := fun port colour => GsmBus.onSpi (setLed wire.toWire port colour)
  forgetCard := GsmBus.onSpi fun spi => { spi with curcard := -1 }
  gsmSend := fun card info => GsmBus.onSpi (gsmSend wire card.val info)
  gsmReceive := fun card => gsmReceive wire card.val
  uart := fun card access bus => ((bridgeAccess wire card.val access bus.spi).1,
    bus.onSpi fun spi => (bridgeAccess wire card.val access spi).2)
  jiffies := fun bus =>
    ((kernel.jiffies bus.spi.wire).1, bus.onEnd fun wire => (kernel.jiffies wire).2)
  waitJustABit := fun ticks => GsmBus.onEnd (kernel.waitJustABit ticks)
  copyToUser := fun data bus =>
    ((kernel.copyToUser data bus.spi.wire).1, bus.onEnd fun wire => (kernel.copyToUser data wire).2)

/-- The transfers an exchange is made of. -/
def transferOf : Event → Option Transfer
  | .wrote card _ _ => some ⟨selectCode card.val, false⟩
  | .read card _ _ => some ⟨selectCode card.val, false⟩
  | .led port _ => some ⟨ledCode port, false⟩
  | .sent card _ => some ⟨selectCode (portIndex card.val), true⟩
  | .received card _ => some ⟨selectCode (portIndex card.val), true⟩
  | .uart _ (.codec _) _ => none
  | .uart card _ _ => some ⟨selectCode (portIndex card.val), true⟩
  | _ => none

/-- The transfers so far. -/
def transfers (world : World (GsmBus (Tapped β))) : List Transfer := world.hw.spi.wire.transfers

/-- The transfers between two worlds are those of the exchanges between them. -/
structure Recorded (world after : World (GsmBus (Tapped β))) : Prop where
  coherent : Coherent after.hw.spi
  same : ∃ log more, after.log = world.log ++ log ∧ transfers after = transfers world ++ more ∧
    ∀ transfer, transfer ∈ more ↔ ∃ event ∈ log, transferOf event = some transfer

variable {wire : WideWire β} {modtype : Card → ModType} {kernel : Kernel β}
  {first world after : World (GsmBus (Tapped β))}

theorem Recorded.refl (coherent : Coherent world.hw.spi) : Recorded world world :=
  ⟨coherent, [], [], by simp, by simp, by simp⟩

theorem Recorded.trans (start : Recorded first world) (finish : Recorded world after) :
    Recorded first after := by
  obtain ⟨log, more, logEq, moreEq, same⟩ := start.same
  obtain ⟨log', more', logEq', moreEq', same'⟩ := finish.same
  refine ⟨finish.coherent, log ++ log', more ++ more', ?_, ?_, fun transfer => ?_⟩
  · rw [logEq', logEq, List.append_assoc]
  · rw [moreEq', moreEq, List.append_assoc]
  · simp only [List.mem_append, same, same', or_and_right, exists_or]

/-- An exchange with a card is recorded. -/
theorem Sends.recorded {card : Int} {wide : Bool} (sends : Sends card wide world.hw.spi after.hw.spi)
    {event : Event} (log : after.log = world.log ++ [event])
    (transfer : transferOf event = some ⟨selectCode card, wide⟩) : Recorded world after := by
  obtain ⟨holds, more, moreEq, some, all⟩ := sends
  refine ⟨holds.coherent, [event], more, log, moreEq, fun other => ?_⟩
  simp only [List.mem_singleton, exists_eq_left, transfer, Option.some.injEq]
  constructor
  · exact fun member => (all other member).symm
  · rintro rfl
    obtain ⟨one, member⟩ := List.exists_mem_of_ne_nil more some
    exact all one member ▸ member

/-- What is not on the bus. -/
theorem Recorded.silent (coherent : Coherent after.hw.spi) {log : List Event}
    (logEq : after.log = world.log ++ log) (none : ∀ event ∈ log, transferOf event = none)
    (unchanged : transfers after = transfers world) : Recorded world after := by
  refine ⟨coherent, log, [], logEq, by rw [unchanged, List.append_nil], fun transfer => ?_⟩
  constructor
  · exact fun member => absurd member List.not_mem_nil
  · rintro ⟨event, member, sent⟩
    rw [none event member] at sent
    contradiction

/-- **Every request is recorded.** -/
theorem recorded_step (op : Op) (coherent : Coherent world.hw.spi) {answer : op.Ans}
    (answered : handler (onWire (tap wire) modtype kernel.tapped) op world = some (answer, after)) :
    Recorded world after := by
  cases op with
  | setreg card reg value =>
    cases Option.some.inj answered
    exact (setreg_sends wire coherent modtype card reg value).recorded rfl rfl
  | getreg card reg =>
    cases Option.some.inj answered
    exact (getreg_sends wire coherent modtype card reg).recorded rfl rfl
  | gsmSend card info =>
    cases Option.some.inj answered
    exact (gsmSend_sends wire coherent card info).recorded rfl rfl
  | gsmReceive card =>
    cases Option.some.inj answered
    exact (gsmReceive_sends wire coherent card).recorded rfl rfl
  | setLed port colour =>
    cases Option.some.inj answered
    obtain ⟨forgotten, sent⟩ := setLed_sends wire port colour world.hw.spi
    refine ⟨.inl forgotten, [.led port colour], [⟨ledCode port, false⟩], rfl, sent, fun other => ?_⟩
    simp [transferOf, eq_comm]
  | uart card access =>
    cases Option.some.inj answered
    cases access with
    | write value => exact (fxWriteSpi2uart_sends wire coherent card value).recorded rfl rfl
    | read value => exact (fxReadSpi2uart_sends wire coherent card value).recorded rfl rfl
    | program value =>
      exact (fxProgramRegisterSpi2uart_sends wire coherent card value).recorded rfl rfl
    | codec value => exact .silent coherent rfl (by simp [transferOf]) rfl
  | forgetCard =>
    cases Option.some.inj answered
    exact .silent (.inl rfl) (List.append_nil _).symm (by simp) rfl
  | hang => exact answer.elim
  | _ =>
    have log := (handler_some answered).2.2
    cases Option.some.inj answered
    exact .silent coherent log (by simp [Op.events, transferOf]) rfl

/-- **The transfers of a driver program** are those of its exchanges. -/
theorem Recorded.run {α : Type} {program : Prog α} {value : α} (coherent : Coherent world.hw.spi)
    (ran : program.run (handler (onWire (tap wire) modtype kernel.tapped)) world =
      some (value, after)) : Recorded world after := by
  let R : World (GsmBus (Tapped β)) → World (GsmBus (Tapped β)) → Prop := fun first last =>
    Coherent first.hw.spi → Recorded first last
  have refl : ∀ state, R state state := fun _ => Recorded.refl
  have trans : ∀ {first middle last}, R first middle → R middle last → R first last :=
    fun start finish coherent => (start coherent).trans (finish (start coherent).coherent)
  exact (Program.Every.trivially program).run_rel (R := R) refl trans
    (fun op _ _ _ _ answered coherent => recorded_step op coherent answered) ran coherent

end Driver

/-! ### Words, and only words -/

/-- The GSM module is sent words, and nothing else is. -/
def Routed (gsm : Card) (transfer : Transfer) : Prop :=
  transfer.wide = true ↔ transfer.mux = selectCode gsm.val

/-- An exchange all of whose transfers are routed. -/
def RoutedEvent (gsm : Card) (event : Event) : Prop :=
  ∀ transfer, transferOf event = some transfer → Routed gsm transfer

/-- Register bytes reach the GSM module only if it is addressed. -/
theorem routed_byte (gsm card : Card) :
    Routed gsm ⟨selectCode card.val, false⟩ ↔ card ≠ gsm := by
  have codes : ∀ gsm card : Card, selectCode card.val = selectCode gsm.val ↔ card = gsm := by decide
  simp [Routed, codes]

/-- The LED latches are not in any slot. -/
theorem routed_led (gsm : Card) (port : Nat) : Routed gsm ⟨ledCode port, false⟩ := by
  have codes : ∀ gsm : Card, (0x45 : UInt8) ≠ selectCode gsm.val ∧ (0x05 : UInt8) ≠ selectCode gsm.val := by
    decide
  unfold Routed ledCode
  split_ifs
  · simp [codes gsm]
  · simp [codes gsm]

/-- **Words reach the GSM module only in the first five slots**: past them `fx_read_SPI2UART` and
`fx_write_SPI2UART` translate the port, and `__wcfxs_setcard` translates it again. -/
theorem routed_word (gsm card : Card) :
    Routed gsm ⟨selectCode (portIndex card.val), true⟩ ↔ card = gsm ∧ gsm.val ≤ 4 := by
  have codes : ∀ gsm card : Card,
      selectCode (portIndex card.val) = selectCode gsm.val ↔ card = gsm ∧ gsm.val ≤ 4 := by decide
  simp [Routed, codes]

/-- A request that leaves the registers of a slot alone, and the bridge too. -/
def Spares (gsm : Card) : Op → Prop
  | .setreg card _ _ => card ≠ gsm
  | .getreg card _ => card ≠ gsm
  | .uart _ _ => False
  | _ => True

/-- An exchange that leaves the registers of a slot alone, and the bridge too. -/
def SparesEvent (gsm : Card) : Event → Prop
  | .wrote card _ _ => card ≠ gsm
  | .read card _ _ => card ≠ gsm
  | .uart _ _ _ => False
  | _ => True

theorem Spares.event {gsm : Card} (op : Op) (spares : Spares gsm op) (answer : op.Ans) :
    ∀ event ∈ op.events answer, SparesEvent gsm event := by
  cases op with
  | setreg card reg value => simpa [Op.events, SparesEvent, Spares] using spares
  | getreg card reg => simpa [Op.events, SparesEvent, Spares] using spares
  | uart card access => exact spares.elim
  | _ => simp [Op.events, SparesEvent]

theorem Spares.of_local {type : ModType} {gsm card : Card} (other : card ≠ gsm) (op : Op)
    (stays : Local type card op) : Spares gsm op := by
  cases op with
  | setreg c reg value =>
    obtain rfl : c = card := stays
    exact other
  | getreg c reg =>
    obtain rfl : c = card := stays
    exact other
  | uart card access => exact stays
  | _ => trivial

/-! ### Which stimuli are routed -/

/-- What a stimulus must not do: poll a GSM module past the first five slots, signal on the GSM
channel, or put an FXS channel on hook during an answered GSM call. -/
def Stimulus.Clean {σ : Type} (cage : Cage) (world : World σ) : Stimulus → Prop
  | .interrupt => Polls world cage.gsm → cage.gsm.val ≤ 4
  | .hooksig card txsig _ _ => card ≠ cage.gsm ∧
      ¬ (cage.modtype card = .fxs ∧ txsig = .onhook ∧ world.cell .incommingCallState = 2)

section Stimuli

variable {params : Params} {cage : Cage} {σ : Type} {env : Env σ} {machine : Machine}
  {events : List Event} {world after : World σ}

theorem cage_other {card : Card} (fxs : cage.modtype card = .fxs) : card ≠ cage.gsm := by
  rintro rfl
  rw [cage.modtype_gsm] at fxs
  contradiction

/-- A tick uses no register. -/
theorem tickEvents_spares (gsm : Card) {card : Card} {line : List UInt8} :
    ∀ event ∈ tickEvents card machine line, SparesEvent gsm event := by
  intro event member
  simp only [tickEvents, List.cons_append, List.mem_cons, List.mem_append, List.mem_map] at member
  rcases member with rfl | txstate | ⟨sig, -, rfl⟩
  · trivial
  · split at txstate
    · obtain rfl := List.mem_singleton.mp txstate
      trivial
    · exact absurd txstate List.not_mem_nil
  · trivial

/-- An interrupt leaves the registers of the GSM slot alone. -/
theorem interrupt_spared (tracks : Tracks machine world)
    (ran : (pollNext (checkGsmCard params cage)).run (handler env) world = some ((), after)) :
    Says (SparesEvent cage.gsm) world after := by
  have ends : Program.Ends (handler env) (pollNext (checkGsmCard params cage)) world
      fun _ final => final = after := ⟨(), after, ran, rfl⟩
  rw [ends_pollNext] at ends
  split at ends
  · obtain ⟨_, final, checked, rfl⟩ := ends
    have start : Says (SparesEvent cage.gsm) world (counted world) := ⟨[], by simp [counted], by simp⟩
    refine start.trans ?_
    rw [checkGsmCard] at checked
    cases type : cage.modtype (nextTurn world) with
    | fxs =>
      rw [type] at checked
      have other := cage_other type
      refine proslicCheckHook_respects params (Says.refl _) Says.trans ?_
        (Says.of_every Spares.event ?_) _ _ _ checked
      · exact fun op plain _ _ _ answered =>
          Says.step (Spares.event op (Spares.of_local other op (plain.local op)) _) answered
      · exact .step trivial fun slot =>
          (initProslic_local params _ _ true true).mono (Spares.of_local other)
    | fxo =>
      rw [type] at checked
      by_cases port : cage.port (nextTurn world) = .gsm
      · simp only [port, ne_eq, not_true_eq_false, if_false] at checked
        have ticks := (gsmControl_ends _ tracks.counted).of_run checked
        exact ⟨_, ticks.log, tickEvents_spares cage.gsm⟩
      · simp only [port, ne_eq, not_false_eq_true, if_true] at checked
        have other : nextTurn world ≠ cage.gsm := fun same => port ((cage.port_gsm _).mpr same)
        exact Says.of_every Spares.event ((voicedaaCheckHook_local _).mono (Spares.of_local other))
          _ _ _ checked
  · rw [← ends]
    exact ⟨[], by simp [counted], by simp⟩

/-- So does a hook signal on another channel. -/
theorem hooksig_spared {card : Card} (other : card ≠ cage.gsm) (txsig : TxSig) (sig : Signalling)
    (txdialbuf : List UInt8) :
    (hooksig params cage card txsig sig txdialbuf).Every (Spares cage.gsm) := by
  rw [hooksig]
  cases cage.modtype card with
  | fxs =>
    refine .bind (.when fun _ => ?_) fun _ => .bind ?_ fun _ => ?_
    · exact .step trivial fun _ => .when fun _ => .step trivial fun _ => .call trivial
    · exact ((fxsLinefeed_plain card sig txsig).mono Plain.local).mono (Spares.of_local other)
    · exact ((applyLinefeed_plain false card).mono Plain.local).mono (Spares.of_local other)
  | fxo =>
    have port : cage.port card ≠ .gsm := fun gsm => other ((cage.port_gsm card).mp gsm)
    simp only [port, ne_eq, not_false_eq_true, if_true]
    cases txsig <;> first | exact .step trivial fun _ => .call other | trivial

/-- Setting the line feed writes register 64. -/
theorem applyLinefeed_writes (debugRead : Bool) (card : Card) (world : World σ) :
    Program.Ends (handler env) (applyLinefeed debugRead card) world fun _ final =>
      ∃ value log, final.log = world.log ++ log ∧ .wrote card 64 value ∈ log := by
  simp only [applyLinefeed, getregs, List.forM, fxsLoad, Program.ends_bind, Program.ends_when, ends_getreg,
    Program.ends_pure, ends_loadInt, ends_setreg]
  split_ifs
  · exact ⟨_, _, List.append_assoc _ _ _, List.mem_append_right _ (List.mem_singleton_self _)⟩
  · exact ⟨_, _, rfl, List.mem_singleton_self _⟩

/-- A hook signal on the GSM channel writes a register of the GSM slot. -/
theorem gsmHook_writes {txsig : TxSig} {sig : Signalling} {txdialbuf : List UInt8}
    (stepped : (Stimulus.hooksig cage.gsm txsig sig txdialbuf).run params cage env world =
      some after) : ∃ value, .wrote cage.gsm 64 value ∈ since world after := by
  have port : cage.port cage.gsm = .gsm := (cage.port_gsm cage.gsm).mpr rfl
  have ran := Stimulus.run_eq stepped
  simp only [Stimulus.prog, hooksig, cage.modtype_gsm, port, ne_eq, not_true_eq_false, if_false] at ran
  obtain ⟨_, middle, switched, applied⟩ := (Program.run_bind_some _).mp ran
  obtain ⟨value, log, logEq, wrote⟩ := (applyLinefeed_writes _ cage.gsm middle).of_run applied
  rw [since_trans (run_log switched) ⟨log, logEq⟩, since_eq logEq]
  exact ⟨value, List.mem_append_right _ wrote⟩

/-- What is on the bus is registers, LEDs and words. -/
theorem Moves.routed_iff (moves : Moves cage.gsm machine events world after)
    (spared : Says (SparesEvent cage.gsm) world after) :
    (∀ event ∈ since world after, RoutedEvent cage.gsm event) ↔
      ∀ event ∈ events, RoutedEvent cage.gsm event := by
  obtain ⟨log, logEq, spares⟩ := spared
  constructor
  · exact fun routed event member => routed event (moves.mem_since.mp member).1
  · intro routed event member
    by_cases concern : concerns cage.gsm event
    · exact routed event (moves.mem_since.mpr ⟨member, concern⟩)
    · rw [since_eq logEq] at member
      have spare := spares event member
      rintro transfer same
      cases event with
      | wrote card reg value =>
        obtain rfl := Option.some.inj same
        exact (routed_byte cage.gsm card).mpr spare
      | read card reg value =>
        obtain rfl := Option.some.inj same
        exact (routed_byte cage.gsm card).mpr spare
      | led port colour =>
        obtain rfl := Option.some.inj same
        exact routed_led cage.gsm port
      | sent card info => exact absurd rfl concern
      | received card line => exact absurd rfl concern
      | uart card access answer => exact spare.elim
      | _ => cases same

theorem routedEvent_received (gsm : Card) (line : List UInt8) :
    RoutedEvent gsm (.received gsm line) ↔ gsm.val ≤ 4 := by
  simp [RoutedEvent, transferOf, routed_word]

theorem routedEvent_signals (gsm : Card) (signal : Option RxSig) :
    ∀ event ∈ signal.toList.map (Event.signalled gsm), RoutedEvent gsm event := by
  simp [RoutedEvent, transferOf]

/-- A command to another card is not routed. -/
theorem routedEvent_sent {gsm card : Card} (other : card ≠ gsm) (command : Option (List UInt8)) :
    (∀ event ∈ command.toList.map (Event.sent card), RoutedEvent gsm event) ↔ command = none := by
  cases command with
  | none => simp
  | some info => simp [RoutedEvent, transferOf, routed_word, other]

/-- **Which stimuli are routed.** -/
theorem Stimulus.routed_iff (tracks : Tracks machine world) {stimulus : Stimulus}
    (stepped : stimulus.run params cage env world = some after) :
    (∀ event ∈ since world after, RoutedEvent cage.gsm event) ↔ stimulus.Clean cage world := by
  have ran := Stimulus.run_eq stepped
  cases stimulus with
  | interrupt =>
    have spared := interrupt_spared tracks ran
    by_cases polls : Polls world cage.gsm
    · obtain ⟨final, also, moves⟩ := tick_run tracks polls
      obtain rfl := Option.some.inj (also.symm.trans stepped)
      rw [moves.routed_iff spared, List.forall_mem_cons, routedEvent_received]
      simp only [Stimulus.Clean, polls, true_implies, and_iff_left_iff_imp]
      exact fun _ => routedEvent_signals _ _
    · rw [((interrupt_aside polls ran).moves tracks).routed_iff spared]
      simp [Stimulus.Clean, polls]
  | hooksig card txsig sig txdialbuf =>
    by_cases own : card = cage.gsm
    · subst own
      obtain ⟨value, wrote⟩ := gsmHook_writes stepped
      refine ⟨fun routed => ?_, fun clean => absurd rfl clean.1⟩
      exact absurd rfl ((routed_byte cage.gsm cage.gsm).mp (routed _ wrote _ rfl))
    · have spared := Says.of_every Spares.event (hooksig_spared own txsig sig txdialbuf) _ _ _ ran
      cases type : cage.modtype card with
      | fxs =>
        rw [(fxsHook_moves tracks type ran).routed_iff spared, routedEvent_sent own]
        simp only [Stimulus.Clean, type, tracks.incomming, machine.incomming_eq_two]
        cases txsig with
        | onhook =>
          by_cases answered : machine.phase = .answered <;> simp [Machine.fxsHook, answered, own]
        | _ => simp [Machine.fxsHook, own]
      | fxo =>
        have port : cage.port card ≠ .gsm := fun gsm => own ((cage.port_gsm card).mp gsm)
        simp only [Stimulus.prog, Gsm.hooksig, type, port, ne_eq, not_false_eq_true, if_true] at ran
        have aside := fxoHooksig_aside card cage.gsm txsig _ _ _ ran
        rw [(aside.moves tracks).routed_iff spared]
        simp [Stimulus.Clean, type, own]

/-! ### Which runs are routed -/

/-- Every stimulus of a run is clean when its turn comes. -/
def CleanStimuli (params : Params) (cage : Cage) (env : Env σ) : List Stimulus → World σ → Prop
  | [], _ => True
  | stimulus :: rest, world => stimulus.Clean cage world ∧
      ∀ next, stimulus.run params cage env world = some next → CleanStimuli params cage env rest next

/-- The exchanges of a run are routed if its stimuli are clean, and only then. -/
theorem runStimuli_routed_iff {stimuli : List Stimulus} (tracks : Tracks machine world)
    (ran : runStimuli params cage env stimuli world = some after) :
    (∀ event ∈ since world after, RoutedEvent cage.gsm event) ↔
      CleanStimuli params cage env stimuli world := by
  induction stimuli generalizing machine world with
  | nil =>
    obtain rfl : world = after := by simpa [runStimuli] using ran
    simp [since, CleanStimuli]
  | cons stimulus rest ih =>
    obtain ⟨middle, stepped, restRan⟩ := Option.bind_eq_some_iff.mp ran
    obtain ⟨next, _, -, moves⟩ := Stimulus.run_machine tracks stepped
    rw [since_trans (run_log (Stimulus.run_eq stepped)) (runStimuli_log restRan),
      List.forall_mem_append, Stimulus.routed_iff tracks stepped, ih moves.tracks restRan, CleanStimuli]
    refine and_congr_right fun _ => ⟨fun clean next' also => ?_, fun clean => clean middle stepped⟩
    rw [← Option.some.inj (stepped.symm.trans also)]
    exact clean

end Stimuli

section Bus

variable {params : Params} {cage : Cage} {β : Type} {wire : WideWire β} {kernel : Kernel β}
  {world after : World (GsmBus (Tapped β))}

/-- The transfers of a run are those of its exchanges. -/
theorem runStimuli_recorded {stimuli : List Stimulus} (coherent : Coherent world.hw.spi)
    (ran : runStimuli params cage (onWire (tap wire) cage.modtype kernel.tapped) stimuli world =
      some after) : Recorded world after := by
  induction stimuli generalizing world with
  | nil =>
    obtain rfl : world = after := by simpa [runStimuli] using ran
    exact .refl coherent
  | cons stimulus rest ih =>
    obtain ⟨middle, stepped, restRan⟩ := Option.bind_eq_some_iff.mp ran
    have start := Recorded.run coherent (Stimulus.run_eq stepped)
    exact start.trans (ih start.coherent restRan)

/-- The driver after initialisation: no call, the cached card held, and the tap just put on. The card
is held since `gsm_auto_detect` forgot it, and every access since then has selected its own. -/
structure Tuned (world : World (GsmBus (Tapped β))) : Prop where
  fresh : Fresh world
  coherent : Coherent world.hw.spi
  none : transfers world = []

/-- **When modem traffic reaches the GSM module and nothing else does.** -/
theorem routed_iff_clean (tuned : Tuned world) {stimuli : List Stimulus}
    (ran : runStimuli params cage (onWire (tap wire) cage.modtype kernel.tapped) stimuli world =
      some after) :
    (∀ transfer ∈ transfers after, Routed cage.gsm transfer) ↔
      CleanStimuli params cage (onWire (tap wire) cage.modtype kernel.tapped) stimuli world := by
  obtain ⟨log, more, logEq, moreEq, same⟩ := (runStimuli_recorded tuned.coherent ran).same
  rw [← runStimuli_routed_iff tuned.fresh.tracks ran, since_eq logEq, moreEq, tuned.none,
    List.nil_append]
  constructor
  · exact fun routed event member transfer sent =>
      routed transfer ((same transfer).mpr ⟨event, member, sent⟩)
  · intro routed transfer member
    obtain ⟨event, inLog, sent⟩ := (same transfer).mp member
    exact routed event inLog transfer sent

end Bus

/-! ### A silent bus -/

/-- A bus on which nothing answers, and the modem's FIFO is empty. -/
def silentWire : WideWire Unit where
  tx := fun _ _ => id
  rx := fun _ => (0, ·)
  reset := id
  configure := fun _ => id
  txWord := fun _ _ => id
  rxWord := fun _ _ => (0, ·)
  txBare := fun _ => id

def silentKernel : Kernel Unit where
  jiffies := (0, ·)
  waitJustABit := fun _ => id
  copyToUser := fun _ => (false, ·)

/-- The idle driver on it, about to poll the GSM card. -/
def tunedDriver : World (GsmBus (Tapped Unit)) where
  mod := (idleDriver []).mod
  cell := (idleDriver []).cell
  hw := ⟨⟨-1, fun _ => 0, ⟨(), 0, []⟩⟩, fun _ => 0⟩
  log := []

theorem tunedDriver_tuned : Tuned tunedDriver := ⟨⟨rfl, rfl, rfl⟩, .inl rfl, rfl⟩

/-- A GSM module in the first slot is polled: the RXLVL word goes to it. -/
theorem routed_poll : ∃ after,
    runStimuli Params.default soloCage (onWire (tap silentWire) soloCage.modtype silentKernel.tapped)
      [.interrupt] tunedDriver = some after ∧
    transfers after = [⟨1, true⟩] ∧ ∀ transfer ∈ transfers after, Routed firstSlot transfer := by
  obtain ⟨after, ran, words⟩ : ∃ after,
      runStimuli Params.default soloCage (onWire (tap silentWire) soloCage.modtype silentKernel.tapped)
        [.interrupt] tunedDriver = some after ∧ transfers after = [⟨1, true⟩] :=
    computed (by decide)
  refine ⟨after, ran, words, (routed_iff_clean tunedDriver_tuned ran).mpr ⟨fun _ => ?_, ?_⟩⟩
  · decide
  · exact fun _ _ => trivial

/-- A hook signal on the GSM channel: three bytes for register 64 of an FXO chip go to the module. -/
theorem register_write_to_gsm : ∃ after,
    runStimuli Params.default soloCage (onWire (tap silentWire) soloCage.modtype silentKernel.tapped)
      [.hooksig firstSlot .offhook .fxoks []] tunedDriver = some after ∧
    transfers after = [⟨1, false⟩, ⟨1, false⟩, ⟨1, false⟩] ∧
    ¬ ∀ transfer ∈ transfers after, Routed firstSlot transfer := by
  obtain ⟨after, ran, bytes⟩ : ∃ after,
      runStimuli Params.default soloCage (onWire (tap silentWire) soloCage.modtype silentKernel.tapped)
        [.hooksig firstSlot .offhook .fxoks []] tunedDriver = some after ∧
      transfers after = [⟨1, false⟩, ⟨1, false⟩, ⟨1, false⟩] := computed (by decide)
  refine ⟨after, ran, bytes, fun routed => ?_⟩
  have first := routed ⟨1, false⟩ (bytes ▸ List.mem_cons_self)
  exact absurd (first.mpr (by decide)) (by decide)

end Baps.Gsm
