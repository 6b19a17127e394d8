/-
**Driver programs on the bus and on register files.**

`onBus` answers the register and LED requests of a driver program by bytes on the bus; `onFiles` by
an array of register files. Everything else is answered the same.

* `onBus_simulates` — request by request, the bus follows the files.
* `driver_run` — **what a driver program does on the bus it does on the files**: same result, same
  variables, same exchanges. So every statement about all hardware answers, applied to the files, is
  one about the bus.
-/

import Baps.Bus.Cpld
import Baps.Wcfxs.Hook

namespace Baps.Bus

open Wcfxs Interaction

variable {τ : Type}

/-- Registers and LEDs on the bus, the rest as given. -/
def onBus (modtype : Card → ModType) (rest : Env τ) : Env (Spi Cpld × τ) where
  setreg := fun card reg value hw => (setreg cpld modtype card reg value hw.1, hw.2)
  getreg := fun card reg hw =>
    ((getreg cpld modtype card reg hw.1).1, (getreg cpld modtype card reg hw.1).2, hw.2)
  setLed := fun port colour hw => (setLed cpld port colour hw.1, hw.2)
  forgetCard := fun hw => ({ hw.1 with curcard := -1 }, hw.2)
  gsmSend := fun card info hw => (hw.1, rest.gsmSend card info hw.2)
  gsmReceive := fun card hw => ((rest.gsmReceive card hw.2).1, hw.1, (rest.gsmReceive card hw.2).2)
  uart := fun card access hw => ((rest.uart card access hw.2).1, hw.1, (rest.uart card access hw.2).2)
  jiffies := fun hw => ((rest.jiffies hw.2).1, hw.1, (rest.jiffies hw.2).2)
  waitJustABit := fun ticks hw => (hw.1, rest.waitJustABit ticks hw.2)
  copyToUser := fun data hw => ((rest.copyToUser data hw.2).1, hw.1, (rest.copyToUser data hw.2).2)

/-- Registers in files, no LEDs, the rest as given. -/
def onFiles (rest : Env τ) : Env (Files × τ) where
  setreg := fun card reg value hw =>
    (Function.update hw.1 card (Function.update (hw.1 card) (reg &&& 0x7f) value), hw.2)
  getreg := fun card reg hw => (hw.1 card (reg &&& 0x7f), hw)
  setLed := fun _ _ => id
  forgetCard := id
  gsmSend := fun card info hw => (hw.1, rest.gsmSend card info hw.2)
  gsmReceive := fun card hw => ((rest.gsmReceive card hw.2).1, hw.1, (rest.gsmReceive card hw.2).2)
  uart := fun card access hw => ((rest.uart card access hw.2).1, hw.1, (rest.uart card access hw.2).2)
  jiffies := fun hw => ((rest.jiffies hw.2).1, hw.1, (rest.jiffies hw.2).2)
  waitJustABit := fun ticks hw => (hw.1, rest.waitJustABit ticks hw.2)
  copyToUser := fun data hw => ((rest.copyToUser data hw.2).1, hw.1, (rest.copyToUser data hw.2).2)

/-- A world on the bus and a world on files that stand for the same. -/
structure Stands (modtype : Card → ModType) (low : World (Spi Cpld × τ)) (high : World (Files × τ)) :
    Prop where
  ready : Ready modtype low.hw.1
  files : files low.hw.1 = high.hw.1
  rest : low.hw.2 = high.hw.2
  mod : low.mod = high.mod
  cell : low.cell = high.cell
  log : low.log = high.log

/-- The LED of a port that exists. -/
def OnPanel : Op → Prop
  | .setLed port _ => ∃ card : Card, port = card.val + 1
  | _ => True

theorem OnPanel.of_local {type : ModType} {card : Card} (op : Op) (stays : Local type card op) :
    OnPanel op := by
  cases op with
  | setLed port colour => exact ⟨card, stays⟩
  | _ => trivial

/-- **The bus follows the files.** -/
theorem onBus_simulates (modtype : Card → ModType) (rest : Env τ) :
    Program.Simulates OnPanel (Stands modtype) (handler (onBus modtype rest))
      (handler (onFiles rest)) := by
  rintro op panel ⟨mod, cell, ⟨spi, aside⟩, log⟩ ⟨mod', cell', ⟨high, aside'⟩, log'⟩ answer after
    ⟨ready, filed, restEq, modEq, cellEq, logEq⟩ answered
  dsimp only at ready filed restEq modEq cellEq logEq
  subst filed restEq modEq cellEq logEq
  cases op with
  | setreg card reg value =>
    obtain ⟨next, written, -⟩ := setreg_spec ready card reg value
    cases Option.some.inj answered
    exact ⟨_, rfl, next, written, rfl, rfl, rfl, rfl⟩
  | getreg card reg =>
    obtain ⟨value, next, same, -⟩ := getreg_spec ready card reg
    cases Option.some.inj answered
    refine ⟨_, congrArg some (Prod.ext value.symm rfl), next, same, rfl, rfl, rfl, ?_⟩
    exact congrArg (fun v => log ++ [Event.read card reg v]) value
  | setLed port colour =>
    obtain ⟨card, rfl⟩ := panel
    cases Option.some.inj answered
    exact ⟨_, rfl, setLed_ready card colour ready, files_setLed card colour, rfl, rfl, rfl, rfl⟩
  | forgetCard =>
    cases Option.some.inj answered
    exact ⟨_, rfl, ⟨ready.kind, ready.idle, .inl rfl⟩, rfl, rfl, rfl, rfl, rfl⟩
  | hang => exact answer.elim
  | _ =>
    cases Option.some.inj answered
    exact ⟨_, rfl, ready, rfl, rfl, rfl, rfl, rfl⟩

/-- **What a driver program does on the bus it does on the files.** -/
theorem driver_run {modtype : Card → ModType} {rest : Env τ} {α : Type} {program : Prog α}
    {type : ModType} {card : Card} (stays : program.Every (Local type card))
    {low : World (Spi Cpld × τ)} {high : World (Files × τ)} (stands : Stands modtype low high)
    {value : α} {final : World (Spi Cpld × τ)}
    (ran : program.run (handler (onBus modtype rest)) low = some (value, final)) :
    ∃ last, program.run (handler (onFiles rest)) high = some (value, last) ∧
      Stands modtype final last :=
  (onBus_simulates modtype rest).run (stays.mono OnPanel.of_local) stands ran

end Baps.Bus
