/-
**The GSM module's UART: words on the bus, commands sent and lines received.**

The modem sits behind an SPI to UART bridge that takes 16-bit words: a register number and a
direction in the high byte, data in the low one. `gsmSend` writes a command character by character;
`gsmReceive` empties the receive FIFO into the static buffer `GSM_string` and returns it as a C
string.

* `gsmReceive_drain` — what a call leaves in the buffer, as a fold over the bytes of the FIFO.
* `receive_lines` — **lines arrive whole**: over any run of drains that each bring nothing, or one
  whole line, the strings handed on are the lines of the stream.
-/

import Baps.Bus.Driver
import Baps.Text.Lines

namespace Baps.Gsm

open Bus Wcfxs Memory

/-! ### The bridge -/

/-- A bus that can also be switched to 16-bit words: `sport_configure_gsm` and `sport_configure`,
`sport_tx_word` and `sport_rx_word`. `txBare` is `sport_tx_word` with neither select line. -/
structure WideWire (β : Type) extends Wire β where
  configure : (wide : Bool) → β → β
  txWord : Select → UInt16 → β → β
  rxWord : Select → UInt16 → β → UInt16 × β
  txBare : UInt16 → β → β

/-- The bus, and the static buffer of `GSM_receive`. -/
structure GsmBus (β : Type) where
  spi : Spi β
  buffer : Bytes

section Bridge

variable {β : Type} (wire : WideWire β)

/-- `if (port > 4) port += 0x40 - 4;` -/
def portIndex (port : Int) : Int := if port > 4 then port + (0x40 - 4) else port

/-- `fx_read_SPI2UART`. -/
def fxReadSpi2uart (port : Int) (value : UInt16) (spi : Spi β) : UInt16 × Spi β :=
  let spi := wcfxsSetcard wire.toWire (portIndex port) spi
  let device := wire.configure true spi.wire
  let (reg, device) := wire.rxWord .ncsa value device
  (reg, { spi with wire := wire.configure false device })

/-- `fx_write_SPI2UART`. -/
def fxWriteSpi2uart (port : Int) (value : UInt16) (spi : Spi β) : Spi β :=
  let spi := wcfxsSetcard wire.toWire (portIndex port) spi
  let device := wire.configure true spi.wire
  { spi with wire := wire.configure false (wire.txWord .ncsa value device) }

/-- `fx_program_register_SPI2UART`: write, read back, and `1` if the register does not hold. -/
def fxProgramRegisterSpi2uart (port : Int) (value : UInt16) (spi : Spi β) : UInt16 × Spi β :=
  let spi := wcfxsSetcard wire.toWire (portIndex port) spi
  let device := wire.txWord .ncsa value (wire.configure true spi.wire)
  let value := value ||| 0x8000
  let (reg, device) := wire.rxWord .ncsa value device
  let temp := value ||| 0xff00
  (if temp ≠ reg then 1 else 0, { spi with wire := wire.configure false device })

/-- `fx_write_SPI2UART_wo_CS`. -/
def fxWriteSpi2uartWoCs (value : UInt16) (spi : Spi β) : Spi β :=
  { spi with wire := wire.configure false (wire.txBare value (wire.configure true spi.wire)) }

/-- Any of the four. -/
def bridgeAccess (port : Int) : UartAccess → Spi β → UInt16 × Spi β
  | .write value, spi => (0, fxWriteSpi2uart wire port value spi)
  | .read value, spi => fxReadSpi2uart wire port value spi
  | .program value, spi => fxProgramRegisterSpi2uart wire port value spi
  | .codec value, spi => (0, fxWriteSpi2uartWoCs wire value spi)

/-- The characters of a command, and then the line feed: `char` is signed, and its value is sent as
a word. -/
def gsmWords (info : List UInt8) : List UInt16 :=
  info.map (fun char => UInt16.ofInt char.toInt8.toInt) ++ [0x000d, 0x000a]

/-- `GSM_send`, of a C string. -/
def gsmSend (port : Int) (info : List UInt8) (spi : Spi β) : Spi β :=
  (gsmWords info).foldl (fun spi word => fxWriteSpi2uart wire port word spi) spi

/-- `temp == 0x000d || temp == 0x000a`. -/
def isSeparator (char : UInt8) : Bool := char = 0x0d ∨ char = 0x0a

/-- What the loop of `GSM_receive` does with a character: `keep_s` and the buffer. -/
def keepChar (kept : Nat × Bytes) (char : UInt8) : Nat × Bytes :=
  if isSeparator char then
    if kept.1 > 0 then (kept.1 + 1, write kept.2 kept.1 0) else kept
  else (kept.1 + 1, write kept.2 kept.1 char)

/-- The loop of `GSM_receive`, with the characters still to read. -/
def receiveLoop (port : Int) : Nat → Nat × Bytes → Spi β → (Nat × Bytes) × Spi β
  | 0, kept, spi => (kept, spi)
  | left + 1, kept, spi =>
      let (temp, spi) := fxReadSpi2uart wire port 0x8000 spi
      receiveLoop port left (keepChar kept temp.toUInt8) spi

/-- The size of `GSM_string`. -/
def bufferSize : Nat := 60

/-- The C string at the start of the buffer. -/
def cString (buffer : Bytes) : List UInt8 :=
  ((List.range bufferSize).map buffer).takeWhile (· ≠ 0)

/-- `GSM_receive`: the string it returns, and the bus. -/
def gsmReceive (port : Int) (bus : GsmBus β) : List UInt8 × GsmBus β :=
  let (reg, spi) := fxReadSpi2uart wire port 0xC800 bus.spi
  let level := reg.toUInt8.toNat
  if level = 0 then
    let buffer := write (write bus.buffer 0 0x78) 1 0
    (cString buffer, ⟨spi, buffer⟩)
  else
    let (kept, spi) := receiveLoop wire port level (0, bus.buffer) spi
    (cString kept.2, ⟨spi, kept.2⟩)

end Bridge

/-! ### The modem's side -/

/-- A bridge as its receive FIFO: register 9 tells how many characters there are, register 0 takes
one out. -/
def fifo : WideWire (List UInt8) where
  tx := fun _ _ => id
  rx := fun _ => (0xff, ·)
  reset := id
  configure := fun _ => id
  txWord := fun _ _ => id
  rxWord := fun _ value chars =>
    if value = 0xC800 then (0xff00 ||| UInt16.ofNat chars.length, chars)
    else if value = 0x8000 then
      match chars with
      | [] => (0xff00, [])
      | char :: rest => (0xff00 ||| char.toUInt16, rest)
    else (0xff00, chars)
  txBare := fun _ => id

/-- What the modem sent since the last call: no more than the FIFO holds. -/
structure Drain where
  chars : List UInt8
  fits : chars.length ≤ 64

/-- The strings of one `GSM_receive` call after each drain. -/
def handed (port : Int) : List Drain → GsmBus (List UInt8) → List (List UInt8)
  | [], _ => []
  | drain :: rest, bus =>
      let arrived := { bus with spi := { bus.spi with wire := bus.spi.wire ++ drain.chars } }
      let (string, bus) := gsmReceive fifo port arrived
      string :: handed port rest bus

/-- The string for "nothing received". -/
def nothing : List UInt8 := [0x78]

/-- The strings that carry something. -/
def delivered (port : Int) (drains : List Drain) (bus : GsmBus (List UInt8)) : List (List UInt8) :=
  (handed port drains bus).filter (· ≠ nothing)

/-- All the modem sent. -/
def stream (drains : List Drain) : List UInt8 := (drains.map Drain.chars).flatten

/-! ### What a call reads -/

theorem word_low (char : UInt8) : (0xff00 ||| char.toUInt16 : UInt16).toUInt8 = char := by
  have bits : ∀ x : BitVec 8, (0xff00#16 ||| x.setWidth 16).setWidth 8 = x := by decide
  exact UInt8.toBitVec_inj.mp (bits char.toBitVec)

theorem level_low {n : Nat} (small : n < 256) :
    (0xff00 ||| UInt16.ofNat n : UInt16).toUInt8.toNat = n := by
  have same : UInt16.ofNat n = (UInt8.ofNat n).toUInt16 := by
    apply UInt16.toNat_inj.mp
    simp only [UInt16.toNat_ofNat', UInt8.toNat_toUInt16, UInt8.toNat_ofNat']
    omega
  rw [same, word_low, UInt8.toNat_ofNat']
  omega

theorem fxReadSpi2uart_fifo (port : Int) (value : UInt16) (spi : Spi (List UInt8)) :
    (fxReadSpi2uart fifo port value spi).1 = (fifo.rxWord .ncsa value spi.wire).1 ∧
    (fxReadSpi2uart fifo port value spi).2.wire = (fifo.rxWord .ncsa value spi.wire).2 := by
  have unchanged : (wcfxsSetcard fifo.toWire (portIndex port) spi).wire = spi.wire := by
    rw [wcfxsSetcard]
    split <;> rfl
  simp only [fxReadSpi2uart, unchanged]
  exact ⟨rfl, rfl⟩

/-- The loop takes its characters out of the FIFO one by one. -/
theorem receiveLoop_fifo (port : Int) (chars rest : List UInt8) (kept : Nat × Bytes)
    (spi : Spi (List UInt8)) (arrived : spi.wire = chars ++ rest) :
    (receiveLoop fifo port chars.length kept spi).1 = chars.foldl keepChar kept ∧
    (receiveLoop fifo port chars.length kept spi).2.wire = rest := by
  induction chars generalizing kept spi with
  | nil => exact ⟨rfl, arrived⟩
  | cons char chars ih =>
    obtain ⟨read, left⟩ := fxReadSpi2uart_fifo port 0x8000 spi
    rw [arrived] at read left
    have value : (fxReadSpi2uart fifo port 0x8000 spi).1.toUInt8 = char := by
      rw [read]
      exact word_low char
    simp only [List.length_cons, receiveLoop, value, List.foldl_cons]
    exact ih _ _ left

/-- **What a call makes of a drain.** -/
theorem gsmReceive_drain (port : Int) (bus : GsmBus (List UInt8)) (drain : Drain)
    (arrived : bus.spi.wire = drain.chars) :
    (gsmReceive fifo port bus).2.spi.wire = [] ∧
    (gsmReceive fifo port bus).1 = cString (gsmReceive fifo port bus).2.buffer ∧
    (gsmReceive fifo port bus).2.buffer =
      if drain.chars = [] then write (write bus.buffer 0 0x78) 1 0
      else (drain.chars.foldl keepChar (0, bus.buffer)).2 := by
  have bound := drain.fits
  obtain ⟨read, left⟩ := fxReadSpi2uart_fifo port 0xC800 bus.spi
  rw [arrived] at read left
  have level : (fxReadSpi2uart fifo port 0xC800 bus.spi).1.toUInt8.toNat = drain.chars.length := by
    rw [read]
    exact level_low (by omega)
  rw [gsmReceive]
  simp only [level, List.length_eq_zero_iff]
  by_cases empty : drain.chars = []
  · rw [if_pos empty, if_pos empty]
    exact ⟨left.trans empty, rfl, rfl⟩
  · rw [if_neg empty, if_neg empty]
    obtain ⟨kept, rest⟩ := receiveLoop_fifo port drain.chars [] (0, bus.buffer)
      (fxReadSpi2uart fifo port 0xC800 bus.spi).2 (by rw [left]; simp [fifo])
    exact ⟨rest, rfl, by rw [kept]⟩

/-! ### What a call leaves in the buffer -/

/-- A C string in the buffer: its characters, and the zero behind them. -/
theorem cString_eq {buffer : Bytes} {line : List UInt8} (short : line.length < bufferSize)
    (chars : ∀ i (inside : i < line.length), buffer i = line.get ⟨i, inside⟩) (stop : buffer line.length = 0)
    (nonzero : ∀ char ∈ line, char ≠ 0) : cString buffer = line := by
  have split : (List.range bufferSize).map buffer = line ++ 0 ::
      (List.range' (line.length + 1) (bufferSize - line.length - 1)).map buffer := by
    have ranges : List.range bufferSize = List.range line.length ++
        line.length :: List.range' (line.length + 1) (bufferSize - line.length - 1) := by
      have total : bufferSize = line.length + (bufferSize - line.length - 1 + 1) := by omega
      rw [← List.range'_succ, List.range'_eq_map_range, ← List.range_add, ← total]
    have front : (List.range line.length).map buffer = line :=
      List.ext_getElem (by simp) fun i _ inside => by simp [chars i inside]
    rw [ranges, List.map_append, List.map_cons, front, stop]
  rw [cString, split, List.takeWhile_append_of_pos (by simpa using nonzero)]
  simp

/-- What an empty FIFO leaves. -/
theorem cString_nothing (buffer : Bytes) : cString (write (write buffer 0 0x78) 1 0) = nothing := by
  refine cString_eq (by decide) (fun i inside => ?_) rfl (by simp [nothing])
  obtain rfl : i = 0 := by simpa [nothing] using inside
  rfl

/-- Separators before the first character are skipped. -/
theorem keepChar_lead {chars : List UInt8} (lead : ∀ char ∈ chars, isSeparator char = true)
    (buffer : Bytes) : chars.foldl keepChar (0, buffer) = (0, buffer) := by
  induction chars with
  | nil => rfl
  | cons char rest ih =>
    have first := lead char List.mem_cons_self
    rw [List.foldl_cons, show keepChar (0, buffer) char = (0, buffer) by simp [keepChar, first]]
    exact ih fun other member => lead other (List.mem_cons_of_mem _ member)

/-- Other characters are stored one after the other. -/
theorem keepChar_line {chars : List UInt8} (plain : ∀ char ∈ chars, isSeparator char = false)
    (start : Nat) (buffer : Bytes) :
    (chars.foldl keepChar (start, buffer)).1 = start + chars.length ∧
    (∀ i (inside : i < chars.length),
      (chars.foldl keepChar (start, buffer)).2 (start + i) = chars[i]) ∧
    ∀ a < start, (chars.foldl keepChar (start, buffer)).2 a = buffer a := by
  induction chars generalizing start buffer with
  | nil => simp
  | cons char rest ih =>
    have first := plain char List.mem_cons_self
    obtain ⟨count, stored, below⟩ := ih (fun other member => plain other (List.mem_cons_of_mem _ member))
      (start + 1) (write buffer start char)
    rw [List.foldl_cons, show keepChar (start, buffer) char = (start + 1, write buffer start char) by
      simp [keepChar, first]]
    refine ⟨by rw [count, List.length_cons]; omega, fun i inside => ?_, fun a low => ?_⟩
    · cases i with
      | zero => simpa using below start (by omega)
      | succ i =>
        have found := stored i (by simpa using inside)
        rw [show start + (i + 1) = start + 1 + i by omega, found]
        rfl
    · rw [below a (by omega)]
      exact write_of_ne (by omega)

/-- Separators after a character end the string. -/
theorem keepChar_trail {chars : List UInt8} (trail : ∀ char ∈ chars, isSeparator char = true)
    {start : Nat} (some : 0 < start) (buffer : Bytes) :
    (∀ a < start, (chars.foldl keepChar (start, buffer)).2 a = buffer a) ∧
      (chars ≠ [] → (chars.foldl keepChar (start, buffer)).2 start = 0) := by
  induction chars generalizing start buffer with
  | nil => simp
  | cons char rest ih =>
    have first := trail char List.mem_cons_self
    obtain ⟨below, -⟩ := ih (fun other member => trail other (List.mem_cons_of_mem _ member))
      (Nat.succ_pos start) (write buffer start 0)
    rw [List.foldl_cons, show keepChar (start, buffer) char = (start + 1, write buffer start 0) by
      simp [keepChar, first, some]]
    refine ⟨fun a low => ?_, fun _ => ?_⟩
    · rw [below a (by omega)]
      exact write_of_ne (by omega)
    · rw [below start (by omega)]
      simp

/-- A whole line in the drain: separators, the line, and separators again. -/
structure WholeLine (drain line : List UInt8) : Prop where
  shape : ∃ before after, drain = before ++ line ++ after ∧ after ≠ [] ∧
    (∀ char ∈ before, isSeparator char = true) ∧ (∀ char ∈ after, isSeparator char = true) ∧
    line.length + after.length ≤ bufferSize
  nonempty : line ≠ []
  plain : ∀ char ∈ line, isSeparator char = false ∧ char ≠ 0

/-- **A whole line is the string the call returns.** -/
theorem WholeLine.cString {drain line : List UInt8} (whole : WholeLine drain line) (buffer : Bytes) :
    cString (drain.foldl keepChar (0, buffer)).2 = line := by
  obtain ⟨before, after, rfl, ended, lead, trail, room⟩ := whole.shape
  have some : 0 < line.length := List.length_pos_iff.mpr whole.nonempty
  have behind : 0 < after.length := List.length_pos_iff.mpr ended
  obtain ⟨count, stored, -⟩ := keepChar_line (fun char member => (whole.plain char member).1) 0 buffer
  rw [List.foldl_append, List.foldl_append, keepChar_lead lead]
  generalize line.foldl keepChar (0, buffer) = kept at count stored ⊢
  obtain ⟨length, kept⟩ := kept
  obtain rfl : length = line.length := by simpa using count
  obtain ⟨below, stop⟩ := keepChar_trail trail some kept
  refine cString_eq (by omega) (fun i inside => ?_) (stop ended)
    fun char member => (whole.plain char member).2
  rw [below i inside]
  simpa using stored i inside

/-! ### Runs of drains -/

/-- What the static buffer can take: nothing; only separators while it says "nothing received"; or
one whole line that does not say so. -/
def Clean (stale : List UInt8) (drain : List UInt8) : Prop :=
  drain = [] ∨
  ((∀ char ∈ drain, isSeparator char = true) ∧ stale = nothing) ∨
  ∃ line, WholeLine drain line ∧ line ≠ nothing

/-- Every drain of a run meets the buffer clean. -/
def CleanRun (port : Int) : List Drain → GsmBus (List UInt8) → Prop
  | [], _ => True
  | drain :: rest, bus =>
      let arrived := { bus with spi := { bus.spi with wire := bus.spi.wire ++ drain.chars } }
      Clean (cString bus.buffer) drain.chars ∧ CleanRun port rest (gsmReceive fifo port arrived).2

/-- One clean drain: its string, unless "nothing received", is its one line, and no line is left
unfinished. -/
theorem Clean.step {stale : Bytes} {drain : List UInt8} (clean : Clean (cString stale) drain) :
    [Gsm.cString (if drain = [] then write (write stale 0 0x78) 1 0
        else (drain.foldl keepChar (0, stale)).2)].filter (· ≠ nothing) =
      Text.finish isSeparator [] drain ∧ Text.unfinished isSeparator [] drain = [] := by
  rcases clean with rfl | ⟨separators, old⟩ | ⟨line, whole, different⟩
  · simp [cString_nothing, Text.finish, Text.unfinished]
  · obtain ⟨none, rest⟩ := Text.finish_separators isSeparator separators
    rw [none, keepChar_lead separators]
    refine ⟨?_, rest⟩
    split
    · simp [cString_nothing]
    · simp [old]
  · obtain ⟨before, after, shape, ended, lead, trail, -⟩ := whole.shape
    have nonempty : drain ≠ [] := by
      rw [shape]
      simp [ended]
    rw [if_neg nonempty, whole.cString]
    obtain ⟨one, rest⟩ := Text.finish_line isSeparator lead
      (fun char member => (whole.plain char member).1) trail whole.nonempty ended
    rw [shape, one, rest]
    simp [different]

/-- **Lines arrive whole.** -/
theorem receive_lines (port : Int) (drains : List Drain) (bus : GsmBus (List UInt8))
    (empty : bus.spi.wire = []) (clean : CleanRun port drains bus) :
    delivered port drains bus = Text.lines isSeparator (stream drains) := by
  suffices delivered port drains bus = Text.lines isSeparator (stream drains) ∧
      Text.unfinished isSeparator [] (stream drains) = [] from this.1
  induction drains generalizing bus with
  | nil => exact ⟨rfl, rfl⟩
  | cons drain rest ih =>
    obtain ⟨first, later⟩ := clean
    have arrived : bus.spi.wire ++ drain.chars = drain.chars := by rw [empty, List.nil_append]
    obtain ⟨emptied, string, buffer⟩ := gsmReceive_drain port
      { bus with spi := { bus.spi with wire := bus.spi.wire ++ drain.chars } } drain arrived
    obtain ⟨restLines, restLeft⟩ := ih _ emptied later
    obtain ⟨now, left⟩ := first.step
    have whole : stream (drain :: rest) = drain.chars ++ stream rest := by simp [stream]
    rw [whole, Text.lines, Text.finish_append, Text.unfinished_append, left]
    refine ⟨?_, restLeft⟩
    rw [← now, ← buffer, ← string, ← Text.lines, ← restLines, delivered, delivered, ← List.filter_append]
    rfl

/-- The bus and the buffer before the first call. -/
def silentBus : GsmBus (List UInt8) := ⟨⟨-1, fun _ => 0, []⟩, fun _ => 0⟩

/-- A RING, an empty FIFO, a stray line end, and a NO CARRIER between line ends. -/
theorem receive_lines_ring :
    let drains : List Drain := [⟨[0x32, 0x0d], by decide⟩, ⟨[], by decide⟩, ⟨[0x0a], by decide⟩,
      ⟨[0x0d, 0x0a, 0x33, 0x0d, 0x0a], by decide⟩]
    delivered 0 drains silentBus = [[0x32], [0x33]] := by
  intro drains
  refine (receive_lines 0 drains silentBus rfl ⟨?_, .inl rfl, ?_, ?_, trivial⟩).trans rfl
  · exact .inr (.inr ⟨[0x32], ⟨⟨[], [0x0d], rfl, by simp, by simp, by simp [isSeparator], by decide⟩,
      by simp, by simp [isSeparator]⟩, by decide⟩)
  · exact .inr (.inl ⟨by simp [isSeparator], rfl⟩)
  · exact .inr (.inr ⟨[0x33], ⟨⟨[0x0d, 0x0a], [0x0d, 0x0a], rfl, by simp, by simp [isSeparator],
      by simp [isSeparator], by decide⟩, by simp, by simp [isSeparator]⟩, by decide⟩)

/-- A RING and a NO CARRIER in one drain: only the RING is handed on. -/
theorem second_line_lost :
    let drains : List Drain := [⟨[0x32, 0x0d, 0x33, 0x0d], by decide⟩]
    delivered 0 drains silentBus = [[0x32]] ∧
      Text.lines isSeparator (stream drains) = [[0x32], [0x33]] := by
  decide

end Baps.Gsm
