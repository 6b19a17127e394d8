/-
**The decoder, from G.729 to linear samples.**

`g729tolinFramein` decodes the ten bytes of every frame of a packet behind the samples in `pcmBuf`, and
gives up when 80 more would not stay below 8000; `g729tolinFrameout` hands out what is there. The library
is a function with a state, from the words of 80 bits to 80 samples.

* `decodeLoop_frame` — one frame; `decodeLoop_front` — what a packet of whole frames does to any buffer.
* `Decoding` — **what holds after calls without a refusal**; `Decoding.framein` and `Decoding.frameout`
  keep it.
* `decoder_runs` — **the samples depend on the frames only, not on their packets**.
-/

import Baps.Codec.G729
import Baps.Codec.Stream

namespace Baps.Codec

open Memory

variable {σ : Type}

/-! ### The code -/

/-- The loop of `g729tolin_framein`, from byte `x` of the packet on. -/
def decodeLoop (dec : G729Dec σ) (data : List Octet) (x : Nat) (pvt : Pvt σ) : Option (Int × Pvt σ) :=
  if x < data.length then
    -- two bytes are a VAD frame
    let frameSize := if data.length - x = 2 then 2 else 10
    if pvt.tail + 80 < 8000 then do
      let bitStream ← load data x 10
      let decoded := dec pvt.inst (unpack bitStream)
      let pcmBuf ← store pvt.pcmBuf pvt.tail decoded.2.toList
      decodeLoop dec data (x + frameSize)
        { pvt with
          inst := decoded.1
          pcmBuf := pcmBuf
          samples := pvt.samples + 80
          tail := pvt.tail + 80 }
    else some (-1, pvt)
  else some (0, pvt)
termination_by data.length - x
decreasing_by
  split
  · omega
  · omega

/-- `g729tolin_framein`. -/
def g729tolinFramein (dec : G729Dec σ) (pvt : Pvt σ) (data : List Octet) : Option (Int × Pvt σ) :=
  decodeLoop dec data 0 pvt

/-- `g729tolin_frameout`. -/
def g729tolinFrameout (pvt : Pvt σ) : Option AstFrame × Pvt σ :=
  if pvt.tail = 0 then (none, pvt)
  else
    let f : AstFrame := ⟨.slinear, pvt.tail * 2, pvt.tail, .pcmBuf⟩
    (some f, { pvt with f := f, tail := 0 })

/-- The samples of a frame that points to `pcm_buf`. -/
def Pvt.linear (pvt : Pvt σ) (f : AstFrame) : List Short := front pvt.pcmBuf (f.datalen / 2)

/-! ### A packet of whole frames -/

section Packet

variable {pvt : Pvt σ}

/-- The decoder on the bytes of a frame: 80 bits to 80 samples. -/
def decodeFrame (dec : G729Dec σ) (state : σ) (frame : List.Vector Octet 10) : σ × List Short :=
  ((dec state (unpack frame)).1, (dec state (unpack frame)).2.toList)

/-- The bytes of frames. -/
def packet (frames : List (List.Vector Octet 10)) : List Octet := frames.flatMap List.Vector.toList

theorem length_packet (frames : List (List.Vector Octet 10)) :
    (packet frames).length = 10 * frames.length := by
  induction frames with
  | nil => rfl
  | cons frame rest ih =>
    rw [packet, List.flatMap_cons, List.length_append, List.Vector.toList_length]
    change 10 + (packet rest).length = _
    rw [ih, List.length_cons]
    omega

theorem packet_cons (frame : List.Vector Octet 10) (rest : List (List.Vector Octet 10)) :
    packet (frame :: rest) = frame.toList ++ packet rest := rfl

/-- A frame of ten bytes is not taken for a VAD frame. -/
theorem regular (before : List Octet) (frame : List.Vector Octet 10)
    (rest : List (List.Vector Octet 10)) :
    before.length < (before ++ packet (frame :: rest)).length ∧
      ¬ (before ++ packet (frame :: rest)).length - before.length = 2 := by
  rw [List.length_append, length_packet, List.length_cons]
  omega

/-- **A frame that fits** is decoded behind the samples that are there. -/
theorem decodeLoop_frame (dec : G729Dec σ)
    (before : List Octet) (frame : List.Vector Octet 10) (rest : List (List.Vector Octet 10))
    (pvt : Pvt σ) (fits : pvt.tail + 80 < 8000) :
    ∃ pcmBuf, decodeLoop dec (before ++ packet (frame :: rest)) before.length pvt =
        decodeLoop dec ((before ++ frame.toList) ++ packet rest) (before ++ frame.toList).length
          { pvt with
            inst := (decodeFrame dec pvt.inst frame).1
            pcmBuf := pcmBuf
            samples := pvt.samples + 80
            tail := pvt.tail + 80 } ∧
      front pcmBuf (pvt.tail + 80) =
        front pvt.pcmBuf pvt.tail ++ (decodeFrame dec pvt.inst frame).2 := by
  obtain ⟨more, notVad⟩ := regular before frame rest
  have loaded : load (before ++ packet (frame :: rest)) before.length 10 = some frame :=
    load_append before frame (packet rest)
  have count : (dec pvt.inst (unpack frame)).2.toList.length = 80 := List.Vector.toList_length _
  have inside : pvt.tail + (dec pvt.inst (unpack frame)).2.toList.length ≤ 8000 := by omega
  obtain ⟨pcmBuf, stored, samples⟩ := store_front pvt.pcmBuf inside
  rw [count] at samples
  have place : (before ++ frame.toList).length = before.length + 10 := by
    rw [List.length_append, frame.toList_length]
  have split : (before ++ frame.toList) ++ packet rest = before ++ packet (frame :: rest) := by
    rw [List.append_assoc, packet_cons]
  refine ⟨pcmBuf, ?_, samples⟩
  rw [decodeLoop, if_pos more, if_neg notVad, if_pos fits, loaded, place, split]
  simp only [Option.bind_eq_bind, Option.bind_some, stored]
  rfl

/-- **A frame that does not fit** is refused. -/
theorem decodeLoop_full (dec : G729Dec σ)
    (before : List Octet) (frame : List.Vector Octet 10) (rest : List (List.Vector Octet 10))
    (pvt : Pvt σ) (full : ¬ pvt.tail + 80 < 8000) :
    decodeLoop dec (before ++ packet (frame :: rest)) before.length pvt = some (-1, pvt) := by
  rw [decodeLoop, if_pos (regular before frame rest).1, if_neg full]

/-- **A packet of whole frames**: those that fit are decoded, in order, and it is refused just if some do
not. -/
theorem decodeLoop_front (dec : G729Dec σ)
    (before : List Octet) (frames : List (List.Vector Octet 10)) (pvt : Pvt σ)
    (room : pvt.tail < 8000) :
    ∃ result next decoded left, frames = decoded ++ left ∧
      decodeLoop dec (before ++ packet frames) before.length pvt = some (result, next) ∧
      (result = 0 ∧ left = [] ∨ result = -1 ∧ left ≠ [] ∧ ¬ next.tail + 80 < 8000) ∧
      next.tail < 8000 ∧ next.tail = pvt.tail + 80 * decoded.length ∧
      front next.pcmBuf next.tail =
        front pvt.pcmBuf pvt.tail ++ (through (decodeFrame dec) pvt.inst decoded).2 ∧
      next.inst = (through (decodeFrame dec) pvt.inst decoded).1 := by
  induction frames generalizing before pvt with
  | nil =>
    refine ⟨0, pvt, [], [], rfl, ?_, .inl ⟨rfl, rfl⟩, room, rfl, ?_, rfl⟩
    · rw [decodeLoop, if_neg]
      simp [packet]
    · exact (List.append_nil _).symm
  | cons frame rest ih =>
    by_cases fits : pvt.tail + 80 < 8000
    · obtain ⟨pcmBuf, step, samples⟩ := decodeLoop_frame dec before frame rest pvt fits
      obtain ⟨result, next, decoded, left, parts, run, verdict, small, tail, out, inst⟩ :=
        ih (before ++ frame.toList)
          { pvt with
            inst := (decodeFrame dec pvt.inst frame).1
            pcmBuf := pcmBuf
            samples := pvt.samples + 80
            tail := pvt.tail + 80 } fits
      refine ⟨result, next, frame :: decoded, left, by rw [parts, List.cons_append], step.trans run,
        verdict, small, ?_, ?_, inst⟩
      · rw [tail, List.length_cons]
        show pvt.tail + 80 + 80 * decoded.length = _
        omega
      · rw [out, samples, through_cons, List.append_assoc]
    · refine ⟨-1, pvt, [], frame :: rest, rfl, decodeLoop_full dec before frame rest pvt fits,
        .inr ⟨rfl, List.cons_ne_nil _ _, fits⟩, room, rfl, ?_, rfl⟩
      exact (List.append_nil _).symm

end Packet

/-! ### Any calls -/

/-- The calls of a decoder, with packets of whole frames. -/
inductive DecoderCall
  | framein (frames : List (List.Vector Octet 10))
  | frameout

/-- The frames that come in. -/
def DecoderCall.frames : DecoderCall → List (List.Vector Octet 10)
  | .framein frames => frames
  | .frameout => []

/-- A decoder, the samples it has returned, and whether it has returned `-1`. -/
structure DecoderTrace (σ : Type) where
  pvt : Pvt σ
  returned : List Short
  refused : Bool

/-- A new decoder. -/
def newDecoder (reset : σ) (pvt : Pvt σ) : DecoderTrace σ := ⟨create reset pvt, [], false⟩

/-- One call. -/
def decoderStep (dec : G729Dec σ) (trace : DecoderTrace σ) : DecoderCall → Option (DecoderTrace σ)
  | .framein frames => do
      let (result, pvt) ← g729tolinFramein dec trace.pvt (packet frames)
      some { trace with pvt := pvt, refused := trace.refused || result == -1 }
  | .frameout =>
      let out := g729tolinFrameout trace.pvt
      some { trace with
        pvt := out.2
        returned := trace.returned ++ out.1.elim [] out.2.linear }

/-- Calls in order. -/
def decoderRun (dec : G729Dec σ) (calls : List DecoderCall)
    (trace : DecoderTrace σ) : Option (DecoderTrace σ) :=
  calls.foldlM (decoderStep dec) trace

/-- **What holds after calls with these frames.** -/
structure Decoding (dec : G729Dec σ) (reset : σ)
    (stream : List (List.Vector Octet 10)) (trace : DecoderTrace σ) : Prop where
  room : trace.pvt.tail < 8000
  pending : trace.pvt.tail ≤ 80 * stream.length
  served : 80 * stream.length < 8000 → trace.refused = false
  samples : trace.refused = false →
    trace.returned ++ front trace.pvt.pcmBuf trace.pvt.tail =
        (through (decodeFrame dec) reset stream).2 ∧
      trace.pvt.inst = (through (decodeFrame dec) reset stream).1

section Runs

variable {dec : G729Dec σ} {reset : σ} {stream : List (List.Vector Octet 10)} {trace : DecoderTrace σ}

theorem Decoding.framein (decoding : Decoding dec reset stream trace)
    (frames : List (List.Vector Octet 10)) :
    ∃ next, decoderStep dec trace (.framein frames) = some next ∧
      Decoding dec reset (stream ++ frames) next := by
  obtain ⟨room, pending, served, samples⟩ := decoding
  obtain ⟨result, pvt, decoded, left, parts, run, verdict, small, tail, out, inst⟩ :=
    decodeLoop_front dec [] frames trace.pvt room
  have step : g729tolinFramein dec trace.pvt (packet frames) = some (result, pvt) := run
  have count : (stream ++ frames).length = stream.length + decoded.length + left.length := by
    rw [parts, List.length_append, List.length_append]
    omega
  refine ⟨{ trace with pvt := pvt, refused := trace.refused || result == -1 }, ?_, small, ?_, ?_, ?_⟩
  · simp [decoderStep, step]
  · rw [tail, count]
    omega
  · intro few
    rw [count] at few
    rcases verdict with ⟨rfl, -⟩ | ⟨-, some_left, full⟩
    · rw [served (by omega)]
      rfl
    · have left_pos := List.length_pos_iff.mpr some_left
      omega
  · intro notRefused
    rw [Bool.or_eq_false_iff] at notRefused
    obtain ⟨before, rfl⟩ : trace.refused = false ∧ left = [] := by
      refine ⟨notRefused.1, ?_⟩
      rcases verdict with ⟨-, none⟩ | ⟨rfl, -⟩
      · exact none
      · exact absurd notRefused.2 (by decide)
    obtain ⟨soFar, instSoFar⟩ := samples before
    rw [parts, List.append_nil, through_append, ← instSoFar, ← soFar, out]
    exact ⟨(List.append_assoc _ _ _).symm, inst⟩

theorem Decoding.frameout (decoding : Decoding dec reset stream trace) :
    ∃ next, decoderStep dec trace .frameout = some next ∧ Decoding dec reset stream next := by
  obtain ⟨room, pending, served, samples⟩ := decoding
  refine ⟨_, rfl, ?_⟩
  by_cases empty : trace.pvt.tail = 0
  · have nothing : g729tolinFrameout trace.pvt = (none, trace.pvt) := if_pos empty
    rw [nothing]
    refine ⟨room, pending, served, fun notRefused => ?_⟩
    rw [Option.elim_none, List.append_nil]
    exact samples notRefused
  · have all : g729tolinFrameout trace.pvt = _ := if_neg empty
    rw [all]
    refine ⟨Nat.zero_lt_succ 7999, Nat.zero_le _, served, fun notRefused => ?_⟩
    obtain ⟨soFar, inst⟩ := samples notRefused
    refine ⟨?_, inst⟩
    rw [← soFar, Option.elim_some, front_zero, List.append_nil]
    simp [Pvt.linear]

theorem Decoding.step (decoding : Decoding dec reset stream trace) (call : DecoderCall) :
    ∃ next, decoderStep dec trace call = some next ∧ Decoding dec reset (stream ++ call.frames) next := by
  cases call with
  | framein frames => exact decoding.framein frames
  | frameout => simpa [DecoderCall.frames] using decoding.frameout

/-- **Any calls.** -/
theorem Decoding.run (decoding : Decoding dec reset [] trace) (calls : List DecoderCall) :
    ∃ last, decoderRun dec calls trace = some last ∧
      Decoding dec reset (calls.flatMap DecoderCall.frames) last := by
  refine foldlM_keeps (P := fun past => Decoding dec reset (past.flatMap DecoderCall.frames))
    (fun past state call now => ?_) [] decoding calls
  rw [List.flatMap_append, List.flatMap_singleton]
  exact now.step call

theorem Decoding.begins (dec : G729Dec σ) (reset : σ)
    (pvt : Pvt σ) : Decoding dec reset [] (newDecoder reset pvt) :=
  ⟨Nat.zero_lt_succ 7999, Nat.zero_le _, fun _ => rfl, fun _ => ⟨rfl, rfl⟩⟩

/-- Fewer than a hundred frames are never refused. -/
theorem decoder_serves (dec : G729Dec σ) (reset : σ) (pvt : Pvt σ) (calls : List DecoderCall)
    (few : 80 * (calls.flatMap DecoderCall.frames).length < 8000) :
    ∃ trace, decoderRun dec calls (newDecoder reset pvt) = some trace ∧ trace.refused = false := by
  obtain ⟨trace, run, decoding⟩ := (Decoding.begins dec reset pvt).run calls
  exact ⟨trace, run, decoding.served few⟩

/-- **The samples depend on the frames only, not on their packets** or the places of the `frameout`s: what
has been returned and what waits in `pcmBuf` are the samples of all frames in order, 80 for each, with one
state of the library, as long as no packet was refused. Nothing is ever stored outside `pcmBuf`. -/
theorem decoder_runs (dec : G729Dec σ) (reset : σ) (pvt : Pvt σ) (calls : List DecoderCall) :
    ∃ trace, decoderRun dec calls (newDecoder reset pvt) = some trace ∧ trace.pvt.tail < 8000 ∧
      (trace.refused = false →
        trace.returned ++ front trace.pvt.pcmBuf trace.pvt.tail =
            (through (decodeFrame dec) reset (calls.flatMap DecoderCall.frames)).2 ∧
          (trace.returned ++ front trace.pvt.pcmBuf trace.pvt.tail).length =
            80 * (calls.flatMap DecoderCall.frames).length ∧
          trace.pvt.inst = (through (decodeFrame dec) reset (calls.flatMap DecoderCall.frames)).1) := by
  obtain ⟨trace, run, decoding⟩ := (Decoding.begins dec reset pvt).run calls
  refine ⟨trace, run, decoding.room, fun notRefused => ?_⟩
  obtain ⟨samples, inst⟩ := decoding.samples notRefused
  have each : ∀ state frame, (decodeFrame dec state frame).2.length = 80 := fun state frame =>
    List.Vector.toList_length _
  refine ⟨samples, ?_, inst⟩
  rw [samples, length_through each]

end Runs

end Baps.Codec
