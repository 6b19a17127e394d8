/-
**The encoder, from linear samples to G.729.**

`lintog729Framein` puts samples behind those in `pcmBuf`, while they stay fewer than 8000;
`lintog729Frameout` encodes what is there in blocks of 80 and moves the rest to the front. The library is
a function with a state, from 80 samples to the words of 80 bits.

* `encodeLoop_front` — what the loop does to any buffer: all blocks are encoded, and there is room for
  their bytes.
* `Encoding` — **what holds after any calls**; `Encoding.framein` and `Encoding.frameout` keep it.
* `encoder_runs` — **no sample is lost, repeated or moved**.
-/

import Baps.Codec.G729
import Baps.Codec.Stream

namespace Baps.Codec

open Memory

/-! ### The code -/

/-- A frame of linear samples: `datalen / 2` of them in `data`. -/
structure SlinFrame where
  data : List Short
  samples : Int

/-- An even `datalen`. -/
def SlinFrame.datalen (f : SlinFrame) : Nat := 2 * f.data.length

variable {σ : Type}

/-- `lintog729_framein`. -/
def lintog729Framein (pvt : Pvt σ) (f : SlinFrame) : Option (Int × Pvt σ) :=
  if pvt.tail + f.datalen / 2 < 8000 then do
    let pcmBuf ← store pvt.pcmBuf pvt.tail f.data
    some (0, { pvt with
      pcmBuf := pcmBuf
      tail := pvt.tail + f.datalen / 2
      samples := pvt.samples + f.samples })
  else some (-1, pvt)

/-- Copy the frame to workspace, encode it, and pack it as frame `x`. -/
def encodeFrame (enc : G729Enc σ) (x : Nat) (pvt : Pvt σ) : Option (Pvt σ) := do
  let tmpPcm ← load pvt.pcmBuf.toList 0 80
  let encoded := enc pvt.inst tmpPcm
  let bitstreamBuf ← store pvt.bitstreamBuf (x * 10) (pack encoded.2)
  some { pvt with inst := encoded.1, bitstreamBuf := bitstreamBuf }

/-- The `memmove` of the `tail` samples that are left. -/
def dropFrame (pcmBuf : List.Vector Short 8000) (tail : Nat) : Option (List.Vector Short 8000) :=
  if tail = 0 then some pcmBuf
  else do
    let rest ← load pcmBuf.toList 80 tail
    store pcmBuf 0 rest.toList

/-- The loop of `lintog729_frameout`: the number of frames, whether the loop was broken off for want of
buffer space, and the structure. -/
def encodeLoop (enc : G729Enc σ) (x : Nat) (pvt : Pvt σ) : Option (Nat × Bool × Pvt σ) :=
  if pvt.tail < 80 then some (x, false, pvt)
  else if (x + 1) * 10 ≥ 1000 then some (x, true, pvt)
  else do
    let encoded ← encodeFrame enc x pvt
    let tail := pvt.tail - 80
    let pcmBuf ← dropFrame encoded.pcmBuf tail
    encodeLoop enc (x + 1) { encoded with tail := tail, pcmBuf := pcmBuf }
termination_by pvt.tail

/-- What `lintog729_frameout` returns and does. -/
structure FrameOut (σ : Type) where
  frame : Option AstFrame
  brokeOff : Bool
  pvt : Pvt σ

/-- `lintog729_frameout`. -/
def lintog729Frameout (enc : G729Enc σ) (pvt : Pvt σ) : Option (FrameOut σ) :=
  if pvt.tail < 80 then some ⟨none, false, pvt⟩
  else do
    let (x, brokeOff, looped) ← encodeLoop enc 0 pvt
    let f : AstFrame := ⟨.g729a, x * 10, x * 80, .bitstreamBuf⟩
    some ⟨some f, brokeOff, { looped with f := f }⟩

/-- The bytes of a frame that points to `bitstream_buf`. -/
def Pvt.bytes (pvt : Pvt σ) (f : AstFrame) : List Octet := front pvt.bitstreamBuf f.datalen

/-! ### The loop -/

section Loop

variable {x tail : Nat}

/-- The encoder with its bits packed: 80 samples to ten bytes. -/
def encodeBlock (enc : G729Enc σ) (state : σ) (block : List.Vector Short 80) : σ × List Octet :=
  ((enc state block).1, octets 10 (isSet (enc state block).2))

/-- **One frame**: its bytes come behind those of the frames before. -/
theorem encodeFrame_front (enc : G729Enc σ) (pvt : Pvt σ) (room : (x + 1) * 10 ≤ 1000) :
    ∃ block bitstreamBuf, load pvt.pcmBuf.toList 0 80 = some block ∧
      encodeFrame enc x pvt =
        some { pvt with inst := (encodeBlock enc pvt.inst block).1, bitstreamBuf := bitstreamBuf } ∧
      front bitstreamBuf ((x + 1) * 10) =
        front pvt.bitstreamBuf (x * 10) ++ (encodeBlock enc pvt.inst block).2 := by
  have whole : 0 + 80 ≤ 8000 := by decide
  obtain ⟨block, loaded, -⟩ := load_front pvt.pcmBuf whole
  have size : (pack (enc pvt.inst block).2).length = 10 := length_pack
  have fits : x * 10 + (pack (enc pvt.inst block).2).length ≤ 1000 := by omega
  obtain ⟨bitstreamBuf, stored, bytes⟩ := store_front pvt.bitstreamBuf fits
  refine ⟨block, bitstreamBuf, loaded, ?_, ?_⟩
  · simp only [encodeFrame, loaded, stored, Option.bind_eq_bind, Option.bind_some]
    rfl
  · rw [Nat.succ_mul, encodeBlock, ← pack_eq, ← bytes, size]

/-- **The move**: a block is gone from the front. -/
theorem dropFrame_front (pcmBuf : List.Vector Short 8000) (inside : 80 + tail ≤ 8000) :
    ∃ block moved, load pcmBuf.toList 0 80 = some block ∧ dropFrame pcmBuf tail = some moved ∧
      front pcmBuf (80 + tail) = block.toList ++ front moved tail := by
  have whole : 0 + 80 ≤ 8000 := by decide
  obtain ⟨block, loaded, begins⟩ := load_front pcmBuf whole
  have first : front pcmBuf 80 = block.toList := begins
  by_cases none_left : tail = 0
  · refine ⟨block, pcmBuf, loaded, if_pos none_left, ?_⟩
    rw [none_left, front_zero, List.append_nil]
    exact first
  · obtain ⟨rest, restLoaded, behind⟩ := load_front pcmBuf inside
    have size : rest.toList.length = tail := rest.toList_length
    have fits : 0 + rest.toList.length ≤ 8000 := by omega
    obtain ⟨moved, stored, moves⟩ := store_front pcmBuf fits
    refine ⟨block, moved, loaded, ?_, ?_⟩
    · rw [dropFrame, if_neg none_left, restLoaded]
      exact stored
    · rw [size, Nat.zero_add, front_zero, List.nil_append] at moves
      rw [behind, first, moves]

/-- **The loop encodes every block**, and is not broken off while the samples and the blocks already
encoded are fewer than 8000 samples. -/
theorem encodeLoop_front (enc : G729Enc σ) (x : Nat) (pvt : Pvt σ) (room : pvt.tail + x * 80 < 8000) :
    ∃ blocks looped, encodeLoop enc x pvt = some (x + blocks.length, false, looped) ∧
      looped.tail < 80 ∧ looped.samples = pvt.samples ∧
      front pvt.pcmBuf pvt.tail = blocks.flatMap List.Vector.toList ++ front looped.pcmBuf looped.tail ∧
      looped.inst = (through (encodeBlock enc) pvt.inst blocks).1 ∧
      front looped.bitstreamBuf ((x + blocks.length) * 10) =
        front pvt.bitstreamBuf (x * 10) ++ (through (encodeBlock enc) pvt.inst blocks).2 := by
  induction remaining : pvt.tail using Nat.strong_induction_on generalizing x pvt with
  | _ tail ih =>
    subst remaining
    rw [encodeLoop]
    by_cases few : pvt.tail < 80
    · rw [if_pos few]
      exact ⟨[], pvt, rfl, few, rfl, rfl, rfl, (List.append_nil _).symm⟩
    · have frames : ¬ (x + 1) * 10 ≥ 1000 := by omega
      rw [if_neg few, if_neg frames]
      obtain ⟨block, bitstreamBuf, loaded, encoded, bytes⟩ :=
        encodeFrame_front enc pvt (show (x + 1) * 10 ≤ 1000 by omega)
      have split : 80 + (pvt.tail - 80) = pvt.tail := by omega
      obtain ⟨block', moved, loaded', dropped, samples⟩ :=
        dropFrame_front pvt.pcmBuf (show 80 + (pvt.tail - 80) ≤ 8000 by omega)
      obtain rfl : block = block' := Option.some.inj (loaded.symm.trans loaded')
      rw [split] at samples
      simp only [encoded, dropped, Option.bind_eq_bind, Option.bind_some]
      obtain ⟨blocks, looped, run, short, count, rest, inst, out⟩ := ih (pvt.tail - 80) (by omega) (x + 1)
        { pvt with
          inst := (encodeBlock enc pvt.inst block).1
          bitstreamBuf := bitstreamBuf
          tail := pvt.tail - 80
          pcmBuf := moved } (by simp only; omega) rfl
      have number : x + 1 + blocks.length = x + (block :: blocks).length := by
        rw [List.length_cons]
        omega
      refine ⟨block :: blocks, looped, ?_, short, count, ?_, inst, ?_⟩
      · rw [run, number]
      · rw [samples, List.flatMap_cons, List.append_assoc, ← rest]
      · rw [← number, out, bytes, through_cons, List.append_assoc]

end Loop

/-! ### Any calls -/

/-- The calls of an encoder. -/
inductive EncoderCall
  | framein (f : SlinFrame)
  | frameout

/-- An encoder, the samples it has accepted and the bytes it has returned. -/
structure EncoderTrace (σ : Type) where
  pvt : Pvt σ
  accepted : List Short
  returned : List Octet
  brokeOff : Bool

/-- A new encoder. -/
def newEncoder (reset : σ) (pvt : Pvt σ) : EncoderTrace σ := ⟨create reset pvt, [], [], false⟩

/-- One call. -/
def encoderStep (enc : G729Enc σ) (trace : EncoderTrace σ) : EncoderCall → Option (EncoderTrace σ)
  | .framein f => do
      let (result, pvt) ← lintog729Framein trace.pvt f
      some { trace with
        pvt := pvt
        accepted := if result = 0 then trace.accepted ++ f.data else trace.accepted }
  | .frameout => do
      let out ← lintog729Frameout enc trace.pvt
      some { trace with
        pvt := out.pvt
        returned := trace.returned ++ out.frame.elim [] out.pvt.bytes
        brokeOff := trace.brokeOff || out.brokeOff }

/-- Calls in order. -/
def encoderRun (enc : G729Enc σ) (calls : List EncoderCall)
    (trace : EncoderTrace σ) : Option (EncoderTrace σ) :=
  calls.foldlM (encoderStep enc) trace

/-- **What holds after any calls.** -/
structure Encoding (enc : G729Enc σ) (reset : σ) (trace : EncoderTrace σ) : Prop where
  room : trace.pvt.tail < 8000
  whole : trace.brokeOff = false
  blocks : ∃ blocks : List (List.Vector Short 80),
    trace.accepted =
        blocks.flatMap List.Vector.toList ++ front trace.pvt.pcmBuf trace.pvt.tail ∧
      trace.pvt.inst = (through (encodeBlock enc) reset blocks).1 ∧
      trace.returned = (through (encodeBlock enc) reset blocks).2

section Runs

variable {enc : G729Enc σ} {reset : σ} {pvt : Pvt σ} {trace : EncoderTrace σ} {f : SlinFrame}

theorem datalen_half (f : SlinFrame) : f.datalen / 2 = f.data.length := by
  unfold SlinFrame.datalen
  omega

/-- Samples that are accepted come behind the others. -/
theorem framein_accepts (fits : pvt.tail + f.data.length < 8000) :
    ∃ next, lintog729Framein pvt f = some (0, next) ∧ next.tail = pvt.tail + f.data.length ∧
      next.inst = pvt.inst ∧ front next.pcmBuf next.tail = front pvt.pcmBuf pvt.tail ++ f.data := by
  have inside : pvt.tail + f.data.length ≤ 8000 := fits.le
  obtain ⟨pcmBuf, stored, samples⟩ := store_front pvt.pcmBuf inside
  rw [lintog729Framein, datalen_half, if_pos fits, stored]
  exact ⟨_, rfl, rfl, rfl, samples⟩

/-- Samples that are refused change nothing. -/
theorem framein_refuses (full : ¬ pvt.tail + f.data.length < 8000) :
    lintog729Framein pvt f = some (-1, pvt) := by
  rw [lintog729Framein, datalen_half, if_neg full]

theorem frameout_few (few : pvt.tail < 80) : lintog729Frameout enc pvt = some ⟨none, false, pvt⟩ :=
  if_pos few

/-- **What `lintog729_frameout` returns**: the bytes of all blocks. -/
theorem frameout_front (enc : G729Enc σ) (room : pvt.tail < 8000) :
    ∃ (out : FrameOut σ) (blocks : List (List.Vector Short 80)),
      lintog729Frameout enc pvt = some out ∧ out.brokeOff = false ∧ out.pvt.tail < 80 ∧
      front pvt.pcmBuf pvt.tail =
        blocks.flatMap List.Vector.toList ++ front out.pvt.pcmBuf out.pvt.tail ∧
      out.pvt.inst = (through (encodeBlock enc) pvt.inst blocks).1 ∧
      out.frame.elim [] out.pvt.bytes = (through (encodeBlock enc) pvt.inst blocks).2 := by
  by_cases few : pvt.tail < 80
  · exact ⟨_, [], frameout_few few, rfl, few, rfl, rfl, rfl⟩
  · obtain ⟨blocks, looped, run, short, -, samples, inst, bytes⟩ :=
      encodeLoop_front enc 0 pvt (by omega)
    rw [Nat.zero_add] at run bytes
    rw [Nat.zero_mul, front_zero, List.nil_append] at bytes
    rw [lintog729Frameout, if_neg few, run]
    exact ⟨_, blocks, rfl, rfl, short, samples, inst, bytes⟩

theorem Encoding.framein (encoding : Encoding enc reset trace) (f : SlinFrame) :
    ∃ next, encoderStep enc trace (.framein f) = some next ∧ Encoding enc reset next := by
  obtain ⟨room, whole, blocks, accepted, inst, returned⟩ := encoding
  by_cases fits : trace.pvt.tail + f.data.length < 8000
  · obtain ⟨pvt, result, tail, sameInst, samples⟩ := framein_accepts fits
    refine ⟨{ trace with pvt := pvt, accepted := trace.accepted ++ f.data }, ?_, ?_, whole, blocks, ?_,
      sameInst.trans inst, returned⟩
    · simp [encoderStep, result]
    · exact tail ▸ fits
    · rw [accepted, List.append_assoc, ← samples]
  · refine ⟨trace, ?_, room, whole, blocks, accepted, inst, returned⟩
    simp [encoderStep, framein_refuses fits]

theorem Encoding.frameout (encoding : Encoding enc reset trace) :
    ∃ next, encoderStep enc trace .frameout = some next ∧ Encoding enc reset next := by
  obtain ⟨room, whole, blocks, accepted, inst, returned⟩ := encoding
  obtain ⟨out, more, result, notBroken, short, samples, nextInst, bytes⟩ := frameout_front enc room
  have both := through_append (f := encodeBlock enc) reset blocks more
  rw [← inst] at both
  refine ⟨{ trace with
      pvt := out.pvt
      returned := trace.returned ++ out.frame.elim [] out.pvt.bytes
      brokeOff := trace.brokeOff || out.brokeOff }, ?_, ?_, ?_, blocks ++ more, ?_, ?_, ?_⟩
  · simp [encoderStep, result]
  · exact Nat.lt_trans short (by decide)
  · rw [whole, notBroken]
    rfl
  · rw [accepted, samples, List.flatMap_append, List.append_assoc]
  · rw [both]
    exact nextInst
  · rw [both, bytes, returned]

theorem Encoding.step (encoding : Encoding enc reset trace) (call : EncoderCall) :
    ∃ next, encoderStep enc trace call = some next ∧ Encoding enc reset next := by
  cases call with
  | framein f => exact encoding.framein f
  | frameout => exact encoding.frameout

/-- **Any calls.** -/
theorem Encoding.run (encoding : Encoding enc reset trace) (calls : List EncoderCall) :
    ∃ last, encoderRun enc calls trace = some last ∧ Encoding enc reset last :=
  foldlM_keeps (P := fun _ => Encoding enc reset) (fun _ _ call now => now.step call) [] encoding calls

/-- **The encoder neither loses, repeats nor reorders samples**, whatever the calls: the bytes returned are
those of the first blocks accepted, with one state of the library, and the other samples wait in `pcmBuf`. A
refused frame changes nothing, the loop is never broken off, and every `frameout` leaves fewer than 80. -/
theorem encoder_runs (enc : G729Enc σ) (reset : σ) (pvt : Pvt σ) (calls : List EncoderCall) :
    ∃ trace, encoderRun enc calls (newEncoder reset pvt) = some trace ∧
      (∃ blocks : List (List.Vector Short 80),
        trace.accepted =
            blocks.flatMap List.Vector.toList ++ front trace.pvt.pcmBuf trace.pvt.tail ∧
          trace.pvt.inst = (through (encodeBlock enc) reset blocks).1 ∧
          trace.returned = (through (encodeBlock enc) reset blocks).2) ∧
      trace.pvt.tail < 8000 ∧ trace.brokeOff = false ∧
      (∀ f next, lintog729Framein trace.pvt f = some (-1, next) → next = trace.pvt) ∧
      ∃ out, lintog729Frameout enc trace.pvt = some out ∧ out.pvt.tail < 80 := by
  have begins : Encoding enc reset (newEncoder reset pvt) :=
    ⟨Nat.zero_lt_succ 7999, rfl, [], rfl, rfl, rfl⟩
  obtain ⟨trace, run, encoding⟩ := begins.run calls
  refine ⟨trace, run, encoding.blocks, encoding.room, encoding.whole, fun f next refused => ?_, ?_⟩
  · by_cases fits : trace.pvt.tail + f.data.length < 8000
    · obtain ⟨accepted, result, -⟩ := framein_accepts fits
      rw [result] at refused
      have code : (0 : Int) = -1 := congrArg Prod.fst (Option.some.inj refused)
      exact absurd code (by decide)
    · rw [framein_refuses fits] at refused
      exact (congrArg Prod.snd (Option.some.inj refused)).symm
  · obtain ⟨out, -, result, -, short, -⟩ := frameout_front enc encoding.room
    exact ⟨out, result, short⟩

end Runs

end Baps.Codec
