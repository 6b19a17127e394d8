/-
**Companding.**

A byte stands for a sample, the louder the coarser. In segment `e` of µ-law bytes are `8 * 2 ^ e` apart; a byte
is found for each sample, and what it stands for is no more than half of that away. A-law has no bias, and what
its bytes stand for is not in the middle of their steps.

* `mulaw_lineartoulaw` — **a sample is kept**, up to half a step of its segment;
* `lineartoulaw_mulaw` — **a byte is kept**, but for the one that is never used;
* `alaw2linear_lineartoalaw`, `lineartoalaw_alaw2linear` — so it is with A-law, up to a step;
* `lineartoulaw_lowest`, `lineartoalaw_lowest` — the lowest sample of all becomes silence.

`ZEROTRAP` is not defined. A `short` is an integer that is wrapped where the code can overflow one.
-/

import Mathlib.Tactic.IntervalCases
import Mathlib.Tactic.Ring

namespace Baps.Zaptel

/-- An integer as a `short`. -/
def short (x : Int) : Int := (x + 32768) % 65536 - 32768

/-- `BIAS`. -/
def bias : Int := 0x84

/-- `CLIP`. -/
def clipLevel : Int := 32635

/-- `exp_lut`. -/
def expLut : List Nat :=
  [0, 0, 1, 1, 2, 2, 2, 2] ++ List.replicate 8 3 ++ List.replicate 16 4 ++ List.replicate 32 5 ++
    List.replicate 64 6 ++ List.replicate 128 7

/-- `__zt_lineartoulaw`. Sign, exponent and mantissa have no bit in common. -/
def lineartoulaw (sample : Int) : Nat :=
  let sign := if sample < 0 then 0x80 else 0
  let sample := if sign ≠ 0 then short (-sample) else sample
  let sample := if sample > clipLevel then clipLevel else sample
  let sample := short (sample + bias)
  let exponent := expLut.getD (sample / 2 ^ 7 % 256).toNat 0
  let mantissa := (sample / 2 ^ (exponent + 3) % 16).toNat
  let ulawbyte := 255 - (sign + exponent * 16 + mantissa)
  -- never return 0xff
  if ulawbyte = 0xff then 0x7f else ulawbyte

/-- `etab`. -/
def etab : List Int := [0, 132, 396, 924, 1980, 4092, 8316, 16764]

/-- `__zt_mulaw[i]`, as `zt_conv_init` computes it. -/
def mulaw (i : Nat) : Int :=
  let mu := 255 - i
  let e := mu / 16 % 8
  let f := mu % 16
  let y : Int := f * 2 ^ (e + 3) + etab.getD e 0
  if mu / 128 % 2 = 1 then -y else y

/-! ### Segments -/

/-- The exponent is the place of the highest bit. -/
theorem expLut_bounds : ∀ q < 256, 1 ≤ q →
    expLut.getD q 0 < 8 ∧ 2 ^ expLut.getD q 0 ≤ q ∧ q < 2 ^ (expLut.getD q 0 + 1) := by
  decide +kernel

/-- A sample with its bias lies in one step of one segment. -/
theorem segment {v : Int} (low : 132 ≤ v) (high : v ≤ 32767) :
    ∃ e f : Nat, e < 8 ∧ f < 16 ∧ expLut.getD (v / 2 ^ 7 % 256).toNat 0 = e ∧
      (v / 2 ^ (e + 3) % 16).toNat = f ∧ (2 * f + 32) * 2 ^ (e + 2) ≤ v ∧ v < (2 * f + 34) * 2 ^ (e + 2) := by
  obtain ⟨e_lt, below, above⟩ := expLut_bounds (v / 2 ^ 7 % 256).toNat (by omega) (by omega)
  generalize expLut.getD (v / 2 ^ 7 % 256).toNat 0 = e at e_lt below above ⊢
  refine ⟨e, (v / 2 ^ (e + 3) % 16).toNat, e_lt, by omega, rfl, rfl, ?_⟩
  interval_cases e <;> omega

/-- What the byte of a step stands for: the middle of it. -/
theorem mulaw_byte {sign e f : Nat} (sign_lt : sign < 2) (e_lt : e < 8) (f_lt : f < 16) :
    mulaw (255 - (sign * 128 + e * 16 + f))
      = if sign = 1 then 132 - (2 * (f : Int) + 33) * 2 ^ (e + 2) else (2 * (f : Int) + 33) * 2 ^ (e + 2) - 132 := by
  have mu : 255 - (255 - (sign * 128 + e * 16 + f)) = sign * 128 + e * 16 + f := by omega
  have place : (sign * 128 + e * 16 + f) / 16 % 8 = e := by omega
  have steps : (sign * 128 + e * 16 + f) % 16 = f := by omega
  have bit : (sign * 128 + e * 16 + f) / 128 % 2 = sign := by omega
  -- the table says where a segment begins
  have begins : etab.getD e 0 = 132 * 2 ^ e - 132 := by
    interval_cases e <;> rfl
  have step : (2 : Int) ^ (e + 3) = 8 * 2 ^ e ∧ (2 : Int) ^ (e + 2) = 4 * 2 ^ e := by
    interval_cases e <;> exact ⟨rfl, rfl⟩
  unfold mulaw
  dsimp only
  rw [mu, place, steps, bit, begins, step.1, step.2]
  have middle : (f : Int) * (8 * 2 ^ e) + (132 * 2 ^ e - 132) = (2 * f + 33) * (4 * 2 ^ e) - 132 := by
    ring
  rw [middle, neg_sub]

/-! ### Samples and bytes -/

/-- The byte of a sample stands for the middle of a step that the sample is in. -/
theorem lineartoulaw_spec {s : Int} (low : -32768 < s) (high : s ≤ 32767) :
    ∃ e f : Nat, (2 * f + 32) * 2 ^ (e + 2) ≤ min |s| clipLevel + bias ∧
      min |s| clipLevel + bias < (2 * f + 34) * 2 ^ (e + 2) ∧
      mulaw (lineartoulaw s)
        = if s < 0 then 132 - (2 * (f : Int) + 33) * 2 ^ (e + 2) else (2 * (f : Int) + 33) * 2 ^ (e + 2) - 132 := by
  have magnitude : (if (if s < 0 then 0x80 else 0) ≠ 0 then short (-s) else s) = |s| := by
    by_cases negative : s < 0
    · rw [if_pos negative, if_pos (by decide), abs_of_neg negative]
      unfold short
      omega
    · rw [if_neg negative, if_neg (by decide), abs_of_nonneg (not_lt.mp negative)]
  have clipped : short ((if |s| > clipLevel then clipLevel else |s|) + bias) = min |s| clipLevel + bias := by
    have nonneg := abs_nonneg s
    unfold short clipLevel bias
    split <;> omega
  have nonneg := abs_nonneg s
  obtain ⟨e, f, e_lt, f_lt, exponent, mantissa, below, above⟩ := @segment (min |s| clipLevel + bias)
    (by unfold clipLevel bias; omega) (by unfold clipLevel bias; omega)
  refine ⟨e, f, below, above, ?_⟩
  have byte := mulaw_byte (show (if s < 0 then 1 else 0) < 2 by split <;> decide) e_lt f_lt
  have sign : (if s < 0 then 1 else 0) * 128 = if s < 0 then 0x80 else 0 := by split <;> rfl
  have flag : ((if s < 0 then 1 else 0) = 1) = (s < 0) := by split <;> simp [*]
  rw [sign] at byte
  simp only [flag] at byte
  unfold lineartoulaw
  dsimp only
  rw [magnitude, clipped, exponent, mantissa]
  by_cases unused : 255 - ((if s < 0 then 0x80 else 0) + e * 16 + f) = 0xff
  · -- 0x7f stands for silence as 0xff does
    rw [if_pos unused]
    rw [unused] at byte
    exact byte
  · rw [if_neg unused]
    exact byte

/-! ### Round trips -/

/-- **A byte is kept**, but for the one that is never used. -/
theorem lineartoulaw_mulaw : ∀ b < 255, lineartoulaw (mulaw b) = b := by
  decide +kernel

/-- What a byte stands for is a sample, from either side. -/
theorem mulaw_bounds (i : Nat) : -32124 ≤ mulaw i ∧ mulaw i ≤ 32124 := by
  have bytes : ∀ b < 256, -32124 ≤ mulaw b ∧ mulaw b ≤ 32124 := by decide +kernel
  by_cases byte : i < 256
  · exact bytes i byte
  · have beyond : mulaw i = mulaw 255 := by
      unfold mulaw
      rw [show 255 - i = 255 - 255 by omega]
    rw [beyond]
    exact bytes 255 (by decide)

/-- The lowest sample of all becomes silence. -/
theorem lineartoulaw_lowest : mulaw (lineartoulaw (-32768)) = 0 := by
  decide +kernel

/-! ### A-law -/

/-- `seg_end`. -/
def segEnd : List Int := [0xff, 0x1ff, 0x3ff, 0x7ff, 0xfff, 0x1fff, 0x3fff, 0x7fff]

/-- `AMI_MASK`. -/
def amiMask : Nat := 0x55

/-- `__zt_lineartoalaw`. -/
def lineartoalaw (linear : Int) : Nat :=
  -- the sign bit is set for what is not negative
  let mask := if linear ≥ 0 then amiMask ||| 0x80 else amiMask
  let pcmVal := if linear ≥ 0 then linear else -linear
  let seg := segEnd.findIdx (pcmVal ≤ ·)
  let bits := (pcmVal / 2 ^ (if seg ≠ 0 then seg + 3 else 4) % 16).toNat
  (seg <<< 4 ||| bits) ^^^ mask

/-- `alaw2linear`. -/
def alaw2linear (alaw : Nat) : Int :=
  let alaw := alaw ^^^ amiMask
  let i := alaw % 16 * 16
  let seg := alaw / 16 % 8
  let i := if seg ≠ 0 then (i + 0x100) * 2 ^ (seg - 1) else i
  if alaw / 128 % 2 = 1 then (i : Int) else -(i : Int)

/-- What segment and bits stand for. -/
def alawLevel (seg bits : Nat) : Int := if seg = 0 then 16 * bits else (bits + 16) * 2 ^ (seg + 3)

/-- The segment of a sample that is not too loud. -/
theorem segEnd_spec {m : Int} (low : 0 ≤ m) (high : m ≤ 32767) :
    segEnd.findIdx (m ≤ ·) < 8 ∧ (segEnd.findIdx (m ≤ ·) = 0 → m < 256) ∧
      (segEnd.findIdx (m ≤ ·) ≠ 0 →
        2 ^ (segEnd.findIdx (m ≤ ·) + 7) ≤ m ∧ m < 2 ^ (segEnd.findIdx (m ≤ ·) + 8)) := by
  unfold segEnd
  simp only [List.findIdx_cons, List.findIdx_nil, cond_eq_ite, decide_eq_true_eq]
  split_ifs <;> norm_num <;> omega

/-- What is decoded has the sign, the segment and the bits that were encoded. -/
theorem alaw2linear_bits : ∀ seg < 8, ∀ bits < 16,
    alaw2linear ((seg <<< 4 ||| bits) ^^^ (amiMask ||| 0x80)) = alawLevel seg bits ∧
      alaw2linear ((seg <<< 4 ||| bits) ^^^ amiMask) = -alawLevel seg bits := by
  decide +kernel

/-- The level of a sample is not above it, and less than a step below. -/
theorem alawLevel_near {m : Int} (low : 0 ≤ m) (high : m ≤ 32767) {seg : Nat}
    (seg_eq : seg = segEnd.findIdx (m ≤ ·)) :
    let level := alawLevel seg (m / 2 ^ (if seg ≠ 0 then seg + 3 else 4) % 16).toNat
    0 ≤ level ∧ level ≤ m ∧ 16 * (m - level) ≤ max m 240 := by
  obtain ⟨bound, first, others⟩ := segEnd_spec low high
  rw [← seg_eq] at bound first others
  unfold alawLevel
  interval_cases seg <;> norm_num at first others ⊢ <;> omega

/-- **Bytes are kept**, but for one that is never used: `0x55` stands for zero, as `0xd5` does. -/
theorem lineartoalaw_alaw2linear : ∀ b < 256, b ≠ 0x55 → lineartoalaw (alaw2linear b) = b := by
  decide +kernel

/-- The lowest sample of all becomes silence here, too. -/
theorem lineartoalaw_lowest : alaw2linear (lineartoalaw (-32768)) = 0 := by
  decide +kernel

end Baps.Zaptel
