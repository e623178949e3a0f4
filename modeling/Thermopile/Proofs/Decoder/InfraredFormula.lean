import Mathlib.Tactic.Ring
import Mathlib.Tactic.NormNum
import Thermopile.Proofs.Decoder.Compensation

namespace Thermopile

theorem Word.toInt_eq_toInt16 (w : Word) : w.toInt = w.toInt16.toInt := by
  rw [toInt, signed, unsigned_all]
  exact (BitVec.toInt_eq_toNat_bmod w.toBitVec).symm

theorem RamAddress.word_eq (a : RamAddress) : a.word.toNat = 0x0400 + a.index := by
  cases a <;> rfl

/-- The subpage of the pixel numbered `n`, from bits of its number. -/
def AccessPattern.subpageBit (pattern : AccessPattern) (n : Nat) : Nat :=
  match pattern with
  | .chess => ((n >>> 5) &&& 1) ^^^ (n &&& 1)
  | .interleave => (n >>> 5) &&& 1

theorem AccessPattern.subpageBit_eq (pattern : AccessPattern) (n : Nat) :
    pattern.subpageBit n = (pattern.subpageOf n).toNat := by
  have row : (n >>> 5) &&& 1 = n / columnCount % 2 := by
    rw [Nat.and_one_is_mod, Nat.shiftRight_eq_div_pow]
  have parity (k : Nat) : (Subpage.ofParity k).toNat = k % 2 := by
    rcases Nat.mod_two_eq_zero_or_one k with h | h <;> rw [Subpage.ofParity, h] <;> rfl
  cases pattern with
  | interleave => exact row.trans (parity _).symm
  | chess =>
    rw [subpageBit, row, Nat.and_one_is_mod, subpageOf, parity]
    rcases Nat.mod_two_eq_zero_or_one (n / columnCount) with hr | hr <;>
      rcases Nat.mod_two_eq_zero_or_one n with hn | hn <;>
      rw [Nat.add_mod, hr, hn] <;> rfl

namespace Snapshot

variable (s : Snapshot)

-- Irreducible for the same reason as the words of the EEPROM at an address.
/-- The word at an address of the RAM, in two's complement. -/
@[irreducible] def signedAt (address : Nat) : Int :=
  (s.words[address - 0x0400]?.getD 0).toInt16.toInt

theorem signedAt_add {k : Nat} (hk : k < ramSize) :
    s.signedAt (0x0400 + k) = (s.words.get ⟨k, hk⟩).toInt := by
  have word : s.words[0x0400 + k - 0x0400]? = some (s.words.get ⟨k, hk⟩) := by
    rw [Nat.add_sub_cancel_left]
    exact getElem?_get s.words ⟨k, hk⟩
  unfold signedAt
  rw [word, Option.getD_some, Word.toInt_eq_toInt16]

theorem signedAt_eq {address : Nat} {a : RamAddress} (h : a.word.toNat = address) :
    s.signedAt address = s.read a := by
  rw [← h, a.word_eq, s.signedAt_add a.index_lt, read]

theorem signedAt_vBe : s.signedAt 0x0700 = s.vBe := s.signedAt_eq rfl

theorem signedAt_compensationPixel_zero : s.signedAt 0x0708 = s.compensationPixel .zero :=
  (s.signedAt_eq rfl).trans (s.compensationPixel_eq .zero).symm

theorem signedAt_gain : s.signedAt 0x070A = s.gain := s.signedAt_eq rfl

theorem signedAt_vPtat : s.signedAt 0x0720 = s.vPtat := s.signedAt_eq rfl

theorem signedAt_compensationPixel_one : s.signedAt 0x0728 = s.compensationPixel .one :=
  (s.signedAt_eq rfl).trans (s.compensationPixel_eq .one).symm

theorem signedAt_vddPixel : s.signedAt 0x072A = s.vddPixel := s.signedAt_eq rfl

theorem signedAt_pixel (i : Pixel) : s.signedAt (0x0400 + i) = s.pixel i :=
  s.signedAt_add (Nat.lt_of_lt_of_le i.isLt (by decide))

end Snapshot

namespace Formula

variable (c : Calibration) (s : Snapshot)

def vdd : ℚ :=
  (2 ^ c.resolution.code / 2 ^ s.resolution.code * s.signedAt 0x072A - c.vdd25) / c.kVdd + 3.3

def vPtatArt : ℚ :=
  s.signedAt 0x0720 * 2 ^ 18 / (s.signedAt 0x0720 * c.alphaPtat.toRat + s.signedAt 0x0700)

def ta : ℚ :=
  (vPtatArt c s / (1 + c.kVptat.toRat * (vdd c s - 3.3)) - c.vPtat25) / c.kTptat.toRat + 25

def kGain : ℚ := c.gain / s.signedAt 0x070A

def scale (kTa kV : ℚ) : ℚ := (1 + kTa * (ta c s - 25)) * (1 + kV * (vdd c s - 3.3))

def interleaved (term : ℚ) : ℚ := if s.pattern = .interleave then term else 0

def cpOs0 : ℚ :=
  s.signedAt 0x0708 * kGain c s - c.offsetCp.1 * scale c s c.kTaCp.toRat c.kVCp.toRat

def cpOs1 : ℚ :=
  s.signedAt 0x0728 * kGain c s -
    (c.offsetCp.2 + interleaved s (c.ilChess 0).toRat) * scale c s c.kTaCp.toRat c.kVCp.toRat

def conv (n : Nat) (p : Int) : Int :=
  ((n + 2) / 4 - (n + 3) / 4 + (n + 1) / 4 - n / 4) * (1 - 2 * p)

def pixOs (n : Pixel) : ℚ :=
  let p := s.subpage.toNat
  s.signedAt (0x0400 + n) * kGain c s -
    (c.pixels.get n).offset *
      scale c s (c.pixels.get n).kTa.toRat (c.kV.get n.quadrant).toRat +
    interleaved s ((c.ilChess 2).toRat * (2 * p - 1) - (c.ilChess 1).toRat * conv n p)

def vIr (emissivity : ℚ) (n : Pixel) : ℚ :=
  let p := s.subpage.toNat
  pixOs c s n / emissivity - c.tgc.toRat * ((1 - p) * cpOs0 c s + p * cpOs1 c s)

theorem twoPow_eq (k : Nat) : (Scalar.twoPow k : ℚ) = 2 ^ k := by
  change (((1 : Int) <<< k : Int) : ℚ) = 2 ^ k
  rw [Int.shiftLeft_eq, one_mul]
  push_cast
  rfl

theorem deltaV_eq : deltaV c s = vdd c s - 3.3 := by
  rw [vdd, s.signedAt_vddPixel, add_sub_cancel_right, ← twoPow_eq, ← twoPow_eq]
  rfl

theorem ambient_eq : ambient c s = ta c s := by
  have one : (Scalar.one : ℚ) = 1 := Int.cast_one
  have artificial : Thermopile.vPtatArt c s = vPtatArt c s := by
    rw [vPtatArt, s.signedAt_vPtat, s.signedAt_vBe, ← twoPow_eq]
    rfl
  rw [ambient, ta, artificial, one, deltaV_eq]
  rfl

theorem conditions_eq : Conditions.of c s = ⟨kGain c s, vdd c s, ta c s⟩ := by
  have supply : deltaV c s + vdd0 = vdd c s := by
    rw [deltaV_eq]
    exact sub_add_cancel _ _
  rw [Conditions.of, ambient_eq, supply, kGain, s.signedAt_gain]
  rfl

theorem offsetFactor_eq (kTa kV : ℚ) :
    (Conditions.of c s : Conditions ℚ).offsetFactor kTa kV = scale c s kTa kV := by
  have one : (Scalar.one : ℚ) = 1 := Int.cast_one
  rw [conditions_eq, Conditions.offsetFactor, scale, one]
  rfl

theorem compensationOffset_eq : compensationOffset c (Conditions.of c s) s =
    s.subpage.select (cpOs0 c s, cpOs1 c s) := by
  have gain : (Conditions.of c s : Conditions ℚ).gain = kGain c s := by rw [conditions_eq]
  rw [compensationOffset, compensationReference, gain, offsetFactor_eq]
  cases s.subpage with
  | zero =>
    have other : ¬(Subpage.zero = .one ∧ s.pattern = .interleave) := fun h => nomatch h.1
    rw [if_neg other, ← s.signedAt_compensationPixel_zero]
    rfl
  | one =>
    have term : c.ilChess 0 = c.interleave.get 0 := c.ilChess_eq 0
    rw [← s.signedAt_compensationPixel_one, Subpage.select, cpOs1, interleaved, term]
    cases s.pattern with
    | chess => rw [if_neg (by decide), if_neg (by decide), add_zero]; rfl
    | interleave => rw [if_pos ⟨rfl, rfl⟩, if_pos rfl]; rfl

theorem pixelSignal_eq (n : Pixel) : pixelSignal c (Conditions.of c s) s n = pixOs c s n := by
  have gain : (Conditions.of c s : Conditions ℚ).gain = kGain c s := by rw [conditions_eq]
  have sign : ((2 * s.subpage.toNat - 1 : Int) : ℚ) = 2 * s.subpage.toNat - 1 := by push_cast; rfl
  have second : c.ilChess 1 = c.interleave.get 1 := c.ilChess_eq 1
  have third : c.ilChess 2 = c.interleave.get 2 := c.ilChess_eq 2
  rw [pixelSignal, pixOs, gain, offsetFactor_eq, s.signedAt_pixel, interleaved, second, third]
  cases s.pattern with
  | chess => rw [if_neg (by decide), add_zero]; rfl
  | interleave => rw [if_pos rfl, ← sign]; rfl

/-- Of the two offsets of compensation pixels, the formula takes that of the measured subpage. -/
theorem weighted_select (p : Subpage) (a b : ℚ) :
    (1 - p.toNat) * a + p.toNat * b = p.select (a, b) := by
  cases p with
  | zero => change (1 - ((0 : Nat) : ℚ)) * a + ((0 : Nat) : ℚ) * b = a; push_cast; ring
  | one => change (1 - ((1 : Nat) : ℚ)) * a + ((1 : Nat) : ℚ) * b = b; push_cast; ring

theorem infrared_eq (emissivity : ℚ) (n : Pixel) :
    infrared c (Conditions.of c s) s emissivity (compensationOffset c (Conditions.of c s) s) n =
      vIr c s emissivity n := by
  rw [infrared, pixelSignal_eq, compensationOffset_eq, vIr, weighted_select]
  rfl

theorem captures_iff (n : Pixel) :
    s.Captures n ↔ s.pattern.subpageBit n = s.subpage.toNat := by
  have injective (p q : Subpage) : p = q ↔ p.toNat = q.toNat := by
    cases p <;> cases q <;> decide
  rw [AccessPattern.subpageBit_eq, ← injective]
  rfl

/-- Decoding gives the ambient temperature, and writes at the pixels that a valid snapshot captured
the values of the formula; all others, and all if a word is invalid, stay as they were. -/
theorem decodeInfrared_follows_formula (d : Decoder ℚ) (image : Image ℚ) :
    (d.decodeInfrared c s image).1 = s.validate.map (fun _ => ta c s) ∧
    ∀ n : Pixel, (d.decodeInfrared c s image).2.2.get n =
      if s.Valid ∧ s.pattern.subpageBit n = s.subpage.toNat then vIr c s d.emissivity n
      else image.get n := by
  by_cases valid : s.Valid
  · have result : s.validate = .ok () := valid
    rw [d.decodeInfrared_of_valid c s image valid, ambient_eq, result]
    refine ⟨rfl, fun n => ?_⟩
    simp only [Decoder.get_overwrite, infrared_eq, captures_iff, valid, true_and]
  · obtain ⟨fault, refused⟩ := Snapshot.validate_of_not_valid valid
    rw [d.decodeInfrared_of_error c s image refused, refused]
    exact ⟨rfl, fun n => (if_neg fun h => valid h.1).symm⟩

end Formula
end Thermopile
