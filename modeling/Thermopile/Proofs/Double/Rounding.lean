import Mathlib

namespace Thermopile.Double

open Float.Model Float.Model.UnpackedFloat

/-- The mantissa and exponent that a positive double is packed with. -/
structure Canonical (mantissa : Nat) (exponent : Int) : Prop where
  pos : 0 < mantissa
  mantissa_lt : mantissa < 2 ^ 53
  exponent_ge : -1074 ≤ exponent
  exponent_le : exponent ≤ 971
  leading : 2 ^ 52 ≤ mantissa ∨ exponent = -1074

variable {m n : Nat} {e f : Int}

theorem targetExponent_eq (m : Nat) (e : Int) :
    Format.binary64.targetExponent (totalExponent m e) = max (m.log2 + 1 + e - 53) (-1074) := rfl

theorem log2_mul_two_pow (hm : 0 < m) (d : Nat) : (m * 2 ^ d).log2 = m.log2 + d := by
  have hp : 0 < 2 ^ d := Nat.two_pow_pos d
  apply (Nat.log2_eq_iff (Nat.mul_pos hm hp).ne').mpr
  constructor
  · rw [Nat.pow_add]
    exact Nat.mul_le_mul_right _ (Nat.log2_self_le hm.ne')
  · rw [Nat.add_right_comm, Nat.pow_add]
    exact Nat.mul_lt_mul_of_pos_right Nat.lt_log2_self hp

theorem totalExponent_mul_two_pow (hm : 0 < m) (d : Nat) (e : Int) :
    totalExponent (m * 2 ^ d) (e - d) = totalExponent m e := by
  unfold totalExponent
  rw [log2_mul_two_pow hm]
  omega

namespace Canonical

theorem log2_lt (h : Canonical m e) : m.log2 < 53 := (Nat.log2_lt h.pos.ne').mpr h.mantissa_lt

theorem log2_eq (h : Canonical m e) : m.log2 = 52 ∨ e = -1074 := by
  rcases h.leading with hl | he
  · have hlog := (Nat.le_log2 h.pos.ne').mpr hl
    have hlt := h.log2_lt
    exact .inl (by omega)
  · exact .inr he

theorem target (h : Canonical m e) : Format.binary64.targetExponent (totalExponent m e) = e := by
  have hl := h.log2_lt
  have he := h.log2_eq
  have hg := h.exponent_ge
  rw [targetExponent_eq]
  omega

end Canonical

theorem shiftRight_exact (m d : Nat) :
    ExtendedMantissa.ofMantissaAndAccuracy (m * 2 ^ d) .exact >>> d =
      ExtendedMantissa.ofMantissaAndAccuracy m .exact := by
  induction d generalizing m with
  | zero => rw [Nat.pow_zero, Nat.mul_one]; rfl
  | succ d ih =>
    have hm : m * 2 ^ (d + 1) = m * 2 * 2 ^ d := by rw [Nat.pow_succ]; ring
    -- The bit that is shifted out last is zero too, so the mantissa stays exact.
    change (ExtendedMantissa.ofMantissaAndAccuracy (m * 2 ^ (d + 1)) .exact >>> d).shiftRightOne = _
    rw [hm, ih]
    simp [ExtendedMantissa.ofMantissaAndAccuracy, ExtendedMantissa.shiftRightOne]

/-- Zeros below a mantissa of 53 bits are shifted out. -/
theorem Canonical.shift (h : Canonical m e) (d : Nat) :
    shiftToTargetExponent Format.binary64 (m * 2 ^ d) (e - d) .exact =
      (ExtendedMantissa.ofMantissaAndAccuracy m .exact, e) := by
  have hd : (e - (e - d)).toNat = d := by omega
  have he : e - d + (d : Int) = e := by omega
  unfold shiftToTargetExponent shiftToExponent
  simp only [totalExponent_mul_two_pow h.pos, h.target, hd, shiftRight_exact, he]

theorem roundWithAccuracy_of_shifts {s : Sign} {a : Accuracy} {x : ExtendedMantissa}
    (first : shiftToTargetExponent Format.binary64 m e a = (x, f))
    {m' : Nat} {e' : Int}
    (second : shiftToTargetExponent Format.binary64 x.roundedMantissa f .exact =
      (ExtendedMantissa.ofMantissaAndAccuracy m' .exact, e')) (hm : 0 < m') :
    roundWithAccuracy Format.binary64 s m e a = .finite s m' e' hm := by
  unfold roundWithAccuracy
  simp only [first, second]
  exact dif_neg hm.ne'

theorem Canonical.roundWithAccuracy (h : Canonical m e) (s : Sign) (d : Nat) :
    roundWithAccuracy Format.binary64 s (m * 2 ^ d) (e - d) .exact = .finite s m e h.pos := by
  have second := h.shift 0
  simp only [Nat.pow_zero, Nat.mul_one, Nat.cast_zero, sub_zero] at second
  exact roundWithAccuracy_of_shifts (h.shift d) second h.pos

theorem mul_two_pow_zpow (m d : Nat) (e : Int) :
    ((m * 2 ^ d : Nat) : Rat) * 2 ^ (e - d) = m * 2 ^ e := by
  have he : e = d + (e - d) := by omega
  conv_rhs => rw [he, zpow_add₀ (by norm_num : (2 : Rat) ≠ 0), zpow_natCast]
  push_cast
  ring

theorem eq_of_mul_zpow_eq (h : (n : Rat) * 2 ^ e = m * 2 ^ e) : n = m := by
  have hp : (2 : Rat) ^ e ≠ 0 := zpow_ne_zero e (by norm_num)
  exact_mod_cast mul_right_cancel₀ hp h

/-- Whichever of two exponents is the larger, its mantissa is shifted. -/
theorem shifted_of_value_eq (h : (n : Rat) * 2 ^ f = m * 2 ^ e) :
    (∃ d : Nat, f = e - d ∧ n = m * 2 ^ d) ∨ (∃ d : Nat, e = f - d ∧ m = n * 2 ^ d) := by
  rcases le_total f e with hle | hle
  · obtain ⟨d, rfl⟩ : ∃ d : Nat, f = e - d := ⟨(e - f).toNat, by omega⟩
    rw [← mul_two_pow_zpow m d e] at h
    exact .inl ⟨d, rfl, eq_of_mul_zpow_eq h⟩
  · obtain ⟨d, rfl⟩ : ∃ d : Nat, e = f - d := ⟨(f - e).toNat, by omega⟩
    rw [← mul_two_pow_zpow n d f] at h
    exact .inr ⟨d, rfl, eq_of_mul_zpow_eq h.symm⟩

/-- A number that has a canonical form is rounded to it. -/
theorem Canonical.round (h : Canonical m e) (s : Sign) (hv : (n : Rat) * 2 ^ f = m * 2 ^ e) :
    round Format.binary64 s n f = .finite s m e h.pos := by
  unfold Float.Model.UnpackedFloat.round
  -- The mantissa has zeros to shift out, or it is short and its exponent is lowered first.
  rcases shifted_of_value_eq hv with ⟨d, rfl, rfl⟩ | ⟨d, rfl, rfl⟩
  · have hd : (e - (d : Int) - e).toNat = 0 := by omega
    simp only [totalExponent_mul_two_pow h.pos, h.target, decreaseExponent, hd, Nat.shiftLeft_zero,
      Nat.cast_zero, sub_zero]
    exact h.roundWithAccuracy s d
  · have hn : 0 < n := Nat.pos_of_mul_pos_right h.pos
    have target := h.target
    rw [totalExponent_mul_two_pow hn] at target
    have hd : (f - (f - (d : Int))).toNat = d := by omega
    have rounded := h.roundWithAccuracy s 0
    rw [Nat.pow_zero, Nat.mul_one, Nat.cast_zero, sub_zero] at rounded
    simp only [target, decreaseExponent, hd, Nat.shiftLeft_eq]
    exact rounded

theorem mantissa_ofMantissaAndAccuracy (m : Nat) (a : Accuracy) :
    (ExtendedMantissa.ofMantissaAndAccuracy m a).mantissa = m := by
  cases a with
  | exact => rfl
  | inexact o => cases o <;> rfl

theorem mantissa_shiftRight (x : ExtendedMantissa) (d : Nat) :
    (x >>> d).mantissa = x.mantissa / 2 ^ d := by
  induction d with
  | zero => exact (Nat.div_one _).symm
  | succ d ih =>
    change (x >>> d).mantissa / 2 = _
    rw [ih, Nat.div_div_eq_div_mul, ← Nat.pow_succ]

theorem roundedMantissa_bounds (x : ExtendedMantissa) :
    x.mantissa ≤ x.roundedMantissa ∧ x.roundedMantissa ≤ x.mantissa + 1 := by
  obtain ⟨m, roundBit, stickyBit⟩ := x
  have he : m % 2 ≤ 1 := by omega
  cases roundBit <;> cases stickyBit <;>
    simp [ExtendedMantissa.roundedMantissa, ExtendedMantissa.accuracy, Accuracy.roundToNearestEven,
      he]

theorem leading_bounds (hm : 2 ^ 52 ≤ m) :
    2 ^ 52 ≤ m / 2 ^ (m.log2 - 52) ∧ m / 2 ^ (m.log2 - 52) < 2 ^ 53 := by
  have hp : 0 < m := Nat.lt_of_lt_of_le (Nat.two_pow_pos 52) hm
  have hl : 52 ≤ m.log2 := (Nat.le_log2 hp.ne').mpr hm
  have hd : 0 < 2 ^ (m.log2 - 52) := Nat.two_pow_pos _
  constructor
  · rw [Nat.le_div_iff_mul_le hd, ← Nat.pow_add, Nat.add_sub_cancel' hl]
    exact Nat.log2_self_le hp.ne'
  · rw [Nat.div_lt_iff_lt_mul hd, ← Nat.pow_add, show 53 + (m.log2 - 52) = m.log2 + 1 by omega]
    exact Nat.lt_log2_self

/-- A long mantissa is cut to 53 bits; at most one bit more comes from rounding up. -/
theorem exists_roundWithAccuracy (s : Sign) (a : Accuracy) (hm : 2 ^ 52 ≤ m)
    (lower : -1022 ≤ m.log2 + e) (upper : m.log2 + e ≤ 1022) :
    ∃ m' e', ∃ h : Canonical m' e',
      roundWithAccuracy Format.binary64 s m e a = .finite s m' e' h.pos := by
  have hl : 52 ≤ m.log2 := (Nat.le_log2 (by omega)).mpr hm
  let x := ExtendedMantissa.ofMantissaAndAccuracy m a >>> (m.log2 - 52)
  let f : Int := m.log2 + e - 52
  have target : Format.binary64.targetExponent (totalExponent m e) = f := by
    rw [targetExponent_eq]
    omega
  have hd : (f - e).toNat = m.log2 - 52 := by omega
  have hf : e + ((m.log2 - 52 : Nat) : Int) = f := by omega
  have first : shiftToTargetExponent Format.binary64 m e a = (x, f) := by
    unfold shiftToTargetExponent shiftToExponent
    simp only [target, hd, hf, x]
  have cut := leading_bounds hm
  have hx : x.mantissa = m / 2 ^ (m.log2 - 52) := by
    rw [mantissa_shiftRight, mantissa_ofMantissaAndAccuracy]
  have hr := roundedMantissa_bounds x
  -- Rounding up can carry into a bit too many, and then leaves a power of two, cut once more.
  by_cases carry : x.roundedMantissa = 2 ^ 53
  · have h : Canonical (2 ^ 52) (f + 1) := ⟨by decide, by decide, by omega, by omega, .inl le_rfl⟩
    have second := h.shift 1
    rw [Nat.cast_one, add_sub_cancel_right, ← Nat.pow_add, ← carry] at second
    exact ⟨_, _, h, roundWithAccuracy_of_shifts first second h.pos⟩
  · have h : Canonical x.roundedMantissa f :=
      ⟨by omega, by omega, by omega, by omega, .inl (by omega)⟩
    have second := h.shift 0
    rw [Nat.pow_zero, Nat.mul_one, Nat.cast_zero, sub_zero] at second
    exact ⟨_, _, h, roundWithAccuracy_of_shifts first second h.pos⟩

end Thermopile.Double
