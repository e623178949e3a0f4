import Thermopile.Proofs.Double.Value
import Thermopile.Calibration.Decode

namespace Thermopile.Double

open Float.Model Float.Model.UnpackedFloat

/-- The number can be written as the quotient of an integer of 53 bits and a power of two. -/
def Short (q : Rat) : Prop := ∃ n : Int, ∃ k : Nat, n.natAbs < 2 ^ 53 ∧ k < 53 ∧ q = n / 2 ^ k

theorem Short.representable {q : Rat} (h : Short q) : Representable q := by
  obtain ⟨n, k, hn, hk, rfl⟩ := h
  exact representable_div_two_pow hn (by omega)

theorem short_intCast {n : Int} (hn : n.natAbs < 2 ^ 53) : Short n :=
  ⟨n, 0, hn, by decide, by rw [pow_zero, div_one]⟩

theorem Short.moderate {q : Rat} (h : Short q) (hq : q ≠ 0) : Moderate q := by
  obtain ⟨n, k, hn, hk, rfl⟩ := h
  have hp : (0 : Rat) < 2 ^ k := by positivity
  have hn0 : n ≠ 0 := by
    rintro rfl
    exact hq (by rw [Int.cast_zero, zero_div])
  have lower : (1 : Rat) ≤ |(n : Rat)| := by exact_mod_cast Int.one_le_abs hn0
  have upper : |(n : Rat)| ≤ 2 ^ 53 := by
    rw [← Int.cast_abs, Int.abs_eq_natAbs]
    exact_mod_cast hn.le
  have one_le : (1 : Rat) ≤ 2 ^ k := one_le_pow₀ (by norm_num)
  have le_max : (2 : Rat) ^ k ≤ 2 ^ 400 := pow_le_pow_right₀ (by norm_num) (by omega)
  rw [Moderate, abs_div, abs_of_pos hp]
  constructor
  · calc (2 : Rat) ^ (-400 : Int) = 1 / 2 ^ 400 := by rw [zpow_neg, one_div, ← zpow_natCast]; rfl
      _ ≤ 1 / 2 ^ k := one_div_le_one_div_of_le hp le_max
      _ ≤ |(n : Rat)| / 2 ^ k := by gcongr
  · calc |(n : Rat)| / 2 ^ k ≤ |(n : Rat)| := div_le_self (abs_nonneg _) one_le
      _ ≤ 2 ^ 53 := upper
      _ ≤ 2 ^ 400 := pow_le_pow_right₀ (by norm_num) (by decide)
      _ = 2 ^ (400 : Int) := (zpow_natCast 2 400).symm

theorem value?_twoPow {k : Nat} (hk : k < 53) :
    value? (Float.ofNat (2 ^ k)) = some (2 ^ k : Rat) := by
  have h := value?_ofNat (Nat.pow_lt_pow_right (by decide : 1 < 2) hk)
  rwa [Nat.cast_pow, Nat.cast_ofNat] at h

theorem value?_ofInt_div_twoPow {n : Int} {k : Nat} (hn : n.natAbs < 2 ^ 53) (hk : k < 53) :
    value? (Float.ofInt n / Float.ofNat (2 ^ k)) = some (n / 2 ^ k : Rat) :=
  value?_div (value?_ofInt hn) (value?_twoPow hk) (pow_ne_zero k (by norm_num))
    (representable_div_two_pow hn (by omega))

theorem natAbs_le_of_mul_two_pow {n N : Int} {d : Nat} (h : n * 2 ^ d = N) :
    n.natAbs ≤ N.natAbs := by
  rw [← h, Int.natAbs_mul, Int.natAbs_pow]
  exact Nat.le_mul_of_pos_right _ (Nat.two_pow_pos d)

theorem Short.lowest {n : Int} {k : Nat} (hn : n % 2 = 1) (h : Short (n / 2 ^ k)) :
    n.natAbs < 2 ^ 53 ∧ k < 53 := by
  obtain ⟨N, K, hN, hK, hv⟩ := h
  have hp (j : Nat) : (2 : Rat) ^ j ≠ 0 := pow_ne_zero j (by norm_num)
  have cross : n * 2 ^ K = N * 2 ^ k := by exact_mod_cast (div_eq_div_iff (hp k) (hp K)).mp hv
  have hle : k ≤ K := by
    by_contra hlt
    -- Otherwise a power of two would be left on the side of the odd numerator.
    obtain ⟨d, rfl⟩ : ∃ d, k = K + (d + 1) := ⟨k - K - 1, by omega⟩
    have even : n = N * 2 ^ d * 2 := by
      rw [pow_add, ← mul_assoc, mul_right_comm] at cross
      rw [mul_right_cancel₀ (pow_ne_zero K (by decide)) cross]
      ring
    omega
  obtain ⟨d, rfl⟩ := Nat.exists_eq_add_of_le hle
  have hd : n * 2 ^ d = N := by
    rw [pow_add, mul_left_comm, mul_comm] at cross
    exact mul_right_cancel₀ (pow_ne_zero k (by decide)) cross
  exact ⟨(natAbs_le_of_mul_two_pow hd).trans_lt hN, by omega⟩

theorem Short.natAbs_lt {n : Int} (h : Short n) : n.natAbs < 2 ^ 53 := by
  obtain ⟨N, K, hN, hK, hv⟩ := h
  have hd : n * 2 ^ K = N := by
    exact_mod_cast (eq_div_iff (pow_ne_zero K (by norm_num : (2 : Rat) ≠ 0))).mp hv
  exact (natAbs_le_of_mul_two_pow hd).trans_lt hN

theorem floatOfDyadic_ofOdd (n k : Int) (odd : n % 2 = 1) :
    floatOfDyadic (.ofOdd n k odd) =
      if 0 ≤ k then Float.ofInt n / Float.ofNat (2 ^ k.toNat)
      else Float.ofInt n * Float.ofNat (2 ^ (-k).toNat) := by
  simp only [floatOfDyadic, Nat.one_shiftLeft]

theorem value?_floatOfDyadic {d : Dyadic} (h : Short d.toRat) :
    value? (floatOfDyadic d) = some d.toRat := by
  cases d with
  | zero => exact value?_ofNat (n := 0) (by decide)
  | ofOdd n k odd =>
    rw [Dyadic.toRat_ofOdd_eq_mul_two_pow] at h ⊢
    rw [floatOfDyadic_ofOdd]
    by_cases hk : 0 ≤ k
    · obtain ⟨j, rfl⟩ := Int.eq_ofNat_of_zero_le hk
      rw [zpow_neg, zpow_natCast, ← div_eq_mul_inv] at h ⊢
      obtain ⟨hn, hj⟩ := h.lowest odd
      rw [if_pos hk]
      exact value?_ofInt_div_twoPow hn hj
    · obtain ⟨j, rfl⟩ : ∃ j : Nat, k = -j := ⟨k.natAbs, by omega⟩
      have hr := h.representable
      rw [neg_neg, zpow_natCast] at h hr ⊢
      have hnj : (n * 2 ^ j).natAbs < 2 ^ 53 := by
        apply Short.natAbs_lt
        rwa [Int.cast_mul, Int.cast_pow, Int.cast_ofNat]
      have hn : n.natAbs < 2 ^ 53 := (natAbs_le_of_mul_two_pow rfl).trans_lt hnj
      have hj : j < 53 := by
        rw [Int.natAbs_mul, Int.natAbs_pow] at hnj
        have hle := Nat.le_mul_of_pos_left (2 ^ j) (by omega : 0 < n.natAbs)
        exact (Nat.pow_lt_pow_iff_right (by decide : 1 < 2)).mp (hle.trans_lt hnj)
      rw [if_neg hk, Int.toNat_natCast]
      exact value?_mul (value?_ofInt hn) (value?_twoPow hj) hr

theorem unpack_of_pos {y : Float} {q : Rat} (hy : value? y = some q) (hq : 0 < q) :
    ∃ m e hm, y.toModel.unpack = .finite .positive m e hm := by
  obtain ⟨s, m, e, hc, hu, rfl⟩ := (value?_eq_some_iff.mp hy).exists_finite hq.ne'
  cases s with
  | positive => exact ⟨m, e, hc.pos, hu⟩
  | negative =>
    rw [apply_cast] at hq
    exact absurd hq (neg_neg_of_pos (value_pos hc.pos e)).le.not_gt

theorem unpack_zero : (Float.ofInt 0).toModel.unpack = .zero .positive := rfl

theorem zero_div_of_pos {y : Float} {q : Rat} (hy : value? y = some q) (hq : 0 < q) :
    Float.ofInt 0 / y = Float.ofInt 0 := by
  obtain ⟨m, e, hm, hu⟩ := unpack_of_pos hy hq
  change (⟨Float.Model.pack (UnpackedFloat.div Format.binary64 (Float.ofInt 0).toModel.unpack
    y.toModel.unpack)⟩ : Float) = _
  rw [unpack_zero, hu]
  rfl

theorem zero_mul_of_pos {y : Float} {q : Rat} (hy : value? y = some q) (hq : 0 < q) :
    Float.ofInt 0 * y = Float.ofInt 0 := by
  obtain ⟨m, e, hm, hu⟩ := unpack_of_pos hy hq
  change (⟨Float.Model.pack (UnpackedFloat.mul Format.binary64 (Float.ofInt 0).toModel.unpack
    y.toModel.unpack)⟩ : Float) = _
  rw [unpack_zero, hu]
  rfl

theorem toRat_scaled (n : Int) (k : Nat) : (Calibration.scaled n k).toRat = n / 2 ^ k := by
  rw [Calibration.scaled, Dyadic.toRat_ofIntWithPrec_eq_mul_two_pow, zpow_neg, zpow_natCast,
    div_eq_mul_inv]

theorem short_scaled {n : Int} {k : Nat} (hn : n.natAbs < 2 ^ 53) (hk : k < 53) :
    Short (Calibration.scaled n k).toRat :=
  ⟨n, k, hn, hk, toRat_scaled n k⟩

/-- Dividing in doubles gives the double of the exact fraction. -/
theorem floatOfDyadic_scaled {n : Int} {k : Nat} (hn : n.natAbs < 2 ^ 53) (hk : k < 53) :
    floatOfDyadic (Calibration.scaled n k) = Float.ofInt n / Float.ofNat (2 ^ k) := by
  have hl := value?_floatOfDyadic (short_scaled hn hk)
  have hr := value?_ofInt_div_twoPow hn hk
  rw [toRat_scaled] at hl
  by_cases h0 : n = 0
  · subst h0
    exact (zero_div_of_pos (value?_twoPow hk) (by positivity)).symm
  · apply eq_of_value?_eq hl hr
    exact div_ne_zero (Int.cast_ne_zero.mpr h0) (pow_ne_zero k (by norm_num))

/-- The constant is `n / 2 ^ k`, and in doubles one division of two integers computes it without
rounding. -/
structure ExactQuotient (d : Dyadic) (n : Int) (k : Nat) : Prop where
  toRat_eq : d.toRat = n / 2 ^ k
  natAbs_lt : n.natAbs < 2 ^ 53
  float_eq : floatOfDyadic d = Float.ofInt n / Float.ofNat (2 ^ k)
  value_eq : value? (Float.ofInt n / Float.ofNat (2 ^ k)) = some (n / 2 ^ k : Rat)

theorem exactQuotient_scaled {n : Int} {k : Nat} (hn : n.natAbs < 2 ^ 53) (hk : k < 53) :
    ExactQuotient (Calibration.scaled n k) n k where
  toRat_eq := toRat_scaled n k
  natAbs_lt := hn
  float_eq := floatOfDyadic_scaled hn hk
  value_eq := value?_ofInt_div_twoPow hn hk

end Thermopile.Double
