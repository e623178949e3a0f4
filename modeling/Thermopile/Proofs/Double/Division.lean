import Thermopile.Proofs.Double.Unpacked

namespace Thermopile.Double

open Float.Model Float.Model.UnpackedFloat

variable {m n : Nat} {e f : Int} {u v : UnpackedFloat} {p q : Rat}

theorem log2_mul_le (hm : 0 < m) (hn : 0 < n) : (m * n).log2 ≤ m.log2 + n.log2 + 1 := by
  have hlt : m * n < 2 ^ (m.log2 + 1) * 2 ^ (n.log2 + 1) :=
    Nat.mul_lt_mul'' Nat.lt_log2_self Nat.lt_log2_self
  rw [← Nat.pow_add] at hlt
  have hlog := (Nat.log2_lt (Nat.mul_pos hm hn).ne').mpr hlt
  omega

/-- The exponent that a quotient is computed with, before it is rounded. -/
def quotientExponent (m : Nat) (e : Int) (n : Nat) (f : Int) : Int :=
  min (e - f) (Format.binary64.targetExponent (totalExponent m e - totalExponent n f))

theorem div_finite (s t : Sign) (hm : 0 < m) (hn : 0 < n) (e f : Int) :
    UnpackedFloat.div Format.binary64 (.finite s m e hm) (.finite t n f hn) =
      UnpackedFloat.roundWithAccuracy Format.binary64 (s * t)
        (m * 2 ^ (e - f - quotientExponent m e n f).toNat / n) (quotientExponent m e n f)
        (accuracyOfFraction (m * 2 ^ (e - f - quotientExponent m e n f).toNat % n) n) := by
  have hs : s / t = s * t := by cases s <;> cases t <;> rfl
  unfold UnpackedFloat.div
  simp only [divCore, Nat.shiftLeft_eq, hs]
  rfl

theorem quotientExponent_le {k : Nat} {g : Int} (hn : 0 < n) (hm : 0 < m) (hk : Canonical k g)
    (hv : (m : Rat) * 2 ^ e = (k * n : Nat) * 2 ^ (g + f)) : quotientExponent m e n f ≤ g := by
  have ht := totalExponent_eq_of_value_eq hm (Nat.mul_pos hk.pos hn) hv
  have hl := log2_mul_le hk.pos hn
  have hg := hk.target
  have hd : quotientExponent m e n f ≤
      max (totalExponent m e - totalExponent n f - 53) (-1074) := min_le_right _ _
  rw [targetExponent_eq] at hg
  unfold totalExponent at ht hd
  omega

/-- The division of mantissas leaves no remainder when the quotient is a double. -/
theorem mantissa_div_exact {k : Nat} {g : Int} (hm : 0 < m) (hn : 0 < n) (hk : Canonical k g)
    (hv : (m : Rat) * 2 ^ e = (k * n : Nat) * 2 ^ (g + f)) :
    ∃ d : Nat, quotientExponent m e n f = g - d ∧
      m * 2 ^ (e - f - quotientExponent m e n f).toNat = k * 2 ^ d * n := by
  have hle := quotientExponent_le hn hm hk hv
  have hle' : quotientExponent m e n f ≤ e - f := min_le_left _ _
  generalize quotientExponent m e n f = x at hle hle'
  obtain ⟨d, rfl⟩ : ∃ d : Nat, x = g - d := ⟨(g - x).toNat, by omega⟩
  obtain ⟨c, hc⟩ : ∃ c : Nat, e - f - (g - d) = c := ⟨(e - f - (g - d)).toNat, by omega⟩
  refine ⟨d, rfl, ?_⟩
  rw [hc, Int.toNat_natCast, Nat.mul_right_comm]
  have he : e - c = g + f - d := by omega
  rw [← mul_two_pow_zpow m c, ← mul_two_pow_zpow (k * n) d, he] at hv
  exact eq_of_mul_zpow_eq hv

theorem Stands.div (hu : Stands u p) (hv : Stands v q) (hq : q ≠ 0) (h : Representable (p / q)) :
    Stands (UnpackedFloat.div Format.binary64 u v) (p / q) := by
  obtain ⟨w, hw⟩ := h
  obtain ⟨t, n, f, hn, rfl, rfl⟩ := hv.exists_finite hq
  cases hu with
  | zero s =>
    rw [zero_div]
    exact .zero _
  | @finite s m e hm =>
    have nonzero := div_ne_zero (apply_ne_zero s hm.pos e) hq
    obtain ⟨r, k, g, hk, -, hr⟩ := hw.exists_finite nonzero
    -- The dividend is the product of the quotient, in canonical form, and the divisor.
    have hp : ((s.apply m : Int) : Rat) * 2 ^ e = (r * t).apply (k * n : Nat) * 2 ^ (g + f) := by
      rw [(div_eq_iff hq).mp hr, apply_mul, zpow_add₀ (by norm_num : (2 : Rat) ≠ 0)]
      push_cast
      ring
    obtain ⟨rfl, magnitude⟩ := sign_unique (Nat.mul_pos hk.pos hn.pos) hm.pos hp
    obtain ⟨d, hx, exact⟩ := mantissa_div_exact hm.pos hn.pos hk magnitude
    have hs : r * t * t = r := by cases r <;> cases t <;> rfl
    have divided : UnpackedFloat.div Format.binary64 (.finite (r * t) m e hm.pos)
        (.finite t n f hn.pos) = .finite r k g hk.pos := by
      rw [div_finite, exact, Nat.mul_div_cancel _ hn.pos, Nat.mul_mod_left, hx, hs]
      exact hk.roundWithAccuracy r d
    rw [divided, hr]
    exact .finite r hk

theorem log2_div_bounds (hn : 0 < n) (h : n.log2 < m.log2) :
    m.log2 - n.log2 - 1 ≤ (m / n).log2 ∧ (m / n).log2 ≤ m.log2 - n.log2 := by
  have hm : m ≠ 0 := by
    rintro rfl
    exact absurd h (Nat.not_lt_zero _)
  have large : 2 ^ (m.log2 - n.log2 - 1) ≤ m / n := by
    rw [Nat.le_div_iff_mul_le hn]
    calc 2 ^ (m.log2 - n.log2 - 1) * n ≤ 2 ^ (m.log2 - n.log2 - 1) * 2 ^ (n.log2 + 1) :=
          Nat.mul_le_mul_left _ Nat.lt_log2_self.le
      _ = 2 ^ m.log2 := by rw [← Nat.pow_add]; congr 1; omega
      _ ≤ m := Nat.log2_self_le hm
  have small : m / n < 2 ^ (m.log2 - n.log2 + 1) := by
    rw [Nat.div_lt_iff_lt_mul hn]
    calc m < 2 ^ (m.log2 + 1) := Nat.lt_log2_self
      _ = 2 ^ (m.log2 - n.log2 + 1) * 2 ^ n.log2 := by rw [← Nat.pow_add]; congr 1; omega
      _ ≤ 2 ^ (m.log2 - n.log2 + 1) * n := Nat.mul_le_mul_left _ (Nat.log2_self_le hn.ne')
  have nonzero : m / n ≠ 0 := (Nat.lt_of_lt_of_le (Nat.two_pow_pos _) large).ne'
  exact ⟨(Nat.le_log2 nonzero).mpr large, Nat.le_of_lt_succ ((Nat.log2_lt nonzero).mpr small)⟩

/-- A quotient that is neither huge nor tiny is rounded to a double that is not zero. -/
theorem Canonical.exists_div (hm : Canonical m e) (hn : Canonical n f) (s t : Sign)
    (lower : -1000 ≤ totalExponent m e - totalExponent n f)
    (upper : totalExponent m e - totalExponent n f ≤ 1000) :
    ∃ k g, ∃ h : Canonical k g, UnpackedFloat.div Format.binary64 (.finite s m e hm.pos)
      (.finite t n f hn.pos) = .finite (s * t) k g h.pos := by
  have hx : quotientExponent m e n f =
      min (e - f) (max (totalExponent m e - totalExponent n f - 53) (-1074)) := rfl
  rw [div_finite]
  generalize quotientExponent m e n f = x at hx
  unfold totalExponent at hx lower upper
  obtain ⟨d, hd⟩ : ∃ d : Nat, e - f - x = d := ⟨(e - f - x).toNat, by omega⟩
  rw [hd, Int.toNat_natCast]
  have hl := log2_mul_two_pow hm.pos d
  have hb := log2_div_bounds (m := m * 2 ^ d) hn.pos (by omega)
  have long : 2 ^ 52 ≤ m * 2 ^ d / n := by
    have nonzero : m * 2 ^ d / n ≠ 0 := by
      intro h0
      rw [h0, Nat.log2_zero] at hb
      omega
    exact (Nat.le_log2 nonzero).mp (by omega)
  exact exists_roundWithAccuracy (s * t) _ long (by omega) (by omega)

def Moderate (q : Rat) : Prop := (2 : Rat) ^ (-400 : Int) ≤ |q| ∧ |q| ≤ 2 ^ (400 : Int)

theorem totalExponent_of_moderate {s : Sign} (hm : 0 < m)
    (h : Moderate ((s.apply m : Int) * 2 ^ e)) :
    -400 < totalExponent m e ∧ totalExponent m e ≤ 401 := by
  have habs : |((s.apply m : Int) : Rat) * 2 ^ e| = m * 2 ^ e := by
    rw [apply_cast]
    cases s
    · rw [abs_neg, abs_of_pos (value_pos hm e)]
    · exact abs_of_pos (value_pos hm e)
  obtain ⟨large, small⟩ := h
  rw [habs] at large small
  have one : (1 : Rat) < 2 := by norm_num
  have two : (2 : Rat) ≠ 0 := by norm_num
  have upper : (m : Rat) * 2 ^ e < 2 ^ totalExponent m e := by
    unfold totalExponent
    rw [zpow_add₀ two]
    apply mul_lt_mul_of_pos_right _ (two_zpow_pos e)
    exact_mod_cast Nat.lt_log2_self (n := m)
  have lower : (2 : Rat) ^ (totalExponent m e - 1) ≤ m * 2 ^ e := by
    have he : totalExponent m e - 1 = (m.log2 : Int) + e := by unfold totalExponent; omega
    rw [he, zpow_add₀ two, zpow_natCast]
    apply mul_le_mul_of_nonneg_right _ (two_zpow_pos e).le
    exact_mod_cast Nat.log2_self_le hm.ne'
  have above := (zpow_lt_zpow_iff_right₀ one).mp (large.trans_lt upper)
  have below := (zpow_le_zpow_iff_right₀ one).mp (lower.trans small)
  exact ⟨above, by omega⟩

theorem Moderate.ne_zero (h : Moderate q) : q ≠ 0 := by
  rintro rfl
  exact absurd h.1 (not_le.mpr (abs_zero (α := Rat) ▸ two_zpow_pos (-400)))

theorem Stands.exists_div (hu : Stands u p) (hv : Stands v q) (hp : Moderate p) (hq : Moderate q) :
    ∃ r, r ≠ 0 ∧ Stands (UnpackedFloat.div Format.binary64 u v) r := by
  obtain ⟨s, m, e, hm, rfl, rfl⟩ := hu.exists_finite hp.ne_zero
  obtain ⟨t, n, f, hn, rfl, rfl⟩ := hv.exists_finite hq.ne_zero
  have hp' := totalExponent_of_moderate hm.pos hp
  have hq' := totalExponent_of_moderate hn.pos hq
  obtain ⟨k, g, hk, rounded⟩ := hm.exists_div hn s t (by omega) (by omega)
  rw [rounded]
  exact ⟨_, apply_ne_zero _ hk.pos g, .finite _ hk⟩

end Thermopile.Double
