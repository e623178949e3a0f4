import Thermopile.Proofs.Calibration.Fields
import Thermopile.Proofs.Double.Dyadic

namespace Thermopile.Calibration

open Double

def gap (c : Calibration) (x : Fin 3) : Int := c.corners.get x.succ - c.corners.get x.castSucc

theorem growth_eq (c : Calibration) (x : Fin 3) :
    (c.growth x.castSucc x.succ : Rat) = 1 + (c.ksTo.get x.castSucc).toRat * (c.gap x : Rat) := by
  change ((1 : Int) : Rat) + _ = _
  rw [Int.cast_one]
  rfl

/-- No multiple of five cancels a power of two. -/
theorem two_pow_add_ne_zero (n : Int) (k : Nat) : 2 ^ k + n * 10 ≠ 0 := by
  intro h
  have five : (5 : Int) ∣ 2 ^ k := ⟨-(n * 2), by omega⟩
  have prime : Prime (5 : Int) := by norm_num
  have two : (5 : Int) ∣ 2 := prime.dvd_of_dvd_pow five
  omega

section
variable (e : EepromImage)

theorem exists_corners :
    ∃ step second third : Nat, step ≤ 3 ∧ second ≤ 15 ∧ third ≤ 15 ∧
      (ofImage e).corners = #v[-40, 0, ((second * (step * 10) : Nat) : Int),
        ((third * (step * 10) + second * (step * 10) : Nat) : Int)] := by
  have step := (e.read .cornerTemperatures).unsigned_lt 12 2
  have second := (e.read .cornerTemperatures).unsigned_lt 4 4
  have third := (e.read .cornerTemperatures).unsigned_lt 8 4
  exact ⟨_, _, _, Nat.le_of_lt_succ step, Nat.le_of_lt_succ second, Nat.le_of_lt_succ third, rfl⟩

theorem exists_gap (x : Fin 3) : ∃ g : Nat, g ≤ 45 ∧ (ofImage e).gap x = g * 10 := by
  obtain ⟨step, second, third, hs, h2, h3, corners⟩ := exists_corners e
  unfold gap
  rw [corners]
  match x with
  | 0 => exact ⟨4, by decide, rfl⟩
  | 1 =>
    refine ⟨second * step, Nat.mul_le_mul h2 hs, ?_⟩
    change ((second * (step * 10) : Nat) : Int) - 0 = _
    push_cast
    ring
  | 2 =>
    refine ⟨third * step, Nat.mul_le_mul h3 hs, ?_⟩
    change ((third * (step * 10) + second * (step * 10) : Nat) : Int) -
      (second * (step * 10) : Nat) = _
    push_cast
    ring

theorem fraction_slope (x : Fin 4) : Fraction 128 23 ((ofImage e).ksTo.get x) := by
  have scale := (e.read .cornerTemperatures).unsigned_lt 0 4
  have slope (w : Word) (offset : Nat) : Fraction 128 23
      (scaled (w.signed offset 8) ((e.read .cornerTemperatures).unsigned 0 4 + 8)) :=
    fraction_scaled (w.natAbs_signed_le offset 8) (by omega)
  exact forall_get_four (slope _ 0) (slope _ 8) (slope _ 0) (slope _ 8) x

theorem exists_growth (x : Fin 3) :
    ∃ n : Int, ∃ k : Nat, n ≠ 0 ∧ n.natAbs < 2 ^ 24 ∧ k ≤ 23 ∧
      ((ofImage e).growth x.castSucc x.succ : Rat) = n / 2 ^ k := by
  obtain ⟨n, k, hn, hk, slope⟩ := fraction_slope e x.castSucc
  obtain ⟨g, hg, gap⟩ := exists_gap e x
  have hp : (2 : Rat) ^ k ≠ 0 := pow_ne_zero k (by norm_num)
  have power : 2 ^ k ≤ 2 ^ 23 := Nat.pow_le_pow_right (by decide) hk
  have product : (n * g).natAbs ≤ 128 * 45 := by
    rw [Int.natAbs_mul]
    exact Nat.mul_le_mul hn hg
  -- The numerator is `2 ^ k + n * g * 10`: a power of two and a multiple of ten.
  have sum : (((2 ^ k : Nat) : Int) + n * g * 10).natAbs < 2 ^ 24 := by
    generalize 2 ^ k = p at power ⊢
    omega
  rw [Nat.cast_pow] at sum
  refine ⟨2 ^ k + n * g * 10, k, two_pow_add_ne_zero (n * g) k, sum, hk, ?_⟩
  · rw [growth_eq, slope, toRat_scaled, gap, eq_div_iff hp, add_mul, mul_right_comm,
      div_mul_cancel₀ _ hp]
    push_cast
    ring

theorem growth_ne_zero (x : Fin 3) : ((ofImage e).growth x.castSucc x.succ : Rat) ≠ 0 := by
  obtain ⟨n, k, h0, -, -, h⟩ := exists_growth e x
  rw [h]
  exact div_ne_zero (Int.cast_ne_zero.mpr h0) (pow_ne_zero k (by norm_num))

theorem short_growth (x : Fin 3) : Short ((ofImage e).growth x.castSucc x.succ : Rat) := by
  obtain ⟨n, k, -, hn, hk, h⟩ := exists_growth e x
  exact ⟨n, k, by omega, by omega, h⟩

theorem short_growth_mul (x y : Fin 3) :
    Short (((ofImage e).growth x.castSucc x.succ : Rat) *
      (ofImage e).growth y.castSucc y.succ) := by
  obtain ⟨n, k, -, hn, hk, hx⟩ := exists_growth e x
  obtain ⟨m, j, -, hm, hj, hy⟩ := exists_growth e y
  refine ⟨n * m, k + j, ?_, by omega, ?_⟩
  · rw [Int.natAbs_mul]
    exact (Nat.mul_lt_mul'' hn hm).trans (by decide)
  · rw [hx, hy, div_mul_div_comm, ← pow_add, Int.cast_mul]

/-- The correction of a range, followed through the range, is that of the next range. -/
theorem alphaCorrection_mul_growth (x : Fin 3) :
    ((ofImage e).alphaCorrection x.castSucc : Rat) * (ofImage e).growth x.castSucc x.succ =
      (ofImage e).alphaCorrection x.succ := by
  have one : (Scalar.one : Rat) = 1 := Int.cast_one
  fin_cases x
  · change Scalar.one / (ofImage e).growth 0 1 * (ofImage e).growth 0 1 = (Scalar.one : Rat)
    exact div_mul_cancel₀ _ (growth_ne_zero e 0)
  · change Scalar.one * (ofImage e).growth 1 2 = ((ofImage e).growth 1 2 : Rat)
    rw [one, one_mul]
  · exact mul_comm _ _

theorem alphaCorrection_ne_zero (x : Fin 4) : ((ofImage e).alphaCorrection x : Rat) ≠ 0 := by
  have one : (Scalar.one : Rat) ≠ 0 := Int.cast_ne_zero.mpr one_ne_zero
  match x with
  | 0 => exact div_ne_zero one (growth_ne_zero e 0)
  | 1 => exact one
  | 2 => exact growth_ne_zero e 1
  | 3 => exact mul_ne_zero (growth_ne_zero e 2) (growth_ne_zero e 1)

theorem value?_growth (x : Fin 3) :
    value? ((ofImage e).growth x.castSucc x.succ : Float) =
      some ((ofImage e).growth x.castSucc x.succ : Rat) := by
  obtain ⟨n, k, hn, hk, slope⟩ := fraction_slope e x.castSucc
  obtain ⟨g, hg, gap⟩ := exists_gap e x
  have product : (n * (g * 10 : Int)).natAbs ≤ 128 * 450 := by
    rw [Int.natAbs_mul]
    exact Nat.mul_le_mul hn (by omega)
  have slopes : value? (floatOfDyadic ((ofImage e).ksTo.get x.castSucc)) =
      some (n / 2 ^ k : Rat) := by
    rw [slope, value?_floatOfDyadic (short_scaled (by omega) (by omega)), toRat_scaled]
  have gaps : value? (Float.ofInt ((ofImage e).gap x)) = some (((g * 10 : Int)) : Rat) := by
    rw [gap]
    exact value?_ofInt (by omega)
  have short : Short ((n / 2 ^ k : Rat) * ((g * 10 : Int) : Rat)) := by
    refine ⟨n * (g * 10), k, by omega, by omega, ?_⟩
    rw [Int.cast_mul n, div_mul_eq_mul_div]
  have rise := value?_mul slopes gaps short.representable
  have one := value?_ofInt (n := 1) (by decide)
  have growth := short_growth e x
  rw [growth_eq, slope, toRat_scaled, gap] at growth ⊢
  have sum := value?_add one rise (by
    rw [Int.cast_one]
    exact growth.representable)
  rw [Int.cast_one] at sum
  exact sum

/-- Only the correction below the basic range is rounded. -/
theorem exists_value?_alphaCorrection (x : Fin 4) :
    ∃ q, q ≠ 0 ∧ value? ((ofImage e).alphaCorrection x : Float) = some q := by
  have one : value? (Scalar.one : Float) = some ((1 : Int) : Rat) :=
    value?_ofInt (n := 1) (by decide)
  have short : Short ((1 : Int) : Rat) := short_intCast (by decide)
  have nonzero : ((1 : Int) : Rat) ≠ 0 := Int.cast_ne_zero.mpr one_ne_zero
  match x with
  | 0 =>
    exact exists_value?_div one (value?_growth e 0) (short.moderate nonzero)
      ((short_growth e 0).moderate (growth_ne_zero e 0))
  | 1 => exact ⟨_, nonzero, one⟩
  | 2 => exact ⟨_, growth_ne_zero e 1, value?_growth e 1⟩
  | 3 =>
    exact ⟨_, mul_ne_zero (growth_ne_zero e 2) (growth_ne_zero e 1),
      value?_mul (value?_growth e 2) (value?_growth e 1) (short_growth_mul e 2 1).representable⟩

end
end Thermopile.Calibration
