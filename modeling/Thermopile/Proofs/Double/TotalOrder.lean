import Thermopile.Proofs.Double.Order
import Thermopile.Scalar

namespace Thermopile.Double

open Float.Model Float.Model.UnpackedFloat

/-- A finite double with the bits `c` after its sign stands for `v`, up to that sign. -/
inductive Magnitude : Nat → Rat → Prop
  | zero : Magnitude 0 0
  | finite {m : Nat} {e : Int} (h : Canonical m e) :
      Magnitude ((e + 1074).toNat * 2 ^ 52 + m) (m * 2 ^ e)

namespace Magnitude

variable {c d : Nat} {v w : Rat}

theorem nonneg (h : Magnitude c v) : 0 ≤ v := by
  cases h with
  | zero => exact le_refl 0
  | finite h => exact (value_pos h.pos _).le

/-- The exponent is in the higher bits, so greater bits are greater numbers. -/
theorem le_of_le (h : Magnitude c v) (h' : Magnitude d w) (hcd : c ≤ d) : v ≤ w := by
  cases h with
  | zero => exact h'.nonneg
  | @finite m e h =>
    cases h' with
    | zero => exact absurd h.pos (by omega)
    | @finite n f h' =>
      have start := h.exponent_ge
      have start' := h'.exponent_ge
      have short := h.mantissa_lt
      have short' := h'.mantissa_lt
      rcases lt_trichotomy e f with hef | rfl | hfe
      · exact (h.normalized.value_lt h'.normalized hef).le
      · have hmn : m ≤ n := by omega
        exact mul_le_mul_of_nonneg_right (Nat.cast_le.mpr hmn) (two_zpow_pos e).le
      · have leading : 2 ^ 52 ≤ m := h.leading.resolve_right (by omega)
        exact absurd hcd (by omega)

end Magnitude

theorem toNat_parts (b : BitVec 64) :
    b.toNat = (@unpackSign Format.binary64 b).toNat * 2 ^ 63 +
      ((@unpackExponent Format.binary64 b).toNat * 2 ^ 52 +
        (@unpackMantissa Format.binary64 b).toNat) := by
  have bound := b.isLt
  have sign : (@unpackSign Format.binary64 b).toNat = b.toNat >>> 63 % 2 ^ 1 :=
    BitVec.extractLsb_toNat 63 63 b
  have exponent : (@unpackExponent Format.binary64 b).toNat = b.toNat >>> 52 % 2 ^ 11 :=
    BitVec.extractLsb_toNat 62 52 b
  have mantissa : (@unpackMantissa Format.binary64 b).toNat = b.toNat >>> 0 % 2 ^ 52 :=
    BitVec.extractLsb_toNat 51 0 b
  rw [sign, exponent, mantissa]
  omega

theorem parts_of_unpack_zero {b : BitVec 64} {s : Sign}
    (h : UnpackedFloat.unpack Format.binary64 b = .zero s) :
    Sign.ofBitVec (@unpackSign Format.binary64 b) = s ∧
      (@unpackExponent Format.binary64 b).toNat * 2 ^ 52 +
        (@unpackMantissa Format.binary64 b).toNat = 0 := by
  unfold UnpackedFloat.unpack at h
  dsimp only at h
  split at h
  · split at h <;> cases h
  · split at h
    · rename_i exponent
      split at h
      · rename_i mantissa
        refine ⟨UnpackedFloat.zero.inj h, ?_⟩
        rw [exponent, mantissa]
        rfl
      · cases h
    · cases h

/-- A double ranks by the bits after its sign, downwards from minus one if the sign is negative. -/
theorem floatRank_eq {x : Float} (number : x.isNaN = false) {c : Nat} {s : Sign}
    (sign : Sign.ofBitVec (@unpackSign Format.binary64 x.toBits.toBitVec) = s)
    (bits : (@unpackExponent Format.binary64 x.toBits.toBitVec).toNat * 2 ^ 52 +
      (@unpackMantissa Format.binary64 x.toBits.toBitVec).toNat = c) :
    floatRank x = match s with | .positive => (c : Int) | .negative => -1 - (c : Int) := by
  have whole : x.toBits.toNat = _ := toNat_parts x.toBits.toBitVec
  have exponent_lt := (@unpackExponent Format.binary64 x.toBits.toBitVec).isLt
  have mantissa_lt := (@unpackMantissa Format.binary64 x.toBits.toBitVec).isLt
  change _ < 2 ^ 11 at exponent_lt
  change _ < 2 ^ 52 at mantissa_lt
  have half : (1 <<< 63 : Nat) = 2 ^ 63 := Nat.one_shiftLeft 63
  rw [bits] at whole
  subst sign
  unfold Sign.ofBitVec
  by_cases zero : @unpackSign Format.binary64 x.toBits.toBitVec = 0#1
  · have low : x.toBits.toNat = c := by rw [whole, zero, BitVec.toNat_zero, Nat.zero_mul, zero_add]
    rw [if_pos zero, floatRank, number, if_neg Bool.false_ne_true, half, low, if_pos (by omega)]
  · have sign_lt := (@unpackSign Format.binary64 x.toBits.toBitVec).isLt
    have one : (@unpackSign Format.binary64 x.toBits.toBitVec).toNat = 1 := by
      have nonzero : (@unpackSign Format.binary64 x.toBits.toBitVec).toNat ≠ 0 :=
        fun h => zero (BitVec.eq_of_toNat_eq h)
      omega
    have high : x.toBits.toNat = 2 ^ 63 + c := by rw [whole, one, Nat.one_mul]
    rw [if_neg zero, floatRank, number, if_neg Bool.false_ne_true, half, high, if_neg (by omega)]
    push_cast
    omega

theorem exists_magnitude {x : Float} {q : Rat} (h : value? x = some q) : ∃ c v, Magnitude c v ∧
    (floatRank x = c ∧ q = v ∨ floatRank x = -1 - (c : Int) ∧ q = -v) := by
  obtain ⟨number, -⟩ := number_of_value? h
  unfold value? at h
  cases hx : x.toModel.unpack with
  | zero s =>
    rw [hx] at h
    obtain ⟨sign, bits⟩ := parts_of_unpack_zero hx
    refine ⟨0, 0, .zero, ?_⟩
    have rank := floatRank_eq number sign bits
    obtain rfl := Option.some.inj h
    cases s with
    | positive => exact .inl ⟨rank, rfl⟩
    | negative => exact .inr ⟨rank, neg_zero.symm⟩
  | finite s m e hm =>
    rw [hx] at h
    obtain ⟨canonical, sign, bits⟩ := parts_of_unpack hx
    refine ⟨_, _, .finite canonical, ?_⟩
    have rank := floatRank_eq number sign bits
    obtain rfl := Option.some.inj h
    cases s with
    | positive => exact .inl ⟨rank, apply_cast .positive m e⟩
    | negative => exact .inr ⟨rank, apply_cast .negative m e⟩
  | infinity s => rw [hx] at h; cases h
  | notANumber => rw [hx] at h; cases h

theorem le_of_floatRank_le {x y : Float} {p q : Rat} (hx : value? x = some p)
    (hy : value? y = some q) (ranks : floatRank x ≤ floatRank y) : p ≤ q := by
  obtain ⟨c, v, hc, atX⟩ := exists_magnitude hx
  obtain ⟨d, w, hd, atY⟩ := exists_magnitude hy
  have positive := hc.nonneg
  have positive' := hd.nonneg
  rcases atX with ⟨rankX, rfl⟩ | ⟨rankX, rfl⟩ <;> rcases atY with ⟨rankY, rfl⟩ | ⟨rankY, rfl⟩
  · exact hc.le_of_le hd (by omega)
  · exact absurd ranks (by omega)
  · exact (neg_nonpos.mpr positive).trans positive'
  · exact neg_le_neg (hd.le_of_le hc (by omega))

end Thermopile.Double
