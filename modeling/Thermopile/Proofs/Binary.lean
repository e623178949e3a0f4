import Thermopile.Proofs.Double.Value

namespace Thermopile.Binary

open Float.Model Float.Model.UnpackedFloat
open Thermopile.Double

variable {spec : Format} {m n : Nat} {e f : Int} {u v : UnpackedFloat} {p q : Rat}

/-- The mantissa has its leading bit, unless the exponent is the least one. -/
structure Normalized (spec : Format) (mantissa : Nat) (exponent : Int) : Prop where
  pos : 0 < mantissa
  mantissa_lt : mantissa < 2 ^ (spec.mantissaBitsWithoutImplicit + 1)
  exponent_ge : spec.minExponent ≤ exponent
  leading : 2 ^ spec.mantissaBitsWithoutImplicit ≤ mantissa ∨ exponent = spec.minExponent

namespace Normalized

/-- A greater exponent outweighs the mantissas. -/
theorem value_lt (h : Normalized spec m e) (h' : Normalized spec n f) (hef : e < f) :
    (m : Rat) * 2 ^ e < n * 2 ^ f := by
  have long : 2 ^ spec.mantissaBitsWithoutImplicit ≤ n := h'.leading.resolve_right fun hf => by
    have := h.exponent_ge
    omega
  have two : (2 : Rat) ≠ 0 := by norm_num
  calc (m : Rat) * 2 ^ e
    _ < (2 ^ (spec.mantissaBitsWithoutImplicit + 1) : Nat) * 2 ^ e :=
        mul_lt_mul_of_pos_right (Nat.cast_lt.mpr h.mantissa_lt) (two_zpow_pos e)
    _ = (2 ^ spec.mantissaBitsWithoutImplicit : Nat) * 2 ^ (e + 1) := by
        rw [zpow_add_one₀ two, pow_succ]
        push_cast
        ring
    _ ≤ n * 2 ^ (e + 1) :=
        mul_le_mul_of_nonneg_right (Nat.cast_le.mpr long) (two_zpow_pos _).le
    _ ≤ n * 2 ^ f :=
        mul_le_mul_of_nonneg_left (zpow_le_zpow_right₀ (by norm_num) hef) (Nat.cast_nonneg n)

theorem compares (h : Normalized spec m e) (h' : Normalized spec n f) :
    ((compare e f).then (compare m n)).Compares ((m : Rat) * 2 ^ e) (n * 2 ^ f) := by
  rcases lt_trichotomy e f with hef | rfl | hfe
  · rw [Int.compare_eq_lt.mpr hef]
    exact h.value_lt h' hef
  · have scale {a b : Nat} (hab : a < b) : (a : Rat) * 2 ^ e < b * 2 ^ e :=
      mul_lt_mul_of_pos_right (Nat.cast_lt.mpr hab) (two_zpow_pos e)
    rw [Int.compare_eq_eq.mpr rfl]
    rcases lt_trichotomy m n with hmn | rfl | hnm
    · rw [Nat.compare_eq_lt.mpr hmn]
      exact scale hmn
    · rw [Nat.compare_eq_eq.mpr rfl]
      rfl
    · rw [Nat.compare_eq_gt.mpr hnm]
      exact scale hnm
  · rw [Int.compare_eq_gt.mpr hfe]
    exact h'.value_lt h hfe

end Normalized

/-- The finite number of a format and what it stands for. -/
inductive Denotes (spec : Format) : UnpackedFloat → Rat → Prop
  | zero (s : Sign) : Denotes spec (.zero s) 0
  | finite (s : Sign) {m : Nat} {e : Int} (h : Normalized spec m e) :
    Denotes spec (.finite s m e h.pos) (s.apply m * 2 ^ e)

theorem compares_neg {o : Ordering} (h : o.Compares p q) : o.swap.Compares (-p) (-q) := by
  cases o with
  | lt => exact neg_lt_neg h
  | eq => exact congrArg Neg.neg h
  | gt => exact neg_lt_neg h

theorem Denotes.exists_compare (hu : Denotes spec u p) (hv : Denotes spec v q) :
    ∃ o, u.compare v = some o ∧ o.Compares p q := by
  have positive (m : Nat) (e : Int) : ((Sign.positive.apply m : Int) : Rat) * 2 ^ e = m * 2 ^ e :=
    apply_cast .positive m e
  have negative (m : Nat) (e : Int) :
      ((Sign.negative.apply m : Int) : Rat) * 2 ^ e = -(m * 2 ^ e) := apply_cast .negative m e
  cases hu with
  | zero s =>
    cases hv with
    | zero t => exact ⟨.eq, rfl, rfl⟩
    | @finite t n f hc =>
      have above := value_pos hc.pos f
      cases t with
      | positive => exact ⟨.lt, rfl, (positive n f).symm ▸ above⟩
      | negative => exact ⟨.gt, rfl, (negative n f).symm ▸ neg_neg_of_pos above⟩
  | @finite s m e hc =>
    have above := value_pos hc.pos e
    cases hv with
    | zero t =>
      cases s with
      | positive => exact ⟨.gt, rfl, (positive m e).symm ▸ above⟩
      | negative => exact ⟨.lt, rfl, (negative m e).symm ▸ neg_neg_of_pos above⟩
    | @finite t n f hc' =>
      have above' := value_pos hc'.pos f
      cases s <;> cases t <;> simp only [positive, negative]
      · exact ⟨_, rfl, compares_neg (hc.compares hc')⟩
      · exact ⟨.lt, rfl, (neg_neg_of_pos above).trans above'⟩
      · exact ⟨.gt, rfl, (neg_neg_of_pos above').trans above⟩
      · exact ⟨_, rfl, hc.compares hc'⟩

section
variable {α : Type} [LinearOrder α] {a b : α}
variable (h : ∃ o, u.compare v = some o ∧ o.Compares a b)
include h

theorem le_iff_of_compares : u.le v = true ↔ a ≤ b := by
  obtain ⟨o, compare, order⟩ := h
  rw [UnpackedFloat.le, compare, Option.any_some, ← order.ne_gt]
  cases o <;> decide

theorem lt_iff_of_compares : u.lt v = true ↔ a < b := by
  obtain ⟨o, compare, order⟩ := h
  rw [UnpackedFloat.lt, compare, ← order.eq_lt]
  cases o <;> decide

theorem beq_iff_of_compares : u.beq v = true ↔ a = b := by
  obtain ⟨o, compare, order⟩ := h
  rw [UnpackedFloat.beq, compare, ← order.eq_eq]
  cases o <;> decide

end

theorem minExponent_eq (spec : Format) :
    spec.minExponent = 1 - (spec.exponentBias + spec.mantissaBitsWithoutImplicit) := by
  have positive := Nat.two_pow_pos (spec.exponentBits - 1)
  unfold Format.minExponent Format.exponentBias Format.mantissaBits
  rw [Nat.cast_sub positive]
  push_cast
  ring

/-- The leading bit of a number that is long enough is not stored. -/
theorem toNat_append_leading {k : Nat} (mantissa : BitVec k) :
    (1#1 ++ mantissa).toNat = 2 ^ k + mantissa.toNat := by
  rw [BitVec.toNat_append, ← Nat.shiftLeft_add_eq_or_of_lt mantissa.isLt]
  exact congrArg (· + mantissa.toNat) (Nat.one_shiftLeft k)

theorem normalized_of_unpack {b : BitVec spec.numBits} {s : Sign} {hm : 0 < m}
    (h : UnpackedFloat.unpack spec b = .finite s m e hm) : Normalized spec m e := by
  have mantissa_lt := (unpackMantissa b).isLt
  have least := minExponent_eq spec
  unfold UnpackedFloat.unpack at h
  dsimp only at h
  split at h
  · split at h <;> cases h
  · split at h
    · rename_i zeros
      split at h
      · cases h
      · obtain ⟨-, rfl, he⟩ := UnpackedFloat.finite.inj h
        rw [zeros, BitVec.toNat_zero] at he
        have smallest : e = spec.minExponent := by omega
        exact ⟨hm, by omega, smallest.ge, .inr smallest⟩
    · rename_i notZeros
      obtain ⟨-, rfl, rfl⟩ := UnpackedFloat.finite.inj h
      have positive : (unpackExponent b).toNat ≠ 0 := fun h0 =>
        notZeros (BitVec.eq_of_toNat_eq h0)
      have full := toNat_append_leading (unpackMantissa b)
      exact ⟨hm, by omega, by omega, .inl (by omega)⟩

/-- The number that an unpacked float stands for, if it is finite. -/
def number? (u : UnpackedFloat) : Option Rat :=
  match u with
  | .zero _ => some 0
  | .finite s m e _ => some (s.apply m * 2 ^ e)
  | .infinity _ | .notANumber => none

theorem denotes_of_number? {b : BitVec spec.numBits}
    (h : number? (UnpackedFloat.unpack spec b) = some q) :
    Denotes spec (UnpackedFloat.unpack spec b) q := by
  cases hb : UnpackedFloat.unpack spec b with
  | zero s =>
    rw [hb] at h
    obtain rfl := Option.some.inj h
    exact .zero s
  | finite s m e hm =>
    rw [hb] at h
    obtain rfl := Option.some.inj h
    exact .finite s (normalized_of_unpack hb)
  | infinity s => rw [hb] at h; cases h
  | notANumber => rw [hb] at h; cases h

def truncated (q : Rat) : Int := if 0 ≤ q then ⌊q⌋ else ⌈q⌉

theorem truncated_intCast (k : Int) : truncated k = k := by
  unfold truncated
  split
  · exact Int.floor_intCast k
  · exact Int.ceil_intCast k

theorem truncated_eq_iff : (truncated q : Rat) = q ↔ q.den = 1 := by
  rw [Rat.den_eq_one_iff]
  constructor
  · intro h
    rw [← h, Rat.num_intCast]
  · intro h
    rw [← h, truncated_intCast]

theorem roundToInt_positive (m : Nat) (e : Int) :
    roundToInt .positive m e = ⌊(m : Rat) * 2 ^ e⌋ := by
  unfold roundToInt decreaseExponent shiftToExponent
  change ((ExtendedMantissa.mantissa (_ >>> _) : Nat) : Int) = _
  rw [mantissa_shiftRight, mantissa_ofMantissaAndAccuracy, Nat.shiftLeft_eq]
  rcases e.le_total 0 with he | he
  · obtain ⟨d, rfl⟩ : ∃ d : Nat, e = -d := ⟨e.natAbs, by omega⟩
    have left : (-(d : Int) - 0).toNat = 0 := by omega
    have right : (0 - (-(d : Int) - (0 : Nat))).toNat = d := by omega
    rw [left, right, pow_zero, mul_one, zpow_neg, zpow_natCast, ← div_eq_mul_inv]
    exact_mod_cast (Rat.floor_natCast_div_natCast m (2 ^ d)).symm
  · obtain ⟨d, rfl⟩ := Int.eq_ofNat_of_zero_le he
    have left : ((d : Int) - 0).toNat = d := by omega
    have right : (0 - ((d : Int) - d)).toNat = 0 := by omega
    rw [left, right, pow_zero, Nat.div_one, zpow_natCast]
    exact_mod_cast (Int.floor_natCast (m * 2 ^ d)).symm

theorem roundToInt_eq (s : Sign) (hm : 0 < m) (e : Int) :
    roundToInt s m e = truncated (s.apply m * 2 ^ e) := by
  have above := value_pos hm e
  rw [truncated, apply_cast]
  cases s with
  | positive => rw [if_pos above.le, roundToInt_positive]
  | negative =>
    rw [if_neg (neg_neg_of_pos above).not_ge, Int.ceil_neg, ← roundToInt_positive]
    rfl

theorem Denotes.toInt_eq (h : Denotes spec u q) (low high : Int) :
    u.toInt low high = truncated q := by
  cases h with
  | zero s => rfl
  | @finite s m e hc => exact roundToInt_eq s hc.pos e

end Thermopile.Binary
