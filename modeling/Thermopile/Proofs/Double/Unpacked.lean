import Thermopile.Proofs.Double.Packing

namespace Thermopile.Double

open Float.Model Float.Model.UnpackedFloat

variable {m n : Nat} {e f : Int} {u v : UnpackedFloat} {p q : Rat}

/-- The unpacked double, which is finite, and the number that it stands for. -/
inductive Stands : UnpackedFloat → Rat → Prop
  | zero (s : Sign) : Stands (.zero s) 0
  | finite (s : Sign) {m : Nat} {e : Int} (h : Canonical m e) :
    Stands (.finite s m e h.pos) (s.apply m * 2 ^ e)

def Representable (q : Rat) : Prop := ∃ u, Stands u q

theorem two_zpow_pos (e : Int) : (0 : Rat) < 2 ^ e := zpow_pos (by norm_num) e

theorem value_pos (hm : 0 < m) (e : Int) : (0 : Rat) < m * 2 ^ e :=
  mul_pos (by exact_mod_cast hm) (two_zpow_pos e)

theorem apply_cast (s : Sign) (m : Nat) (e : Int) :
    ((s.apply m : Int) : Rat) * 2 ^ e =
      match s with
      | .positive => m * 2 ^ e
      | .negative => -(m * 2 ^ e) := by
  cases s with
  | positive => rfl
  | negative => simp [Sign.apply]

theorem apply_ne_zero (s : Sign) (hn : 0 < n) (f : Int) :
    ((s.apply n : Int) : Rat) * 2 ^ f ≠ 0 := by
  have hp := value_pos hn f
  rw [apply_cast]
  cases s with
  | positive => exact hp.ne'
  | negative => exact neg_ne_zero.mpr hp.ne'

theorem apply_mul (s t : Sign) (m n : Nat) :
    (s * t).apply ((m * n : Nat) : Int) = s.apply m * t.apply n := by
  rw [Nat.cast_mul]
  cases s <;> cases t
  · exact (neg_mul_neg _ _).symm
  · exact (neg_mul _ _).symm
  · exact (mul_neg _ _).symm
  · rfl

/-- A number that is not zero determines sign and magnitude. -/
theorem sign_unique {s t : Sign} (hm : 0 < m) (hn : 0 < n)
    (h : ((t.apply n : Int) : Rat) * 2 ^ f = s.apply m * 2 ^ e) :
    t = s ∧ (n : Rat) * 2 ^ f = m * 2 ^ e := by
  have hmp := value_pos hm e
  have hnp := value_pos hn f
  rw [apply_cast, apply_cast] at h
  cases s <;> cases t <;> simp only [neg_inj] at h
  · exact ⟨rfl, h⟩
  · linarith
  · linarith
  · exact ⟨rfl, h⟩

theorem Stands.exists_finite (h : Stands u q) (hq : q ≠ 0) :
    ∃ s m e, ∃ hc : Canonical m e, u = .finite s m e hc.pos ∧ q = s.apply m * 2 ^ e := by
  cases h with
  | zero => exact absurd rfl hq
  | finite s hc => exact ⟨s, _, _, hc, rfl, rfl⟩

theorem totalExponent_eq_of_value_eq (hn : 0 < n) (hm : 0 < m)
    (h : (n : Rat) * 2 ^ f = m * 2 ^ e) : totalExponent n f = totalExponent m e := by
  rcases shifted_of_value_eq h with ⟨d, rfl, rfl⟩ | ⟨d, rfl, rfl⟩
  · exact totalExponent_mul_two_pow hm d e
  · exact (totalExponent_mul_two_pow hn d f).symm

theorem Canonical.unique (h : Canonical m e) (h' : Canonical n f)
    (hv : (n : Rat) * 2 ^ f = m * 2 ^ e) : n = m ∧ f = e := by
  have ht := totalExponent_eq_of_value_eq h'.pos h.pos hv
  have he : f = e := by rw [← h.target, ← h'.target, ht]
  subst he
  exact ⟨eq_of_mul_zpow_eq hv, rfl⟩

/-- Zero has two signs. -/
theorem Stands.unique (h : Stands u q) (h' : Stands v q) (hq : q ≠ 0) : u = v := by
  obtain ⟨s, m, e, hc, rfl, rfl⟩ := h.exists_finite hq
  obtain ⟨t, n, f, hc', rfl, hv⟩ := h'.exists_finite hq
  obtain ⟨rfl, value⟩ := sign_unique hc.pos hc'.pos hv.symm
  obtain ⟨rfl, rfl⟩ := hc.unique hc' value
  rfl

theorem Stands.exists_zero (h : Stands u 0) : ∃ s, u = .zero s := by
  generalize hq : (0 : Rat) = q at h
  cases h with
  | zero s => exact ⟨s, rfl⟩
  | finite s hc => exact absurd hq.symm (apply_ne_zero s hc.pos _)

theorem Stands.value_unique (h : Stands u p) (h' : Stands u q) : p = q := by
  cases h with
  | zero s => cases h'; rfl
  | finite s hc => cases h'; rfl

/-- Zeros of both signs compare equal. -/
theorem Stands.beq_iff (hu : Stands u p) (hv : Stands v q) : u.beq v = true ↔ p = q := by
  rw [beq_iff_ne_notANumber_and_eq]
  constructor
  · rintro ⟨-, -, rfl | ⟨rfl, rfl⟩ | ⟨rfl, rfl⟩⟩
    · exact hu.value_unique hv
    · cases hu; cases hv; rfl
    · cases hu; cases hv; rfl
  · rintro rfl
    have number {w : UnpackedFloat} (hw : Stands w p) : w ≠ .notANumber := by
      rintro rfl
      cases hw
    refine ⟨number hu, number hv, ?_⟩
    by_cases hp : p = 0
    -- Only a zero is unpacked in two ways, and these compare equal.
    · subst hp
      obtain ⟨s, rfl⟩ := hu.exists_zero
      obtain ⟨t, rfl⟩ := hv.exists_zero
      cases s <;> cases t <;> simp
    · exact .inl (hu.unique hv hp)

theorem exists_sign {k : Int} (hk : k ≠ 0) : ∃ s : Sign, ∃ n : Nat, 0 < n ∧ k = s.apply n := by
  rcases lt_or_gt_of_ne hk with h | h
  · exact ⟨.negative, k.natAbs, by omega, show k = -(k.natAbs : Int) by omega⟩
  · exact ⟨.positive, k.natAbs, by omega, show k = (k.natAbs : Int) by omega⟩

theorem normalize_apply (s z : Sign) (hn : 0 < n) (f : Int) :
    UnpackedFloat.normalize Format.binary64 (s.apply n) f z = round Format.binary64 s n f := by
  unfold UnpackedFloat.normalize
  cases s with
  | positive =>
    change (match compare (n : Int) 0 with | .lt => _ | .eq => _ | .gt => _) = _
    rw [Int.compare_eq_gt.mpr (by omega)]
    rfl
  | negative =>
    change (match compare (-n : Int) 0 with | .lt => _ | .eq => _ | .gt => _) = _
    rw [Int.compare_eq_lt.mpr (by omega)]
    change round Format.binary64 .negative (-(-(n : Int))).toNat f = _
    rw [neg_neg, Int.toNat_natCast]

theorem Stands.normalize (h : Stands u q) {k : Int} (hk : (k : Rat) * 2 ^ f = q) (z : Sign) :
    Stands (UnpackedFloat.normalize Format.binary64 k f z) q := by
  by_cases k0 : k = 0
  · subst k0
    rw [Int.cast_zero, zero_mul] at hk
    subst hk
    exact .zero z
  · have hq : q ≠ 0 := by
      rw [← hk]
      exact mul_ne_zero (by exact_mod_cast k0) (two_zpow_pos f).ne'
    obtain ⟨s, m, e, hc, rfl, rfl⟩ := h.exists_finite hq
    obtain ⟨t, n, hn, rfl⟩ := exists_sign k0
    obtain ⟨rfl, value⟩ := sign_unique hc.pos hn hk
    rw [normalize_apply t z hn, hc.round t value]
    exact .finite t hc

theorem shiftLeft_value (s : Sign) (m : Nat) (hf : f ≤ e) :
    ((s.apply (m <<< (e - f).toNat : Nat) : Int) : Rat) * 2 ^ f = s.apply m * 2 ^ e := by
  obtain ⟨d, rfl⟩ : ∃ d : Nat, f = e - d := ⟨(e - f).toNat, by omega⟩
  have hd : (e - (e - (d : Int))).toNat = d := by omega
  rw [hd, Nat.shiftLeft_eq, apply_cast, apply_cast, mul_two_pow_zpow]

theorem Stands.add (hu : Stands u p) (hv : Stands v q) (h : Representable (p + q)) :
    Stands (UnpackedFloat.add Format.binary64 u v) (p + q) := by
  obtain ⟨w, hw⟩ := h
  cases hu with
  | zero s =>
    rw [zero_add]
    cases hv with
    | zero t =>
      change Stands (if s == t then .zero s else .zero .positive) 0
      split
      · exact .zero s
      · exact .zero .positive
    | finite t hc => exact .finite t hc
  | finite s hc =>
    cases hv with
    | zero t =>
      rw [add_zero]
      exact .finite s hc
    | @finite t n f hc' =>
      apply hw.normalize
      rw [Int.cast_add, add_mul, shiftLeft_value s _ (min_le_left _ _),
        shiftLeft_value t _ (min_le_right _ _)]

/-- A mantissa that is not too short leads to the canonical form by shifting right. -/
theorem Canonical.exponent_ge_of_value_eq (h : Canonical m e)
    (hv : (n : Rat) * 2 ^ f = m * 2 ^ e) (hn : 2 ^ 52 ≤ n ∨ f ≤ -1074) : f ≤ e := by
  rcases shifted_of_value_eq hv with ⟨d, rfl, -⟩ | ⟨d, rfl, rfl⟩
  · omega
  -- Shifted left to the canonical form, `n` would be a bit too long or below the least exponent.
  · have hlt := h.mantissa_lt
    have hge := h.exponent_ge
    rcases Nat.eq_zero_or_pos d with rfl | hd
    · omega
    · have two : 2 ^ 1 ≤ 2 ^ d := Nat.pow_le_pow_right (by decide) hd
      rcases hn with hn | hf
      · have long := Nat.mul_le_mul hn two
        omega
      · omega

theorem Canonical.roundWithAccuracy_of_le (h : Canonical m e) (s : Sign)
    (hv : (n : Rat) * 2 ^ f = m * 2 ^ e) (hf : f ≤ e) :
    UnpackedFloat.roundWithAccuracy Format.binary64 s n f .exact = .finite s m e h.pos := by
  obtain ⟨d, rfl⟩ : ∃ d : Nat, f = e - d := ⟨(e - f).toNat, by omega⟩
  rw [← mul_two_pow_zpow m d e] at hv
  obtain rfl := eq_of_mul_zpow_eq hv
  exact h.roundWithAccuracy s d

theorem Stands.roundWithAccuracy (h : Stands u q) {s : Sign} (hn : 0 < n)
    (hq : q = s.apply n * 2 ^ f)
    (hf : ∀ m e, Canonical m e → (n : Rat) * 2 ^ f = m * 2 ^ e → f ≤ e) :
    Stands (UnpackedFloat.roundWithAccuracy Format.binary64 s n f .exact) q := by
  have nonzero : q ≠ 0 := hq ▸ apply_ne_zero s hn f
  obtain ⟨t, m, e, hc, -, rfl⟩ := h.exists_finite nonzero
  obtain ⟨rfl, magnitude⟩ := sign_unique hc.pos hn hq.symm
  rw [hc.roundWithAccuracy_of_le s magnitude (hf m e hc magnitude)]
  exact .finite s hc

theorem Canonical.mul_bounds (h : Canonical m e) (h' : Canonical n f) :
    2 ^ 52 ≤ m * n ∨ e + f ≤ -1074 := by
  rcases h.leading with hl | he
  · exact .inl (hl.trans (Nat.le_mul_of_pos_right m h'.pos))
  · rcases h'.leading with hl | hf
    · exact .inl (hl.trans (Nat.le_mul_of_pos_left n h.pos))
    · exact .inr (by omega)

theorem Stands.mul (hu : Stands u p) (hv : Stands v q) (h : Representable (p * q)) :
    Stands (UnpackedFloat.mul Format.binary64 u v) (p * q) := by
  obtain ⟨w, hw⟩ := h
  cases hu with
  | zero s =>
    rw [zero_mul]
    cases hv with
    | zero t => exact .zero _
    | finite t hc => exact .zero _
  | @finite s m e hc =>
    cases hv with
    | zero t =>
      rw [mul_zero]
      exact .zero _
    | @finite t n f hc' =>
      have hp : (s.apply m * 2 ^ e : Rat) * (t.apply n * 2 ^ f) =
          ((s * t).apply (m * n : Nat) : Int) * 2 ^ (e + f) := by
        rw [apply_mul, zpow_add₀ (by norm_num : (2 : Rat) ≠ 0)]
        push_cast
        ring
      exact hw.roundWithAccuracy (Nat.mul_pos hc.pos hc'.pos) hp
        fun _ _ hk hv => hk.exponent_ge_of_value_eq hv (hc.mul_bounds hc')

end Thermopile.Double
