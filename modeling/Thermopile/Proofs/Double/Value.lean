import Thermopile.Proofs.Double.Division

namespace Thermopile.Double

open Float.Model Float.Model.UnpackedFloat

variable {x y : Float} {p q : Rat}

/-- The number that a double stands for, if it is finite. -/
def value? (x : Float) : Option Rat :=
  match x.toModel.unpack with
  | .zero _ => some 0
  | .finite s m e _ => some (s.apply m * 2 ^ e)
  | .infinity _ | .notANumber => none

/-- The parts of a finite double are canonical, and the bits without the sign number them. -/
theorem parts_of_unpack {b : BitVec 64} {s : Sign} {m : Nat} {e : Int} {hm : 0 < m}
    (h : UnpackedFloat.unpack Format.binary64 b = .finite s m e hm) :
    Canonical m e ∧ Sign.ofBitVec (@unpackSign Format.binary64 b) = s ∧
      (@unpackExponent Format.binary64 b).toNat * 2 ^ 52 +
        (@unpackMantissa Format.binary64 b).toNat = (e + 1074).toNat * 2 ^ 52 + m := by
  have mantissa_lt := (@unpackMantissa Format.binary64 b).isLt
  have exponent_lt := (@unpackExponent Format.binary64 b).isLt
  change _ < 2 ^ 52 at mantissa_lt
  change _ < 2 ^ 11 at exponent_lt
  unfold UnpackedFloat.unpack at h
  dsimp only at h
  split at h
  · split at h <;> cases h
  · rename_i notOnes
    split at h
    · rename_i zeros
      split at h
      · cases h
      · obtain ⟨hs, rfl, he⟩ := UnpackedFloat.finite.inj h
        rw [zeros] at he
        have smallest : e = -1074 := he.symm
        refine ⟨⟨hm, by omega, by omega, by omega, .inr smallest⟩, hs, ?_⟩
        rw [zeros, smallest]
        rfl
    · rename_i notZeros
      obtain ⟨hs, rfl, he⟩ := UnpackedFloat.finite.inj h
      have hpos : (@unpackExponent Format.binary64 b).toNat ≠ 0 := fun h0 =>
        notZeros (BitVec.eq_of_toNat_eq h0)
      have hmax : (@unpackExponent Format.binary64 b).toNat ≠ 2047 := fun h0 =>
        notOnes (BitVec.eq_of_toNat_eq h0)
      have he' : ((@unpackExponent Format.binary64 b).toNat : Int) - 1075 = e := he
      have hv : (1#1 ++ @unpackMantissa Format.binary64 b).toNat =
          2 ^ 52 + (@unpackMantissa Format.binary64 b).toNat := by
        rw [BitVec.toNat_append, ← Nat.shiftLeft_add_eq_or_of_lt (BitVec.isLt _)]
        rfl
      exact ⟨⟨hm, by omega, by omega, by omega, .inl (by omega)⟩, hs, by omega⟩

theorem canonical_of_unpack {b : BitVec 64} {s : Sign} {m : Nat} {e : Int} {hm : 0 < m}
    (h : UnpackedFloat.unpack Format.binary64 b = .finite s m e hm) : Canonical m e :=
  (parts_of_unpack h).1

theorem value?_eq_some_iff : value? x = some q ↔ Stands x.toModel.unpack q := by
  unfold value?
  constructor
  · intro h
    cases hx : x.toModel.unpack with
    | zero s =>
      rw [hx] at h
      obtain rfl := Option.some.inj h
      exact .zero s
    | finite s m e hm =>
      rw [hx] at h
      obtain rfl := Option.some.inj h
      exact .finite s (canonical_of_unpack hx)
    | infinity s => rw [hx] at h; cases h
    | notANumber => rw [hx] at h; cases h
  · intro h
    generalize x.toModel.unpack = u at h
    cases h with
    | zero s => rfl
    | finite s hc => rfl

theorem Stands.unpack_pack {u : UnpackedFloat} (h : Stands u q) :
    (Float.Model.pack u).unpack = u := by
  cases h with
  | zero s => exact unpack_packedZero
  | finite s hc => exact hc.unpack_pack s

theorem value?_ofModel_pack {u : UnpackedFloat} (h : Stands u q) :
    value? ⟨Float.Model.pack u⟩ = some q := by
  rw [value?_eq_some_iff, h.unpack_pack]
  exact h

section
variable (hx : value? x = some p) (hy : value? y = some q)
include hx hy

theorem value?_add (h : Representable (p + q)) : value? (x + y) = some (p + q) :=
  value?_ofModel_pack ((value?_eq_some_iff.mp hx).add (value?_eq_some_iff.mp hy) h)

theorem value?_mul (h : Representable (p * q)) : value? (x * y) = some (p * q) :=
  value?_ofModel_pack ((value?_eq_some_iff.mp hx).mul (value?_eq_some_iff.mp hy) h)

theorem value?_div (hq : q ≠ 0) (h : Representable (p / q)) : value? (x / y) = some (p / q) :=
  value?_ofModel_pack ((value?_eq_some_iff.mp hx).div (value?_eq_some_iff.mp hy) hq h)

theorem exists_value?_div (hp : Moderate p) (hq : Moderate q) :
    ∃ r, r ≠ 0 ∧ value? (x / y) = some r := by
  obtain ⟨r, hr, h⟩ := (value?_eq_some_iff.mp hx).exists_div (value?_eq_some_iff.mp hy) hp hq
  exact ⟨r, hr, value?_ofModel_pack h⟩

theorem beq_iff : (x == y) = true ↔ p = q :=
  (value?_eq_some_iff.mp hx).beq_iff (value?_eq_some_iff.mp hy)

end

theorem list_beq_iff {l l' : List Float} (h : ∀ x ∈ l, ∃ q, value? x = some q)
    (h' : ∀ x ∈ l', ∃ q, value? x = some q) :
    (l == l') = true ↔ l.map value? = l'.map value? := by
  induction l generalizing l' with
  | nil => cases l' <;> simp
  | cons x rest ih =>
    cases l' with
    | nil => simp
    | cons y rest' =>
      rw [List.forall_mem_cons] at h h'
      obtain ⟨⟨p, hp⟩, hr⟩ := h
      obtain ⟨⟨q, hq⟩, hr'⟩ := h'
      rw [List.cons_beq_cons, Bool.and_eq_true, beq_iff hp hq, ih hr hr', List.map_cons,
        List.map_cons, List.cons.injEq, hp, hq, Option.some.injEq]

theorem eq_of_value?_eq (hx : value? x = some q) (hy : value? y = some q) (hq : q ≠ 0) : x = y := by
  have hu := (value?_eq_some_iff.mp hx).unique (value?_eq_some_iff.mp hy) hq
  apply Float.toBits_inj.mp
  apply UInt64.toBitVec_inj.mp
  exact (unpack_inj_of_valid x.toModel.valid y.toModel.valid).mp hu

theorem number_of_value? (hx : value? x = some q) : x.isNaN = false ∧ x.isInf = false := by
  have h := value?_eq_some_iff.mp hx
  change x.toModel.unpack.isNaN = false ∧ x.toModel.unpack.isInf = false
  generalize x.toModel.unpack = u at h
  cases h with
  | zero s => exact ⟨rfl, rfl⟩
  | finite s hc => exact ⟨rfl, rfl⟩

theorem representable_div_two_pow {n : Int} {k : Nat} (hn : n.natAbs < 2 ^ 53) (hk : k ≤ 1074) :
    Representable (n / 2 ^ k) := by
  by_cases h0 : n = 0
  · subst h0
    rw [Int.cast_zero, zero_div]
    exact ⟨_, .zero .positive⟩
  · obtain ⟨s, m, hm, rfl⟩ := exists_sign h0
    have hlt : m < 2 ^ 53 := by cases s <;> simpa [Sign.apply] using hn
    have hlog := (Nat.log2_lt hm.ne').mpr hlt
    -- Zeros fill the mantissa up to 53 bits, unless the least exponent comes first.
    obtain ⟨j, hj⟩ : ∃ j : Nat, j = min (52 - m.log2) (1074 - k) := ⟨_, rfl⟩
    have hl := log2_mul_two_pow hm j
    have hp : 0 < m * 2 ^ j := Nat.mul_pos hm (Nat.two_pow_pos j)
    have hc : Canonical (m * 2 ^ j) (-k - j) := by
      refine ⟨hp, (Nat.log2_lt hp.ne').mp (by omega), by omega, by omega, ?_⟩
      rcases Nat.le_total (52 - m.log2) (1074 - k) with h | h
      · exact .inl ((Nat.le_log2 hp.ne').mp (by omega))
      · exact .inr (by omega)
    have hv : ((s.apply m : Int) : Rat) / 2 ^ k =
        s.apply (m * 2 ^ j : Nat) * 2 ^ (-k - j : Int) := by
      rw [apply_cast, mul_two_pow_zpow, ← apply_cast, zpow_neg, zpow_natCast, div_eq_mul_inv]
    rw [hv]
    exact ⟨_, .finite s hc⟩

theorem representable_intCast {n : Int} (hn : n.natAbs < 2 ^ 53) : Representable n := by
  have h := representable_div_two_pow (k := 0) hn (by decide)
  rwa [pow_zero, div_one] at h

theorem value?_toFloat {n : UInt64} (hn : n.toNat < 2 ^ 53) :
    value? n.toFloat = some (n.toNat : Rat) := by
  obtain ⟨u, hu⟩ := representable_intCast (n := n.toNat) (by simpa using hn)
  have hk : ((n.toNat : Int) : Rat) * 2 ^ (0 : Int) = (n.toNat : Int) := by rw [zpow_zero, mul_one]
  have h := value?_ofModel_pack (hu.normalize hk .positive)
  rwa [Int.cast_natCast] at h

/-- The double that integers are multiplied by for the empty power of ten. -/
theorem value?_unit : value? (Float.ofBits 0x3FF0000000000000) = some 1 := by
  have h : value? (Float.ofBits 0x3FF0000000000000) =
      some (((2 ^ 52 : Nat) : Int) * 2 ^ (-52 : Int) : Rat) := rfl
  rw [h]
  norm_num

theorem value?_ofNat {n : Nat} (hn : n < 2 ^ 53) : value? (Float.ofNat n) = some (n : Rat) := by
  have hu : (UInt64.ofNat n).toNat = n := by
    rw [UInt64.toNat_ofNat', Nat.mod_eq_of_lt (by omega)]
  have hf : Float.ofNat n = (UInt64.ofNat n).toFloat * Float.ofBits 0x3FF0000000000000 := by
    change Float.ofScientific n false 0 = _
    unfold Float.ofScientific
    rw [dif_pos ⟨hn, by decide⟩]
    rfl
  have hv := value?_toFloat (n := UInt64.ofNat n) (by rwa [hu])
  rw [hu] at hv
  have hr : Representable ((n : Rat) * 1) := by
    rw [mul_one]
    exact representable_intCast (n := n) (by simpa using hn)
  rw [hf, value?_mul hv value?_unit hr, mul_one]

theorem value?_neg (hx : value? x = some p) : value? x.neg = some (-p) := by
  have h : Stands x.toModel.unpack.neg (-p) := by
    have h := value?_eq_some_iff.mp hx
    generalize x.toModel.unpack = u at h
    cases h with
    | zero s => exact neg_zero (G := Rat) ▸ .zero _
    | @finite s m e hc =>
      have hs : -(((s.apply m : Int) : Rat) * 2 ^ e) = (-s).apply m * 2 ^ e := by
        rw [apply_cast, apply_cast]
        cases s
        · exact neg_neg _
        · rfl
      rw [hs]
      exact .finite _ hc
  exact value?_ofModel_pack h

theorem value?_ofInt {n : Int} (hn : n.natAbs < 2 ^ 53) :
    value? (Float.ofInt n) = some (n : Rat) := by
  cases n with
  | ofNat n => exact value?_ofNat hn
  | negSucc n =>
    rw [Int.cast_negSucc]
    exact value?_neg (value?_ofNat (n := n + 1) hn)

end Thermopile.Double
