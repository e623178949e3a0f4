import Thermopile.Rate
import Thermopile.Proofs.Single

namespace Thermopile.FrameRate

open Single Binary
open Double (apply_cast mul_two_pow_zpow)

variable {r : FrameRate} {v : Float32} {q : Rat} {fault : Fault} {n : Nat}

def perSecond (r : FrameRate) : Rat := 2 ^ (r.code - 1 : Int)

theorem perSecond_ne_zero (r : FrameRate) : r.perSecond ≠ 0 := zpow_ne_zero _ (by norm_num)

theorem perSecond_eq_cast (hr : r ≠ half) : r.perSecond = (1 <<< (r.code - 1) : Nat) := by
  have positive : 0 < r.code := by
    cases r <;> first | exact absurd rfl hr | decide
  obtain ⟨k, hk⟩ := Nat.exists_eq_succ_of_ne_zero positive.ne'
  rw [perSecond, hk, Nat.one_shiftLeft]
  push_cast
  rw [add_sub_cancel_right, zpow_natCast]

theorem value?_hertz (r : FrameRate) : value? r.hertz = some r.perSecond := by
  have parts : value? r.hertz =
      some (((1 * 2 ^ 23 : Nat) : Int) * 2 ^ ((r.code - 1 : Int) - (23 : Nat)) : Rat) := by
    cases r <;> rfl
  rw [parts, Int.cast_natCast, mul_two_pow_zpow, Nat.cast_one, one_mul, perSecond]

/-- The period of `n` measurements per second is the `n`th part of a second. -/
theorem period_mul_perSecond (r : FrameRate) : (r.period : Rat) * r.perSecond = 10 ^ 9 := by
  cases r <;> norm_num [period, Duration.ofMicros, perSecond, code, Nat.shiftRight_eq_div_pow]

theorem beq_hertz_iff : (v == r.hertz) = true ↔ value? v = some r.perSecond :=
  beq_iff_value? (value?_hertz r)

theorem ofHertz?_hertz (r : FrameRate) : ofHertz? r.hertz = .ok r := by
  cases r <;> rfl

theorem ofWholeHertz?_eq_ok_iff :
    ofWholeHertz? n = .ok r ↔ r ≠ half ∧ n = 1 <<< (r.code - 1) := by
  constructor
  · intro h
    unfold ofWholeHertz? at h
    split at h
    · rename_i found
      obtain rfl := Except.ok.inj h
      have named := List.find?_some found
      simpa using named
    · cases h
  · rintro ⟨hr, rfl⟩
    cases r <;> first | exact absurd rfl hr | rfl

theorem fault_of_ofWholeHertz? (h : ofWholeHertz? n = .error fault) : fault = unmatched := by
  unfold ofWholeHertz? at h
  split at h
  · cases h
  · exact (Except.error.inj h).symm

theorem fault_of_ofHertz? (h : ofHertz? v = .error fault) : fault = unmatched := by
  unfold ofHertz? at h
  split at h
  · cases h
  · split at h
    · exact fault_of_ofWholeHertz? h
    · exact (Except.error.inj h).symm

/-- What a finite single has after the point, with its sign. It is a single again, so taking away
the whole part rounds nothing. -/
def fraction? (v : Float32) : Option Rat := (value? v).map fun q => q - truncated q

/-- The cast to an octet, for the whole numbers from 1 to 64 only. -/
def octet? (v : Float32) : Option UInt8 :=
  (value? v).bind fun q => if q.den = 1 ∧ 1 ≤ q ∧ q ≤ 64 then some v.toUInt8 else none

/-- The rate of `v` measurements per second, for which `v` is cast only after tests of its range and
of its fraction. -/
def ofHertzBySteps? (v : Float32) : Option (Except Fault FrameRate) :=
  if v == half.hertz then some (.ok half)
  else if fraction? v = some 0 ∧ 1 ≤ v ∧ v ≤ 64 then
    (octet? v).map fun n => ofWholeHertz? n.toNat
  else some (.error unmatched)

theorem shift_eq_iff (m : Nat) (e : Int) :
    m >>> (-e).toNat <<< (-e).toNat = m ↔ ((m : Rat) * 2 ^ e).den = 1 := by
  rw [Nat.shiftLeft_eq, Nat.shiftRight_eq_div_pow]
  rcases e.le_total 0 with he | he
  · obtain ⟨d, rfl⟩ : ∃ d : Nat, e = -d := ⟨e.natAbs, by omega⟩
    have amount : (-(-(d : Int))).toNat = d := by omega
    have quotient : (m : Rat) * 2 ^ (-(d : Int)) = m / (2 ^ d : Nat) := by
      rw [zpow_neg, zpow_natCast, div_eq_mul_inv, Nat.cast_pow, Nat.cast_ofNat]
    rw [amount, quotient, Rat.den_div_natCast_eq_one_iff _ _ (Nat.two_pow_pos d).ne']
    exact ⟨Dvd.intro_left _, Nat.div_mul_cancel⟩
  · obtain ⟨d, rfl⟩ := Int.eq_ofNat_of_zero_le he
    have amount : (-(d : Int)).toNat = 0 := by omega
    have integer : (m : Rat) * 2 ^ (d : Int) = (m * 2 ^ d : Nat) := by
      rw [zpow_natCast, Nat.cast_mul, Nat.cast_pow, Nat.cast_ofNat]
    rw [amount, pow_zero, Nat.div_one, mul_one, integer]
    exact iff_of_true rfl (Rat.den_natCast _)

theorem fraction?_eq_zero_iff (hv : value? v = some q) : fraction? v = some 0 ↔ q.den = 1 := by
  rw [fraction?, hv, Option.map_some, Option.some_inj, sub_eq_zero, eq_comm, truncated_eq_iff]

theorem isWhole_iff : isWhole v = true ↔ fraction? v = some 0 := by
  unfold isWhole
  cases unpacked : v.toModel.unpack with
  | zero s =>
    have hv : value? v = some 0 := congrArg number? unpacked
    rw [fraction?_eq_zero_iff hv]
    exact iff_of_true rfl rfl
  | finite s m e hm =>
    have hv : value? v = some ((s.apply m : Int) * 2 ^ e : Rat) := congrArg number? unpacked
    have unsigned : ((s.apply m : Int) * 2 ^ e : Rat).den = ((m : Rat) * 2 ^ e).den := by
      rw [apply_cast]
      cases s with
      | positive => rfl
      | negative => exact Rat.den_neg_eq_den _
    rw [fraction?_eq_zero_iff hv, unsigned, ← shift_eq_iff]
    exact beq_iff_eq
  | infinity s =>
    have hv : value? v = none := congrArg number? unpacked
    rw [fraction?, hv]
    exact iff_of_false Bool.false_ne_true nofun
  | notANumber =>
    have hv : value? v = none := congrArg number? unpacked
    rw [fraction?, hv]
    exact iff_of_false Bool.false_ne_true nofun

theorem octet?_eq_some_iff {n : UInt8} :
    octet? v = some n ↔ value? v = some (n.toNat : Rat) ∧ 1 ≤ n.toNat ∧ n.toNat ≤ 64 := by
  unfold octet?
  constructor
  · intro h
    obtain ⟨q, hv, cast⟩ := Option.bind_eq_some_iff.mp h
    split at cast
    · rename_i passes
      obtain ⟨whole, least, greatest⟩ := passes
      obtain rfl := Option.some.inj cast
      obtain ⟨k, hk⟩ := Int.eq_ofNat_of_zero_le (Rat.num_nonneg.mpr (zero_le_one.trans least))
      have number : q = k := by rw [← (Rat.den_eq_one_iff q).mp whole, hk, Int.cast_natCast]
      rw [number] at hv least greatest
      have low : 1 ≤ k := by exact_mod_cast least
      have high : k ≤ 64 := by exact_mod_cast greatest
      rw [toNat_toUInt8_of_le hv (by omega)]
      exact ⟨hv, low, high⟩
    · cases cast
  · rintro ⟨hv, least, greatest⟩
    have passes : ((n.toNat : Nat) : Rat).den = 1 ∧ (1 : Rat) ≤ n.toNat ∧ (n.toNat : Rat) ≤ 64 :=
      ⟨Rat.den_natCast _, by exact_mod_cast least, by exact_mod_cast greatest⟩
    rw [hv, Option.bind_some, if_pos passes]
    exact congrArg some (UInt8.toNat_inj.mp (toNat_toUInt8_of_le hv (by omega)))

/-- The tests let through what the cast is defined for. -/
theorem passes_iff : (fraction? v = some 0 ∧ 1 ≤ v ∧ v ≤ 64) ↔ ∃ n, octet? v = some n := by
  have least : value? 1 = some 1 := by
    have h := value?_hertz one
    rwa [perSecond_eq_cast (by decide)] at h
  have greatest : value? 64 = some 64 := by
    have h := value?_hertz sixtyFour
    rwa [perSecond_eq_cast (by decide)] at h
  cases hv : value? v with
  | none => simp [fraction?, octet?, hv]
  | some q =>
    rw [fraction?_eq_zero_iff hv, le_iff least hv, le_iff hv greatest, octet?, hv,
      Option.bind_some]
    constructor
    · exact fun passes => ⟨v.toUInt8, if_pos passes⟩
    · rintro ⟨n, cast⟩
      split at cast
      · assumption
      · cases cast

theorem octet?_of_passes (passes : isWhole v ∧ 1 ≤ v ∧ v ≤ 64) : octet? v = some v.toUInt8 := by
  obtain ⟨n, cast⟩ := passes_iff.mp ⟨isWhole_iff.mp passes.1, passes.2⟩
  obtain ⟨q, hv, tested⟩ := Option.bind_eq_some_iff.mp cast
  split at tested
  · rw [cast, tested]
  · cases tested

theorem ofHertz?_eq_ok_iff : ofHertz? v = .ok r ↔ value? v = some r.perSecond := by
  constructor
  · intro h
    unfold ofHertz? at h
    split at h
    · rename_i equal
      obtain rfl := Except.ok.inj h
      exact beq_hertz_iff.mp equal
    · split at h
      · rename_i passes
        obtain ⟨hr, named⟩ := ofWholeHertz?_eq_ok_iff.mp h
        have cast := (octet?_eq_some_iff.mp (octet?_of_passes passes)).1
        rw [cast, named, perSecond_eq_cast hr]
      · cases h
  · intro h
    rw [eq_of_value?_eq h (value?_hertz r) r.perSecond_ne_zero]
    exact ofHertz?_hertz r

theorem ofHertz?_eq_error_iff : ofHertz? v = .error fault ↔
    (∀ r : FrameRate, value? v ≠ some r.perSecond) ∧ fault = unmatched := by
  constructor
  · intro h
    refine ⟨fun r hv => ?_, fault_of_ofHertz? h⟩
    rw [ofHertz?_eq_ok_iff.mpr hv] at h
    cases h
  · rintro ⟨other, rfl⟩
    cases h : ofHertz? v with
    | ok r => exact absurd (ofHertz?_eq_ok_iff.mp h) (other r)
    | error fault => rw [fault_of_ofHertz? h]

theorem ofHertzBySteps?_eq (v : Float32) : ofHertzBySteps? v = some (ofHertz? v) := by
  unfold ofHertzBySteps? ofHertz?
  simp only [← isWhole_iff]
  split
  · rfl
  · split
    · rename_i passes
      rw [octet?_of_passes passes, Option.map_some]
    · rfl

theorem toNat_toBits_hertz (r : FrameRate) : r.hertz.toBits.toNat = (126 + r.code) * 2 ^ 23 := by
  cases r <;> rfl

theorem ofHertz?_ofBits_eq_ok_iff (bits : UInt32) :
    ofHertz? (Float32.ofBits bits) = .ok r ↔ bits.toNat = (126 + r.code) * 2 ^ 23 := by
  have stored : Float32.ofBits bits = r.hertz ↔ bits = r.hertz.toBits :=
    ofBits_eq_iff (value?_hertz r)
  rw [ofHertz?_eq_ok_iff, ← toNat_toBits_hertz, UInt32.toNat_inj, ← stored]
  constructor
  · exact fun hv => eq_of_value?_eq hv (value?_hertz r) r.perSecond_ne_zero
  · intro same
    rw [same]
    exact value?_hertz r

/-- The singles that stand for one of the eight rates are that rate, and all others are invalid. The
cast to an octet meets whole numbers from 1 to 64 only. Of all patterns of bits, undefined ones
included, eight are accepted. -/
theorem accepts_rates_only (v : Float32) :
    (∀ r : FrameRate, ofHertz? v = .ok r ↔ value? v = some r.perSecond) ∧
    (∀ r : FrameRate, (v == r.hertz) = true ↔ value? v = some r.perSecond) ∧
    (∀ fault, ofHertz? v = .error fault ↔
      (∀ r : FrameRate, value? v ≠ some r.perSecond) ∧
      fault = .invalidData "The given number does not match a valid frame rate") ∧
    ofHertzBySteps? v = some (ofHertz? v) ∧
    (∀ n : UInt8, octet? v = some n ↔
      value? v = some (n.toNat : Rat) ∧ 1 ≤ n.toNat ∧ n.toNat ≤ 64) ∧
    (∀ r : FrameRate, ofHertz? r.hertz = .ok r) ∧
    ∀ (bits : UInt32) (r : FrameRate),
      ofHertz? (Float32.ofBits bits) = .ok r ↔ bits.toNat = (126 + r.code) * 2 ^ 23 :=
  ⟨fun _ => ofHertz?_eq_ok_iff, fun _ => beq_hertz_iff, fun _ => ofHertz?_eq_error_iff,
    ofHertzBySteps?_eq v, fun _ => octet?_eq_some_iff, ofHertz?_hertz,
    fun bits _ => ofHertz?_ofBits_eq_ok_iff bits⟩

end Thermopile.FrameRate
