import Thermopile.Proofs.Double.Rounding

namespace Thermopile.Double

open Float.Model Float.Model.UnpackedFloat

variable {m : Nat} {e : Int}

theorem ofNat_ne_marker {b : Nat} (hb : 0 < b) (hb' : b < 2047) :
    BitVec.ofNat 11 b ≠ -1#11 ∧ BitVec.ofNat 11 b ≠ 0#11 := by
  have hn : (BitVec.ofNat 11 b).toNat = b := by
    rw [BitVec.toNat_ofNat, Nat.mod_eq_of_lt (by omega)]
  constructor
  · intro h
    have hh : (BitVec.ofNat 11 b).toNat = 2047 := congrArg BitVec.toNat h
    omega
  · intro h
    have hh : (BitVec.ofNat 11 b).toNat = 0 := congrArg BitVec.toNat h
    omega

theorem unpack_normal (s : Sign) {b : Nat} (hb : 0 < b) (hb' : b < 2047) (v : BitVec 52)
    (hm : 0 < m) (hv : 2 ^ 52 + v.toNat = m) (he : (b : Int) - 1075 = e) :
    UnpackedFloat.unpack Format.binary64
      (packComponents Format.binary64 s (BitVec.ofNat 11 b) v) = .finite s m e hm := by
  obtain ⟨ones, zeros⟩ := ofNat_ne_marker hb hb'
  have hn : (BitVec.ofNat 11 b).toNat = b := by
    rw [BitVec.toNat_ofNat, Nat.mod_eq_of_lt (by omega)]
  have full : (1#1 ++ v).toNat = m := by
    rw [BitVec.toNat_append, ← Nat.shiftLeft_add_eq_or_of_lt v.isLt, ← hv]
    rfl
  unfold UnpackedFloat.unpack
  simp only [unpackExponent_packComponents, unpackMantissa_packComponents,
    unpackSign_packComponents, Sign.ofBitVec_toBitVec, if_neg ones, if_neg zeros, hn, full]
  congr 1

theorem unpack_subnormal (s : Sign) (v : BitVec 52) (hm : 0 < m) (hv : v.toNat = m) :
    UnpackedFloat.unpack Format.binary64 (packComponents Format.binary64 s 0#11 v) =
      .finite s m (-1074) hm := by
  have nonzero : v ≠ 0#52 := by
    intro h
    rw [h] at hv
    exact hm.ne hv
  unfold UnpackedFloat.unpack
  simp only [unpackExponent_packComponents, unpackMantissa_packComponents,
    unpackSign_packComponents, Sign.ofBitVec_toBitVec, hv]
  rw [if_neg (by decide), if_pos trivial, dif_neg nonzero]
  rfl

theorem Canonical.unpack_pack (h : Canonical m e) (s : Sign) :
    UnpackedFloat.unpack Format.binary64
      (UnpackedFloat.pack Format.binary64 (.finite s m e h.pos)) = .finite s m e h.pos := by
  have hge := h.exponent_ge
  have hle := h.exponent_le
  have hlt := h.mantissa_lt
  have fits : ¬2 ^ 11 ≤ (e + 1023 + 52).toNat + 1 := by omega
  have packed : UnpackedFloat.pack Format.binary64 (.finite s m e h.pos) =
      if m.log2 + 1 = 53 then
        packComponents Format.binary64 s (BitVec.ofNat 11 (e + 1023 + 52).toNat) (BitVec.ofNat 52 m)
      else packComponents Format.binary64 s 0#11 (BitVec.ofNat 52 m) := if_neg fits
  rw [packed]
  -- A normal double leaves out its leading bit; one without that bit keeps its mantissa as it is.
  by_cases leading : 2 ^ 52 ≤ m
  · have hlog : m.log2 + 1 = 53 := by
      have hl := (Nat.le_log2 h.pos.ne').mpr leading
      have hu := h.log2_lt
      omega
    have hv : 2 ^ 52 + (BitVec.ofNat 52 m).toNat = m := by
      rw [BitVec.toNat_ofNat]
      omega
    rw [if_pos hlog]
    exact unpack_normal s (by omega) (by omega) _ h.pos hv (by omega)
  · obtain rfl : e = -1074 := h.leading.resolve_left leading
    have hlog : m.log2 + 1 ≠ 53 := by
      have hu := (Nat.log2_lt h.pos.ne').mpr (Nat.lt_of_not_le leading)
      omega
    have hv : (BitVec.ofNat 52 m).toNat = m := by
      rw [BitVec.toNat_ofNat]
      omega
    rw [if_neg hlog]
    exact unpack_subnormal s _ h.pos hv

end Thermopile.Double
