import Thermopile.Proofs.Binary

namespace Thermopile.Single

open Float.Model Float.Model.UnpackedFloat Binary

variable {v w : Float32} {p q : Rat}

def value? (v : Float32) : Option Rat := number? v.toModel.unpack

theorem denotes_of_value? (h : value? v = some q) : Denotes Format.binary32 v.toModel.unpack q :=
  denotes_of_number? h

section
variable (hv : value? v = some p) (hw : value? w = some q)
include hv hw

theorem le_iff : v ≤ w ↔ p ≤ q := by
  rw [← le_iff_of_compares ((denotes_of_value? hv).exists_compare (denotes_of_value? hw))]
  change Float32.le v w = true ↔ _
  exact decide_eq_true_iff

theorem beq_iff : (v == w) = true ↔ p = q :=
  beq_iff_of_compares ((denotes_of_value? hv).exists_compare (denotes_of_value? hw))

end

theorem beq_iff_value? (hw : value? w = some q) : (v == w) = true ↔ value? v = some q := by
  constructor
  · intro h
    change v.toModel.unpack.beq w.toModel.unpack = true at h
    unfold value? at hw ⊢
    obtain ⟨-, -, same | ⟨first, second⟩ | ⟨first, second⟩⟩ :=
      (beq_iff_ne_notANumber_and_eq _ _).mp h
    · rw [same]
      exact hw
    · rw [second] at hw
      rw [first]
      exact hw
    · rw [second] at hw
      rw [first]
      exact hw
  · exact fun hv => (beq_iff hv hw).mpr rfl

theorem eq_of_value?_eq (hv : value? v = some q) (hw : value? w = some q) (hq : q ≠ 0) : v = w := by
  have zero : value? 0 = some 0 := rfl
  obtain ⟨-, -, same | ⟨rfl, -⟩ | ⟨-, rfl⟩⟩ :=
    Float32.beq_iff_ne_nan_and_eq.mp ((beq_iff hv hw).mpr rfl)
  · exact same
  · exact absurd (Option.some.inj (hv.symm.trans zero)) hq
  · exact absurd (Option.some.inj (hw.symm.trans zero)) hq

theorem toNat_toUInt8 (h : value? v = some q) :
    v.toUInt8.toNat = min (truncated q).toNat 255 := by
  change (UInt8.ofNatClamp (v.toModel.unpack.toInt 0 255).toNat).toNat = _
  have size : UInt8.size = 256 := rfl
  rw [(denotes_of_value? h).toInt_eq]
  unfold UInt8.ofNatClamp
  split
  · rw [UInt8.toNat_ofNatLT]
    omega
  · change 255 = _
    omega

theorem toNat_toUInt8_of_le {n : Nat} (h : value? v = some (n : Rat)) (hn : n ≤ 255) :
    v.toUInt8.toNat = n := by
  rw [toNat_toUInt8 h, ← Int.cast_natCast, truncated_intCast, Int.toNat_natCast, min_eq_left hn]

/-- Only the bits of an undefined single are not kept. -/
theorem ofBits_eq_iff {bits : UInt32} (hv : value? v = some q) :
    Float32.ofBits bits = v ↔ bits = v.toBits := by
  constructor
  · rintro rfl
    change number? (UnpackedFloat.unpack Format.binary32 (UnpackedFloat.pack Format.binary32
      (UnpackedFloat.unpack Format.binary32 bits.toBitVec))) = some q at hv
    apply UInt32.toBitVec_inj.mp
    change bits.toBitVec = UnpackedFloat.pack Format.binary32
      (UnpackedFloat.unpack Format.binary32 bits.toBitVec)
    rw [@pack_unpack Format.binary32 bits.toBitVec (by decide)] at hv ⊢
    split at hv
    · rw [unpack_packedNaN] at hv
      cases hv
    · rename_i number
      rw [if_neg number]
  · rintro rfl
    exact Float32.ofBits_toBits v

end Thermopile.Single
