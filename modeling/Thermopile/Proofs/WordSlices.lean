import Mathlib.Algebra.BigOperators.Group.Finset.Basic
import Mathlib.Data.Int.ModEq
import Mathlib.Order.Interval.Set.Defs
import Thermopile.Proofs.Calibration.CheckedPixels

namespace Thermopile.Word

open Machine

variable (w : Word)

theorem signed_emod (offset width : Nat) :
    w.signed offset width % 2 ^ width = w.unsigned offset width := by
  have power : (2 : ℤ) ^ width = (2 ^ width : Nat) := (Int.natCast_pow 2 width).symm
  rw [signed, Nat.one_shiftLeft, power, Int.bmod_emod, ← Int.natCast_emod,
    Nat.mod_eq_of_lt (w.unsigned_lt offset width)]

theorem signed_modEq (offset width : Nat) :
    w.signed offset width ≡ w.unsigned offset width [ZMOD 2 ^ width] := by
  rw [Int.ModEq, signed_emod, Int.emod_eq_of_lt (Int.natCast_nonneg _)]
  exact_mod_cast w.unsigned_lt offset width

/-- What a field of `width` bits can be in two's complement. -/
def signedRange (width : Nat) : Set ℤ := Set.Ico (-2 ^ (width - 1)) (2 ^ (width - 1))

section
variable (offset : Nat) {width : Nat} (pos : 0 < width)
include pos

theorem two_mul_half : 2 * 2 ^ (width - 1) = (2 : ℤ) ^ width := by
  rw [← pow_succ', Nat.sub_add_cancel pos]

theorem signed_mem_signedRange : w.signed offset width ∈ signedRange width := by
  have double := two_mul_half pos
  have power : (2 : ℤ) ^ width = (2 ^ width : Nat) := (Int.natCast_pow 2 width).symm
  have lower := Int.le_bmod (x := w.unsigned offset width) (Nat.two_pow_pos width)
  have upper := Int.bmod_lt (x := w.unsigned offset width) (Nat.two_pow_pos width)
  rw [signed, Nat.one_shiftLeft]
  constructor <;> omega

/-- A range holds one number of each residue class. -/
theorem eq_of_mem_signedRange {a b : ℤ} (ha : a ∈ signedRange width) (hb : b ∈ signedRange width)
    (same : a ≡ b [ZMOD 2 ^ width]) : a = b := by
  obtain ⟨lowA, highA⟩ := ha
  obtain ⟨lowB, highB⟩ := hb
  have double := two_mul_half pos
  have near : |b - a| < 2 ^ width := abs_lt.mpr (by omega)
  exact (sub_eq_zero.mp (Int.eq_zero_of_abs_lt_dvd same.dvd near)).symm

theorem eq_signed_iff (z : ℤ) : z = w.signed offset width ↔
    z ∈ signedRange width ∧ z ≡ w.unsigned offset width [ZMOD 2 ^ width] := by
  constructor
  · rintro rfl
    exact ⟨w.signed_mem_signedRange offset pos, w.signed_modEq offset width⟩
  · rintro ⟨mem, same⟩
    exact eq_of_mem_signedRange pos mem (w.signed_mem_signedRange offset pos)
      (same.trans (w.signed_modEq offset width).symm)

end

theorem nibble_emod (j : Nat) : w.nibble j % 16 = (w.toNat / 16 ^ j % 16 : Nat) := by
  rw [nibble, ← show (2 : ℤ) ^ 4 = 16 from rfl, signed_emod, unsigned_eq_div_mod, pow_mul]
  rfl

/-- The lowest nibbles, each with the weight of its place, are the lowest part of the word. -/
theorem sum_nibbles (k : Nat) :
    ∑ j ∈ Finset.range k, w.nibble j % 16 * 16 ^ j = (w.toNat % 16 ^ k : Nat) := by
  induction k with
  | zero => simp [Nat.mod_one]
  | succ k ih =>
    have split : w.toNat % 16 ^ (k + 1) = w.toNat % 16 ^ k + w.toNat / 16 ^ k % 16 * 16 ^ k := by
      rw [pow_succ, Nat.mod_mul, Nat.mul_comm (16 ^ k)]
    rw [Finset.sum_range_succ, ih, nibble_emod, split]
    push_cast
    rfl

theorem toNat_eq_sum_nibbles :
    (w.toNat : ℤ) = ∑ j ∈ Finset.range 4, w.nibble j % 16 * 16 ^ j := by
  have inside : w.toNat < 16 ^ 4 := w.toNat_lt
  rw [sum_nibbles, Nat.mod_eq_of_lt inside]

theorem eq_of_nibbles {v : Word} (same : ∀ j < 4, v.nibble j = w.nibble j) : v = w := by
  apply UInt16.toNat_inj.mp
  have sums : (v.toNat : ℤ) = w.toNat := by
    rw [toNat_eq_sum_nibbles, toNat_eq_sum_nibbles]
    refine Finset.sum_congr rfl fun j hj => ?_
    rw [same j (Finset.mem_range.mp hj)]
  exact_mod_cast sums

/-- At every place in a word and for every width, the field is the quotient's remainder, and in
two's complement the one number of its range that is congruent to it. On integers of 16 bits both
are cut out without leaving their range. The four nibbles make up the word, and no two words have
the same. -/
theorem slices_exact (w : Word) :
    (∀ offset width, 0 < width → offset + width ≤ 16 →
      w.unsigned offset width = w.toNat / 2 ^ offset % 2 ^ width ∧
      unsignedBits? w offset width = some (w.unsigned offset width) ∧
      (∀ z : ℤ, z = w.signed offset width ↔
        z ∈ signedRange width ∧ z ≡ w.unsigned offset width [ZMOD 2 ^ width]) ∧
      signedBits? w offset width = some (w.signed offset width)) ∧
    Calibration.nibbles? w = some ((List.range 4).map w.nibble) ∧
    (w.toNat : ℤ) = ∑ j ∈ Finset.range 4, w.nibble j % 16 * 16 ^ j ∧
    ∀ v : Word, (∀ j < 4, v.nibble j = w.nibble j) → v = w :=
  ⟨fun offset width pos fits => ⟨w.unsigned_eq_div_mod offset width, unsignedBits?_eq w pos fits,
      w.eq_signed_iff offset pos, signedBits?_eq w pos fits⟩,
    Calibration.nibbles?_eq w, w.toNat_eq_sum_nibbles, fun _ => w.eq_of_nibbles⟩

/-- Set bits outside of a field do not count, and a field can be the whole word. -/
theorem slices_exact_among_ones : 0 < 8 ∧ 4 + 8 ≤ 16 ∧ 0 < 16 ∧ 0 + 16 ≤ 16 ∧
    unsignedBits? 0xF80F 4 8 = some 0x80 ∧ signedBits? 0xF80F 4 8 = some (-128) ∧
    signedBits? 0x8001 0 16 = some (-32767) := by
  obtain ⟨-, field, -, signed⟩ := (slices_exact 0xF80F).1 4 8 (by decide) (by decide)
  obtain ⟨-, -, -, whole⟩ := (slices_exact 0x8001).1 0 16 (by decide) (by decide)
  rw [field, signed, whole]
  decide

end Thermopile.Word
