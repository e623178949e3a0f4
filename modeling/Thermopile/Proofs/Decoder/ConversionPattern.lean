import Mathlib.Algebra.BigOperators.Ring.Finset
import Mathlib.Algebra.Ring.Periodic
import Mathlib.Tactic.Ring
import Thermopile.Proofs.Decoder.Compensation
import Thermopile.Proofs.Repair.Sources

namespace Thermopile

theorem conversionPattern_eq (n : Nat) (p : Subpage) : conversionPattern n p =
    if n % 4 = 1 then -(1 - 2 * p.toNat : Int) else if n % 4 = 3 then 1 - 2 * p.toNat else 0 := by
  have quotients : ((n + 2) / 4 - (n + 3) / 4 + (n + 1) / 4 - n / 4 : Int) =
      if n % 4 = 1 then -1 else if n % 4 = 3 then 1 else 0 := by
    split
    · omega
    · split <;> omega
  rw [conversionPattern, quotients]
  split
  · rw [neg_one_mul]
  · split
    · rw [one_mul]
    · rw [zero_mul]

theorem periodic_conversionPattern (p : Subpage) :
    Function.Periodic (fun n => conversionPattern n p) 4 := by
  intro n
  dsimp only
  rw [conversionPattern_eq, conversionPattern_eq, Nat.add_mod_right]

theorem conversionPattern_other (n : Nat) (p : Subpage) :
    conversionPattern n p.other = -conversionPattern n p := by
  have turned : (1 - 2 * p.other.toNat : Int) = -(1 - 2 * p.toNat) := by cases p <;> rfl
  rw [conversionPattern, conversionPattern, turned, mul_neg]

theorem conversionPattern_add_two (n : Nat) (p : Subpage) :
    conversionPattern (n + 2) p = -conversionPattern n p := by
  rw [conversionPattern_eq, conversionPattern_eq]
  split <;> split <;> omega

theorem sum_conversionPattern_four (n : Nat) (p : Subpage) :
    ∑ k ∈ Finset.range 4, conversionPattern (n + k) p = 0 := by
  have second := conversionPattern_add_two n p
  have third := conversionPattern_add_two (n + 1) p
  simp only [Finset.sum_range_succ, Finset.sum_range_zero, zero_add, Nat.add_zero]
  rw [second, show n + 3 = n + 1 + 2 from rfl, third]
  ring

theorem sum_conversionPattern (n periods : Nat) (p : Subpage) :
    ∑ k ∈ Finset.range (4 * periods), conversionPattern (n + k) p = 0 := by
  induction periods with
  | zero => rfl
  | succ periods ih =>
    have last := sum_conversionPattern_four (n + 4 * periods) p
    simp only [Nat.add_assoc] at last
    rw [Nat.mul_succ, Finset.sum_range_add, ih, last, add_zero]

theorem sum_row {M : Type} [AddCommMonoid M] (r : Fin rowCount) (f : Nat → M) :
    ∑ i : Pixel with i.row = r.val, f i = ∑ k ∈ Finset.range 32, f (r * 32 + k) := by
  refine Finset.sum_bij (fun i _ => i.column) (fun i _ => ?_) (fun i hi j hj same => ?_)
    (fun k hk => ?_) (fun i hi => ?_)
  · exact Finset.mem_range.mpr i.column_lt
  · have row : i.row = j.row :=
      (Finset.mem_filter.mp hi).2.trans (Finset.mem_filter.mp hj).2.symm
    exact Fin.ext (by rw [i.val_eq, j.val_eq, row, same])
  · have inside := Finset.mem_range.mp hk
    have rows : r.val < 24 := r.isLt
    have row : (r.val * 32 + k) / 32 = r := by omega
    have column : (r.val * 32 + k) % 32 = k := by omega
    exact ⟨⟨r * 32 + k, show r.val * 32 + k < 768 by omega⟩,
      Finset.mem_filter.mpr ⟨Finset.mem_univ _, row⟩, column⟩
  · rw [i.val_eq, (Finset.mem_filter.mp hi).2]

variable (c : Calibration)

theorem interleaveCorrection_rat (i : Pixel) (p : Subpage) :
    (interleaveCorrection c i p : ℚ) = (c.ilChess 2).toRat * (2 * p.toNat - 1) -
      (c.ilChess 1).toRat * conversionPattern i p := by
  have second : c.ilChess 1 = c.interleave.get 1 := c.ilChess_eq 1
  have third : c.ilChess 2 = c.interleave.get 2 := c.ilChess_eq 2
  have side : ((2 * p.toNat - 1 : Int) : ℚ) = 2 * p.toNat - 1 := by push_cast; rfl
  rw [second, third, ← side]
  rfl

theorem sum_interleaveCorrection (r : Fin rowCount) (p : Subpage) :
    ∑ i : Pixel with i.row = r.val, (interleaveCorrection c i p : ℚ) =
      32 * (c.ilChess 2).toRat * (2 * p.toNat - 1) := by
  have row : ∑ k ∈ Finset.range 32, conversionPattern (r * 32 + k) p = 0 :=
    sum_conversionPattern (r * 32) 8 p
  have signs : ∑ k ∈ Finset.range 32, (conversionPattern (r * 32 + k) p : ℚ) = 0 := by
    exact_mod_cast row
  have alternating :
      ∑ k ∈ Finset.range 32, (c.ilChess 1).toRat * (conversionPattern (r * 32 + k) p : ℚ) = 0 := by
    rw [← Finset.mul_sum, signs, mul_zero]
  simp only [interleaveCorrection_rat]
  rw [sum_row r fun n => (c.ilChess 2).toRat * (2 * p.toNat - 1) -
      (c.ilChess 1).toRat * conversionPattern n p,
    Finset.sum_sub_distrib, alternating, sub_zero, Finset.sum_const, Finset.card_range,
    nsmul_eq_mul, ← mul_assoc]
  rfl

/-- For every number `n`, the sign of the conversion correction is zero if `n` is even, and
alternates on odd numbers. It has period four, is turned round by the other subpage, and adds up to
zero over four numbers in sequence. So a complete row is corrected by 32 times the constant part,
whatever the alternating part is. -/
theorem conversion_pattern_alternates :
    (∀ (n : Nat) (p : Subpage),
      conversionPattern n p = (((n : Int) + 2) >>> (2 : Nat) - ((n : Int) + 3) >>> (2 : Nat) +
        ((n : Int) + 1) >>> (2 : Nat) - (n : Int) >>> (2 : Nat)) * (1 - 2 * p.toNat) ∧
      conversionPattern n p =
        (if n % 4 = 1 then -(1 - 2 * p.toNat : Int) else if n % 4 = 3 then 1 - 2 * p.toNat else 0) ∧
      conversionPattern n p.other = -conversionPattern n p ∧
      ∑ k ∈ Finset.range 4, conversionPattern (n + k) p = 0) ∧
    (∀ p, Function.Periodic (fun n => conversionPattern n p) 4) ∧
    ∀ (c : Calibration) (r : Fin rowCount) (p : Subpage),
      ∑ i : Pixel with i.row = r.val, (interleaveCorrection c i p : ℚ) =
        32 * (c.ilChess 2).toRat * (2 * p.toNat - 1) := by
  refine ⟨fun n p => ⟨?_, conversionPattern_eq n p, conversionPattern_other n p,
    sum_conversionPattern_four n p⟩, periodic_conversionPattern, sum_interleaveCorrection⟩
  have shift (z : Int) : z >>> (2 : Nat) = z / 4 := z.shiftRight_eq_div_pow 2
  rw [shift, shift, shift, shift, conversionPattern]

end Thermopile
