import Mathlib.Algebra.Group.Nat.Defs
import Thermopile.Word

namespace Thermopile.Word

theorem unsigned_lt (w : Word) (offset width : Nat) : w.unsigned offset width < 2 ^ width := by
  rw [unsigned, Nat.one_shiftLeft]
  exact Nat.mod_lt _ (Nat.two_pow_pos width)

theorem natAbs_signed_le (w : Word) (offset width : Nat) :
    (w.signed offset width).natAbs ≤ 2 ^ width / 2 := by
  have lower := Int.le_bmod (x := w.unsigned offset width) (Nat.two_pow_pos width)
  have upper := Int.bmod_lt (x := w.unsigned offset width) (Nat.two_pow_pos width)
  rw [signed, Nat.one_shiftLeft]
  omega

theorem natAbs_toInt_lt (w : Word) : w.toInt.natAbs < 2 ^ 16 :=
  Nat.lt_of_le_of_lt (w.natAbs_signed_le 0 16) (by decide)

theorem unsigned_all (w : Word) : w.unsigned 0 16 = w.toNat :=
  Nat.mod_eq_of_lt w.toNat_lt

theorem natAbs_shiftLeft_le {x : Int} {bound : Nat} (hx : x.natAbs ≤ bound) (w : Word)
    (offset : Nat) : (x <<< w.unsigned offset 4).natAbs ≤ bound * 2 ^ 15 := by
  have hs := w.unsigned_lt offset 4
  rw [Int.shiftLeft_eq, Int.natAbs_mul, Int.natAbs_pow]
  exact Nat.mul_le_mul hx (Nat.pow_le_pow_right (by decide) (by omega))

theorem unsigned_eq_div_mod (w : Word) (offset width : Nat) :
    w.unsigned offset width = w.toNat / 2 ^ offset % 2 ^ width := by
  rw [unsigned, Nat.shiftRight_eq_div_pow, Nat.one_shiftLeft]

/-- Fields that do not overlap add up. -/
theorem toNat_or_field {w : Word} {n : Nat} (hw : w.toNat = n) (offset value : Nat)
    (hn : n < 2 ^ offset) (hv : value * 2 ^ offset < 65536) :
    (w ||| field offset value).toNat = n + value * 2 ^ offset := by
  subst hw
  have hs : (field offset value).toNat = value <<< offset := by
    rw [field, UInt16.toNat_ofNat', Nat.mod_eq_of_lt (by rwa [Nat.shiftLeft_eq])]
  rw [UInt16.toNat_or, hs, Nat.or_comm, ← Nat.shiftLeft_add_eq_or_of_lt hn, Nat.shiftLeft_eq,
    Nat.add_comm]

theorem flag_eq_field {i : Nat} (hi : i < 16) (on : Bool) : flag i on = field i on.toNat := by
  cases on with
  | false => simp [flag, field]
  | true =>
    apply UInt16.toNat_inj.mp
    simp [flag, field, Nat.mod_eq_of_lt hi]

theorem bit_eq_decide (w : Word) (i : Nat) : w.bit i = decide (w.toNat / 2 ^ i % 2 = 1) :=
  Nat.testBit_eq_decide_div_mod_eq

theorem toNat_bit (w : Word) (i : Nat) : (w.bit i).toNat = w.unsigned i 1 := by
  rw [bit_eq_decide, unsigned_eq_div_mod, Nat.pow_one]
  rcases Nat.mod_two_eq_zero_or_one (w.toNat / 2 ^ i) with h | h <;> simp [h]

theorem bit_of_le (w : Word) {i : Nat} (hi : 16 ≤ i) : w.bit i = false :=
  Nat.testBit_lt_two_pow (Nat.lt_of_lt_of_le w.toNat_lt (Nat.pow_le_pow_right (by decide) hi))

theorem bit_or (v w : Word) (i : Nat) : (v ||| w).bit i = (v.bit i || w.bit i) := by
  rw [bit, UInt16.toNat_or, Nat.testBit_or]
  rfl

theorem bit_and (v w : Word) (i : Nat) : (v &&& w).bit i = (v.bit i && w.bit i) := by
  rw [bit, UInt16.toNat_and, Nat.testBit_and]
  rfl

theorem bit_not (w : Word) {i : Nat} (hi : i < 16) : (~~~w).bit i = !w.bit i := by
  change (~~~w).toBitVec.getLsbD i = !w.toBitVec.getLsbD i
  simp [hi]

theorem bit_field (offset value : Nat) {i : Nat} (hi : i < 16) :
    (field offset value).bit i = (decide (offset ≤ i) && value.testBit (i - offset)) := by
  rw [bit, field, UInt16.toNat_ofNat', Nat.testBit_mod_two_pow, Nat.testBit_shiftLeft]
  simp [hi]

theorem ext_bit {v w : Word} (h : ∀ i < 16, v.bit i = w.bit i) : v = w :=
  UInt16.toBitVec_inj.mp (BitVec.eq_of_getLsbD_eq h)

theorem and_or (a b c : Word) : a &&& (b ||| c) = (a &&& b) ||| (a &&& c) := by
  apply ext_bit
  intro i _
  simp only [bit_and, bit_or, Bool.and_or_distrib_left]

theorem or_and (a b c : Word) : (a ||| b) &&& c = (a &&& c) ||| (b &&& c) := by
  rw [UInt16.and_comm, and_or, UInt16.and_comm c a, UInt16.and_comm c b]

theorem or_and_self (a b : Word) : (a ||| b) &&& b = b := by
  apply ext_bit
  intro i _
  rw [bit_and, bit_or]
  cases b.bit i <;> simp

theorem not_and_and_self (m w : Word) : ~~~m &&& (w &&& m) = 0 := by
  rw [UInt16.and_comm w, ← UInt16.and_assoc, UInt16.not_and_self, UInt16.zero_and]

theorem not_and_and_of_disjoint {a m : Word} (h : a &&& m = 0) (w : Word) :
    ~~~m &&& (w &&& a) = w &&& a := by
  apply ext_bit
  intro i hi
  have apart : (a.bit i && m.bit i) = false := by
    rw [← bit_and, h]
    exact Nat.zero_testBit i
  simp only [bit_and, bit_not _ hi]
  revert apart
  cases a.bit i <;> cases m.bit i <;> simp

def union (words : List Word) : Word := words.foldr (· ||| ·) 0

section
variable {β : Type} (l : List β)

theorem union_cons (w : Word) (words : List Word) : union (w :: words) = w ||| union words := rfl

theorem union_map_and (w : Word) (b : β → Word) :
    union (l.map fun x => w &&& b x) = w &&& union (l.map b) := by
  induction l with
  | nil => exact UInt16.and_zero.symm
  | cons x rest ih => rw [List.map_cons, List.map_cons, union_cons, union_cons, ih, and_or]

theorem union_map_or (a b : β → Word) :
    union (l.map fun x => a x ||| b x) = union (l.map a) ||| union (l.map b) := by
  induction l with
  | nil => exact UInt16.or_zero.symm
  | cons x rest ih =>
    simp only [List.map_cons, union_cons, ih]
    ac_rfl

theorem union_map_ite (P : β → Prop) [DecidablePred P] (w : Word) :
    union (l.map fun x => if P x then w else 0) = if ∃ x ∈ l, P x then w else 0 := by
  induction l with
  | nil => simp [union]
  | cons x rest ih =>
    rw [List.map_cons, union_cons, ih]
    by_cases hx : P x <;> by_cases hr : ∃ y ∈ rest, P y <;> simp [hx, hr]

end

end Thermopile.Word
