import Mathlib.Data.Nat.Bitwise
import Thermopile.Proofs.Calibration.Fields

namespace Thermopile.Machine

/-- The number, if `width` bits hold it in two's complement. -/
def signed? (width : Nat) (n : Int) : Option Int :=
  if -2 ^ (width - 1) ≤ n ∧ n < 2 ^ (width - 1) then some n else none

def unsigned? (width : Nat) (n : Int) : Option Nat :=
  if 0 ≤ n ∧ n < 2 ^ width then some n.toNat else none

/-- What an integer of `width` bits is when it has been shifted by `amount`. -/
def shift? {α : Type} (width amount : Nat) (shifted : α) : Option α :=
  if amount < width then some shifted else none

/-- The low `width` bits in two's complement. -/
def wrap (width : Nat) (n : Int) : Int := n.bmod (2 ^ width)

def shiftLeft? (width : Nat) (n : Int) (amount : Nat) : Option Int :=
  shift? width amount (wrap width (n <<< amount))

-- Proved by `simp`, as the kernel is left to compute with words where a step goes by definition.
theorem some_bind {α β : Type} (a : α) (f : α → Option β) : (some a >>= f) = f a := by
  simp

section
variable {width amount : Nat} {n : Int}

theorem signed?_eq_some (h : n.natAbs < 2 ^ (width - 1)) : signed? width n = some n := by
  have cast : ((2 ^ (width - 1) : Nat) : Int) = 2 ^ (width - 1) := Int.natCast_pow 2 (width - 1)
  exact if_pos (by omega)

example : signed? 16 32767 = some 32767 ∧ signed? 16 32768 = none := by decide

theorem unsigned?_eq_some {n : Nat} (h : n < 2 ^ width) : unsigned? width n = some n := by
  have cast : ((2 ^ width : Nat) : Int) = 2 ^ width := Int.natCast_pow 2 width
  exact if_pos (by omega)

theorem shift?_eq_some {α : Type} {shifted : α} (h : amount < width) :
    shift? width amount shifted = some shifted := if_pos h

theorem wrap_eq (h : n.natAbs < 2 ^ (width - 1)) (pos : 0 < width) : wrap width n = n := by
  have double : 2 ^ width = 2 * 2 ^ (width - 1) := by
    rw [← Nat.pow_succ', Nat.succ_eq_add_one, Nat.sub_add_cancel pos]
  apply Int.bmod_eq_of_le <;> omega

theorem shiftLeft?_eq_some (h : amount < width) (fits : (n <<< amount).natAbs < 2 ^ (width - 1)) :
    shiftLeft? width n amount = some (n <<< amount) := by
  rw [shiftLeft?, shift?_eq_some h, wrap_eq fits (Nat.zero_lt_of_lt h)]

example : shiftLeft? 16 24577 1 = some (-16382) ∧ shiftLeft? 16 1 16 = none := by decide

end

def unsignedBits? (w : Word) (offset width : Nat) : Option Nat :=
  if 16 < offset + width then none
  else do
    let shifted ← shift? 16 offset (w.toNat >>> offset)
    if 16 ≤ width then return shifted
    let limit : Nat ← shift? 16 width ((1 <<< width) % 2 ^ 16)
    let mask ← unsigned? 16 (limit - 1)
    return shifted &&& mask

/-- The field at `offset` in two's complement: it is brought up, so that its sign becomes that of a
number of 16 bits, and down again. -/
def signedBits? (w : Word) (offset width : Nat) : Option Int := do
  let raw ← unsignedBits? w offset width
  let amount ← unsigned? 32 (16 - width)
  let top : Nat ← shift? 16 amount ((raw <<< amount) % 2 ^ 16)
  shift? 16 amount (wrap 16 top >>> amount)

/-- Scaling by `a` leaves the sign of a number with an even modulus. -/
theorem bmod_mul_mul (n : Int) (h : Nat) {a : Nat} (pos : 0 < a) :
    (n * a).bmod (2 * h * a) = n.bmod (2 * h) * a := by
  have positive : (0 : Int) < a := Int.natCast_pos.mpr pos
  have low : n * a % ((2 * h * a : Nat) : Int) = n % ((2 * h : Nat) : Int) * a := by
    rw [Int.natCast_mul, Int.mul_comm n, Int.mul_comm ((2 * h : Nat) : Int),
      Int.mul_emod_mul_of_pos _ _ positive, Int.mul_comm]
  have half : (((2 * h * a : Nat) : Int) + 1) / 2 = h * a := by
    rw [Nat.mul_assoc, ← Int.natCast_mul]
    omega
  have half' : (((2 * h : Nat) : Int) + 1) / 2 = h := by omega
  have below : n % ((2 * h : Nat) : Int) * a < h * a ↔ n % ((2 * h : Nat) : Int) < h :=
    Int.mul_lt_mul_right positive
  rw [Int.bmod_def, Int.bmod_def, low, half, half']
  by_cases lower : n % ((2 * h : Nat) : Int) < h
  · rw [if_pos lower, if_pos (below.mpr lower)]
  · rw [if_neg lower, if_neg (mt below.mp lower), Int.sub_mul, Int.natCast_mul (2 * h)]

def isBitSet? (w : Word) (i : Nat) : Option Bool := do
  let mask : Nat ← shift? 16 i ((1 <<< i) % 2 ^ 16)
  return 0 < w.toNat &&& mask

theorem isBitSet?_eq (w : Word) {i : Nat} (h : i < 16) : isBitSet? w i = some (w.bit i) := by
  have below : 2 ^ i < 2 ^ 16 := Nat.pow_lt_pow_right (by decide) h
  rw [isBitSet?, Nat.one_shiftLeft, Nat.mod_eq_of_lt below, shift?_eq_some h]
  simp only [Option.bind_eq_bind, Option.bind_some, Option.pure_def, Nat.and_two_pow, Word.bit]
  have up := Nat.two_pow_pos i
  cases w.toNat.testBit i <;> simp [up]

section
variable (w : Word) {offset width : Nat} (pos : 0 < width) (fits : offset + width ≤ 16)
include pos fits

theorem unsignedBits?_eq : unsignedBits? w offset width = some (w.unsigned offset width) := by
  have shifted : shift? 16 offset (w.toNat >>> offset) = some (w.toNat >>> offset) :=
    shift?_eq_some (by omega)
  rw [unsignedBits?, if_neg (Nat.not_lt.mpr fits), shifted, Word.unsigned, Nat.one_shiftLeft]
  simp only [Option.bind_eq_bind, Option.bind_some, Option.pure_def]
  by_cases whole : 16 ≤ width
  · obtain rfl : width = 16 := by omega
    obtain rfl : offset = 0 := by omega
    rw [if_pos whole, Nat.shiftRight_zero, Nat.mod_eq_of_lt w.toNat_lt]
  · have below : 2 ^ width < 2 ^ 16 := Nat.pow_lt_pow_right (by decide) (by omega)
    have mask : unsigned? 16 ((2 ^ width : Nat) - 1) = some (2 ^ width - 1) := by
      have cast : ((2 ^ width : Nat) : Int) - 1 = (2 ^ width - 1 : Nat) := by
        have one := Nat.two_pow_pos width
        omega
      rw [cast]
      exact unsigned?_eq_some (by omega)
    rw [if_neg whole, Nat.mod_eq_of_lt below, shift?_eq_some (by omega), Option.bind_some, mask,
      Option.bind_some, Nat.and_two_pow_sub_one_eq_mod]

theorem signedBits?_eq : signedBits? w offset width = some (w.signed offset width) := by
  obtain ⟨amount, total⟩ : ∃ amount, width + amount = 16 := ⟨16 - width, by omega⟩
  have amount_eq : unsigned? 32 (16 - width) = some amount := by
    rw [show (16 - width : Int) = amount by omega]
    exact unsigned?_eq_some (by omega)
  have small : amount < 16 := by omega
  -- The shift to the left loses nothing, so the one to the right takes it back.
  have kept : w.unsigned offset width <<< amount % 2 ^ 16 =
      w.unsigned offset width * 2 ^ amount := by
    have inside := Nat.mul_lt_mul_of_pos_right (w.unsigned_lt offset width) (Nat.two_pow_pos amount)
    rw [← Nat.pow_add, total] at inside
    rw [Nat.shiftLeft_eq, Nat.mod_eq_of_lt inside]
  have moved : wrap 16 (w.unsigned offset width * 2 ^ amount : Nat) =
      w.signed offset width * (2 ^ amount : Nat) := by
    have modulus : 2 ^ 16 = 2 * 2 ^ (width - 1) * 2 ^ amount := by
      rw [← Nat.pow_succ', Nat.succ_eq_add_one, Nat.sub_add_cancel pos, ← Nat.pow_add, total]
    rw [wrap, modulus, Int.natCast_mul, bmod_mul_mul _ _ (Nat.two_pow_pos amount),
      ← Nat.pow_succ', Nat.succ_eq_add_one, Nat.sub_add_cancel pos, Word.signed,
      Nat.one_shiftLeft]
  have returned :
      (w.signed offset width * (2 ^ amount : Nat)) >>> amount = w.signed offset width := by
    have up : ((2 ^ amount : Nat) : Int) ≠ 0 :=
      Int.natCast_ne_zero.mpr (Nat.pos_iff_ne_zero.mp (Nat.two_pow_pos amount))
    rw [Int.shiftRight_eq_div_pow]
    exact Int.mul_ediv_cancel _ up
  rw [signedBits?, unsignedBits?_eq w pos fits]
  simp only [Option.bind_eq_bind, Option.bind_some, amount_eq, shift?_eq_some small, kept, moved,
    returned]

end

end Thermopile.Machine
