import Thermopile.Calibration.Decode
import Thermopile.Proofs.Word

namespace Thermopile

theorem getElem?_get {α : Type} {n : Nat} (values : Vector α n) (i : Fin n) :
    values[i.val]? = some (values.get i) := Vector.getElem?_eq_getElem i.isLt

theorem EepromAddress.word_eq (a : EepromAddress) : a.word.toNat = 0x2400 + a.index := by
  cases a <;> rfl

namespace EepromImage

-- Irreducible, as unification would otherwise compute with addresses to tell two words apart.
/-- The word at an address of the memory. -/
@[irreducible] def wordAt (e : EepromImage) (address : Nat) : Word := e[address - 0x2400]?.getD 0

def unsignedAt (e : EepromImage) (address offset width : Nat) : Nat :=
  (e.wordAt address).unsigned offset width

def signedAt (e : EepromImage) (address offset width : Nat) : Int :=
  (e.wordAt address).signed offset width

/-- The nibble numbered `i` of those from `address` on, four in a word and the lowest first. -/
def nibbleAt (e : EepromImage) (address i : Nat) : Int :=
  e.signedAt (address + i / 4) (4 * (i % 4)) 4

variable (e : EepromImage)

theorem wordAt_add {k : Nat} (hk : k < eepromSize) : e.wordAt (0x2400 + k) = e.get ⟨k, hk⟩ := by
  have word : e[0x2400 + k - 0x2400]? = some (e.get ⟨k, hk⟩) := by
    rw [Nat.add_sub_cancel_left]
    exact getElem?_get e ⟨k, hk⟩
  unfold wordAt
  rw [word]
  rfl

theorem wordAt_word (a : EepromAddress) : e.wordAt a.word.toNat = e.read a := by
  rw [a.word_eq, wordAt_add e a.index_lt]
  rfl

theorem wordAt_eq {address : Nat} {a : EepromAddress} (h : a.word.toNat = address) :
    e.wordAt address = e.read a :=
  h ▸ e.wordAt_word a

theorem wordAt_pixel (i : Pixel) : e.wordAt (0x2440 + i) = e.pixelWord i := by
  have hi : 64 + i.val < eepromSize := Nat.add_lt_add_left i.isLt 64
  rw [show 0x2440 + i.val = 0x2400 + (64 + i.val) by omega, wordAt_add e hi]
  rfl

theorem nibbleAt_word {start : EepromAddress} (inside : start.index + 8 ≤ eepromSize) (i : Fin 32) :
    e.nibbleAt start.word.toNat i = e.nibble start i inside := by
  have hi : start.index + i / 4 < eepromSize := by omega
  rw [nibbleAt, signedAt, start.word_eq, Nat.add_assoc, wordAt_add e hi]
  rfl

theorem natAbs_signedAt_le (address offset width : Nat) :
    (e.signedAt address offset width).natAbs ≤ 2 ^ width / 2 :=
  Word.natAbs_signed_le _ _ _

theorem natAbs_nibbleAt_le (address i : Nat) : (e.nibbleAt address i).natAbs ≤ 8 :=
  Word.natAbs_signed_le _ _ 4

end EepromImage

namespace Calibration

theorem steps_le (w : Word) {n : Nat} (h : n < 2 ^ 4) : n * (w.unsigned 12 2 * 10) ≤ 450 := by
  have unit := w.unsigned_lt 12 2
  exact Nat.mul_le_mul (by omega : n ≤ 15) (by omega : w.unsigned 12 2 * 10 ≤ 30)

/-- The constant is a numerator up to `bound` over a power of two up to `2 ^ scale`. -/
def Fraction (bound scale : Nat) (d : Dyadic) : Prop :=
  ∃ n : Int, ∃ k : Nat, n.natAbs ≤ bound ∧ k ≤ scale ∧ d = scaled n k

theorem fraction_scaled {n : Int} {k bound scale : Nat} (hn : n.natAbs ≤ bound) (hk : k ≤ scale) :
    Fraction bound scale (scaled n k) :=
  ⟨n, k, hn, hk, rfl⟩

theorem forall_get_four {P : Dyadic → Prop} {a b c d : Dyadic} (ha : P a) (hb : P b) (hc : P c)
    (hd : P d) (x : Fin 4) : P (#v[a, b, c, d].get x) :=
  match x with
  | 0 => ha
  | 1 => hb
  | 2 => hc
  | 3 => hd

end Calibration
end Thermopile
