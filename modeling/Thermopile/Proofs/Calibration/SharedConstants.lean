import Thermopile.Proofs.Calibration.Doubles
import Thermopile.Proofs.MachineInteger
import Thermopile.Proofs.Register

namespace Thermopile

open Double

inductive Expression
  | int (n : Int)
  | add (f g : Expression)
  | sub (f g : Expression)
  | mul (f g : Expression)
  | div (f g : Expression)

namespace Expression

instance (n : Nat) : OfNat Expression n := ⟨int n⟩
instance : Add Expression := ⟨add⟩
instance : Sub Expression := ⟨sub⟩
instance : Mul Expression := ⟨mul⟩
instance : Div Expression := ⟨div⟩

def twoPow (k : Nat) : Expression := int (2 ^ k : Nat)

instance : HShiftLeft Expression Nat Expression := ⟨fun f k => f * twoPow k⟩

def exact : Expression → Rat
  | int n => n
  | add f g => f.exact + g.exact
  | sub f g => f.exact - g.exact
  | mul f g => f.exact * g.exact
  | div f g => f.exact / g.exact

def double : Expression → Float
  | int n => Float.ofInt n
  | add f g => f.double + g.double
  | sub f g => f.double - g.double
  | mul f g => f.double * g.double
  | div f g => f.double / g.double

/-- An operation on integers of 16 bits, if its result is one. -/
def combine16? (op : Int → Int → Int) (a b : Option Int) : Option Int := do
  Machine.signed? 16 (op (← a) (← b))

/-- The value in integers of 16 bits, if no step leaves them. -/
def int16? : Expression → Option Int
  | int n => Machine.signed? 16 n
  | add f g => combine16? (· + ·) f.int16? g.int16?
  | sub f g => combine16? (· - ·) f.int16? g.int16?
  | mul f g => combine16? (· * ·) f.int16? g.int16?
  | div _ _ => none

/-- Every step in doubles gives the exact value. -/
def Unrounded : Expression → Prop
  | int n => value? (int n).double = some (int n).exact
  | add f g => f.Unrounded ∧ g.Unrounded ∧ value? (add f g).double = some (add f g).exact
  | sub f g => f.Unrounded ∧ g.Unrounded ∧ value? (sub f g).double = some (sub f g).exact
  | mul f g => f.Unrounded ∧ g.Unrounded ∧ value? (mul f g).double = some (mul f g).exact
  | div f g => f.Unrounded ∧ g.Unrounded ∧ value? (div f g).double = some (div f g).exact

theorem exact_twoPow (k : Nat) : (twoPow k).exact = 2 ^ k := by
  rw [twoPow, exact]
  push_cast
  rfl

section
variable {f g : Expression}

theorem Unrounded.value?_double (h : f.Unrounded) : value? f.double = some f.exact := by
  cases f with
  | int n => exact h
  | _ => exact h.2.2

theorem unrounded_int {n : Int} (h : n.natAbs < 2 ^ 53) : (int n).Unrounded := value?_ofInt h

theorem unrounded_twoPow {k : Nat} (h : k < 53) : (twoPow k).Unrounded :=
  unrounded_int (Nat.pow_lt_pow_right (by decide) h)

variable (hf : f.Unrounded) (hg : g.Unrounded)
include hf hg

theorem Unrounded.add (h : Representable (f.exact + g.exact)) : (f + g).Unrounded :=
  ⟨hf, hg, value?_add hf.value?_double hg.value?_double h⟩

theorem Unrounded.mul (h : Representable (f.exact * g.exact)) : (f * g).Unrounded :=
  ⟨hf, hg, value?_mul hf.value?_double hg.value?_double h⟩

theorem Unrounded.div (nonzero : g.exact ≠ 0) (h : Representable (f.exact / g.exact)) :
    (f / g).Unrounded :=
  ⟨hf, hg, value?_div hf.value?_double hg.value?_double nonzero h⟩

end

/-- The formula gives the integer, and so it does in 16 bits. -/
structure IsInteger (n : Int) (f : Expression) : Prop where
  exact_eq : f.exact = n
  int16?_eq : f.int16? = some n

namespace IsInteger

variable {m n : Int} {f g : Expression}

theorem int (h : n.natAbs < 2 ^ 15) : IsInteger n (int n) := ⟨rfl, Machine.signed?_eq_some h⟩

theorem combine16?_eq {op : Int → Int → Int} {a b : Option Int} (ha : a = some m)
    (hb : b = some n) (h : (op m n).natAbs < 2 ^ 15) : combine16? op a b = some (op m n) := by
  subst ha hb
  exact Machine.signed?_eq_some h

variable (hf : IsInteger m f) (hg : IsInteger n g)
include hf hg

theorem add (h : (m + n).natAbs < 2 ^ 15) : IsInteger (m + n) (f + g) where
  exact_eq := by
    rw [Int.cast_add, ← hf.exact_eq, ← hg.exact_eq]
    rfl
  int16?_eq := combine16?_eq hf.int16?_eq hg.int16?_eq h

theorem sub (h : (m - n).natAbs < 2 ^ 15) : IsInteger (m - n) (f - g) where
  exact_eq := by
    rw [Int.cast_sub, ← hf.exact_eq, ← hg.exact_eq]
    rfl
  int16?_eq := combine16?_eq hf.int16?_eq hg.int16?_eq h

theorem mul (h : (m * n).natAbs < 2 ^ 15) : IsInteger (m * n) (f * g) where
  exact_eq := by
    rw [Int.cast_mul, ← hf.exact_eq, ← hg.exact_eq]
    rfl
  int16?_eq := combine16?_eq hf.int16?_eq hg.int16?_eq h

omit hg in
theorem shiftLeft {k : Nat} (hk : k < 15) (h : (m * (2 ^ k : Nat)).natAbs < 2 ^ 15) :
    IsInteger (m * (2 ^ k : Nat)) (f <<< k) :=
  hf.mul (.int (Nat.pow_lt_pow_right (by decide) hk)) h

end IsInteger

/-- The formula gives the number exactly, and in doubles it gives `x` without rounding. -/
structure IsNumber (q : Rat) (x : Float) (f : Expression) : Prop where
  exact_eq : q = f.exact
  unrounded : f.Unrounded
  double_eq : x = f.double

abbrev IsDyadic (d : Dyadic) (f : Expression) : Prop := IsNumber d.toRat (floatOfDyadic d) f

theorem isNumber_int {n : Int} (h : n.natAbs < 2 ^ 53) : IsNumber n (Float.ofInt n) (int n) :=
  ⟨rfl, unrounded_int h, rfl⟩

theorem isDyadic_scaled {n : Int} {k : Nat} (hn : n.natAbs < 2 ^ 53) (hk : k < 53) :
    IsDyadic (Calibration.scaled n k) (int n / twoPow k) where
  exact_eq := by
    change _ = (n : Rat) / (twoPow k).exact
    rw [exact_twoPow, toRat_scaled]
  unrounded := by
    apply (unrounded_int hn).div (unrounded_twoPow hk)
    · rw [exact_twoPow]
      exact pow_ne_zero k two_ne_zero
    · rw [exact_twoPow]
      exact representable_div_two_pow hn (by omega)
  double_eq := floatOfDyadic_scaled hn hk

/-- Apart from zero, which has a sign in doubles, a number is one double. -/
theorem isDyadic_of_ne_zero {d : Dyadic} {f : Expression} (short : Short d.toRat)
    (exact_eq : d.toRat = f.exact) (unrounded : f.Unrounded) (nonzero : d.toRat ≠ 0) :
    IsDyadic d f where
  exact_eq := exact_eq
  unrounded := unrounded
  double_eq := eq_of_value?_eq (value?_floatOfDyadic short)
    (exact_eq ▸ unrounded.value?_double) nonzero

theorem IsNumber.mul_pos {d d' : Dyadic} {f g : Expression} (hf : IsDyadic d f)
    (hg : g.Unrounded) (factor : d'.toRat = g.exact) (pos : 0 < g.exact)
    (short : Short (d * d').toRat) : IsDyadic (d * d') (f * g) := by
  have exact_eq : (d * d').toRat = f.exact * g.exact := by
    rw [Dyadic.toRat_mul, hf.exact_eq, factor]
  have unrounded : (f * g).Unrounded := hf.unrounded.mul hg (exact_eq ▸ short.representable)
  by_cases zero : f.exact = 0
  · -- The sign of a zero is kept, as the factor is positive.
    have first : d = 0 := Dyadic.toRat_inj.mp (hf.exact_eq.trans zero)
    have product : d * d' = 0 := by rw [first, Dyadic.zero_mul]
    have start : f.double = Float.ofInt 0 := by
      rw [← hf.double_eq, first]
      rfl
    refine ⟨exact_eq, unrounded, ?_⟩
    change floatOfDyadic (d * d') = f.double * g.double
    rw [product, start, zero_mul_of_pos hg.value?_double pos]
    rfl
  · apply isDyadic_of_ne_zero (f := f * g) short exact_eq unrounded
    rw [exact_eq]
    exact mul_ne_zero zero pos.ne'

end Expression

open Expression (IsInteger IsNumber IsDyadic twoPow)

namespace EepromImage

variable (e : EepromImage) (address offset width : Nat)

def u : Expression := .int (e.unsignedAt address offset width)

def s : Expression := .int (e.signedAt address offset width)

def cornerStep : Expression := e.u 0x243F 12 2 * 10

end EepromImage

namespace Calibration

/-- The constants that all pixels share are those of the layout of the memory. -/
structure SharedConstants (e : EepromImage) (c : Calibration) : Prop where
  kVdd : IsInteger c.kVdd (e.s 0x2433 8 8 <<< 5)
  vdd25 : IsInteger c.vdd25 (((e.u 0x2433 0 8 - 256) <<< 5) - 8192)
  kVptat : IsDyadic c.kVptat (e.s 0x2432 10 6 / twoPow 12)
  kTptat : IsDyadic c.kTptat (e.s 0x2432 0 10 / twoPow 3)
  vPtat25 : IsNumber c.vPtat25 (Float.ofInt c.vPtat25) (e.s 0x2431 0 16)
  alphaPtat : IsDyadic c.alphaPtat (e.u 0x2410 12 4 / 4 + 8)
  gain : IsNumber c.gain (Float.ofInt c.gain) (e.s 0x2430 0 16)
  resolution : c.resolution.code = e.unsignedAt 0x2438 12 2
  interleave : List.Forall₂ IsDyadic c.interleave.toList
    [e.s 0x2435 0 6 / 16, e.s 0x2435 6 5 / 2, e.s 0x2435 11 5 / 8]
  alphaCp_zero : IsDyadic c.alphaCp.1 (e.u 0x2439 0 10 / twoPow (e.unsignedAt 0x2420 12 4 + 27))
  alphaCp_one : IsDyadic c.alphaCp.2
    (e.u 0x2439 0 10 / twoPow (e.unsignedAt 0x2420 12 4 + 27) * (1 + e.s 0x2439 10 6 / twoPow 7))
  offsetCp_zero : IsInteger c.offsetCp.1 (e.s 0x243A 0 10)
  offsetCp_one : IsInteger c.offsetCp.2 (e.s 0x243A 0 10 + e.s 0x243A 10 6)
  kVCp : IsDyadic c.kVCp (e.s 0x243B 8 8 / twoPow (e.unsignedAt 0x2438 8 4))
  kTaCp : IsDyadic c.kTaCp (e.s 0x243B 0 8 / twoPow (e.unsignedAt 0x2438 4 4 + 8))
  ksTa : IsDyadic c.ksTa (e.s 0x243C 8 8 / twoPow 13)
  tgc : IsDyadic c.tgc (e.s 0x243C 0 8 / twoPow 5)
  ksTo : List.Forall₂ IsDyadic c.ksTo.toList
    ([e.s 0x243D 0 8, e.s 0x243D 8 8, e.s 0x243E 0 8, e.s 0x243E 8 8].map
      (· / twoPow (e.unsignedAt 0x243F 0 4 + 8)))
  corners : List.Forall₂ IsInteger c.corners.toList
    [.int (-40), 0, e.u 0x243F 4 4 * e.cornerStep,
      e.u 0x243F 8 4 * e.cornerStep + e.u 0x243F 4 4 * e.cornerStep]

variable (e : EepromImage)

theorem signedAt_read {address : Nat} {a : EepromAddress} (h : a.word.toNat = address)
    (offset width : Nat) : e.signedAt address offset width = (e.read a).signed offset width :=
  congrArg (Word.signed · offset width) (e.wordAt_eq h)

theorem unsignedAt_read {address : Nat} {a : EepromAddress} (h : a.word.toNat = address)
    (offset width : Nat) : e.unsignedAt address offset width = (e.read a).unsigned offset width :=
  congrArg (Word.unsigned · offset width) (e.wordAt_eq h)

section
variable {address : Nat} {a : EepromAddress} (h : a.word.toNat = address) (offset : Nat)
include h

theorem isInteger_signed {width : Nat} (hw : width < 16) :
    IsInteger ((e.read a).signed offset width) (e.s address offset width) := by
  have bound := (e.read a).natAbs_signed_le offset width
  have small : 2 ^ width ≤ 2 ^ 15 := Nat.pow_le_pow_right (by decide) (by omega)
  rw [EepromImage.s, signedAt_read e h]
  exact .int (by omega)

theorem isInteger_unsigned {width : Nat} (hw : width < 16) :
    IsInteger ((e.read a).unsigned offset width) (e.u address offset width) := by
  have bound := (e.read a).unsigned_lt offset width
  have small : 2 ^ width ≤ 2 ^ 15 := Nat.pow_le_pow_right (by decide) (by omega)
  rw [EepromImage.u, unsignedAt_read e h]
  exact .int (by omega)

theorem isDyadic_signed {width k : Nat} (hw : width ≤ 16) (hk : k < 53) :
    IsDyadic (scaled ((e.read a).signed offset width) k) (e.s address offset width / twoPow k) := by
  have bound := (e.read a).natAbs_signed_le offset width
  have small : 2 ^ width ≤ 2 ^ 16 := Nat.pow_le_pow_right (by decide) hw
  rw [EepromImage.s, signedAt_read e h]
  exact Expression.isDyadic_scaled (by omega) hk

theorem isDyadic_unsigned {width k : Nat} (hw : width ≤ 16) (hk : k < 53) :
    IsDyadic (scaled ((e.read a).unsigned offset width) k)
      (e.u address offset width / twoPow k) := by
  have bound := (e.read a).unsigned_lt offset width
  have small : 2 ^ width ≤ 2 ^ 16 := Nat.pow_le_pow_right (by decide) hw
  rw [EepromImage.u, unsignedAt_read e h]
  exact Expression.isDyadic_scaled (by omega) hk

theorem isNumber_word :
    IsNumber ((e.read a).toInt : Int) (Float.ofInt (e.read a).toInt) (e.s address 0 16) := by
  have bound := (e.read a).natAbs_toInt_lt
  have word : e.signedAt address 0 16 = (e.read a).toInt := signedAt_read e h 0 16
  rw [EepromImage.s, word]
  exact Expression.isNumber_int (by omega)

end

theorem isInteger_kVdd : IsInteger (ofImage e).kVdd (e.s 0x2433 8 8 <<< 5) := by
  have field := isInteger_signed e (a := .vddConstants) rfl 8 (by decide : 8 < 16)
  have bound := (e.read .vddConstants).natAbs_signed_le 8 8
  have value : (ofImage e).kVdd = (e.read .vddConstants).signed 8 8 * (2 ^ 5 : Nat) := rfl
  rw [value]
  exact field.shiftLeft (by decide) (by omega)

theorem isInteger_vdd25 :
    IsInteger (ofImage e).vdd25 (((e.u 0x2433 0 8 - 256) <<< 5) - 8192) := by
  have field := isInteger_unsigned e (a := .vddConstants) rfl 0 (by decide : 8 < 16)
  have bound := (e.read .vddConstants).unsigned_lt 0 8
  have centred := field.sub (.int (by decide : (256 : Int).natAbs < 2 ^ 15)) (by omega)
  have shifted := centred.shiftLeft (by decide : 5 < 15) (by omega)
  have value : (ofImage e).vdd25 =
      (((e.read .vddConstants).unsigned 0 8 : Int) - 256) * (2 ^ 5 : Nat) - 8192 := rfl
  rw [value]
  exact shifted.sub (.int (by decide : (8192 : Int).natAbs < 2 ^ 15)) (by omega)

theorem isDyadic_alphaPtat : IsDyadic (ofImage e).alphaPtat (e.u 0x2410 12 4 / 4 + 8) := by
  have quarter : IsDyadic (scaled ((e.read .offsetCompensation).unsigned 12 4) 2)
      (e.u 0x2410 12 4 / 4) := isDyadic_unsigned e rfl 12 (by decide) (by decide)
  have eight : (8 : Dyadic).toRat = 8 := Dyadic.toRat_natCast 8
  have exact_eq : (ofImage e).alphaPtat.toRat = (e.u 0x2410 12 4 / 4).exact + 8 := by
    rw [← quarter.exact_eq, ← eight, ← Dyadic.toRat_add]
    rfl
  have short := short_alphaPtat e
  apply Expression.isDyadic_of_ne_zero (f := e.u 0x2410 12 4 / 4 + 8) short exact_eq
  · apply quarter.unrounded.add (Expression.unrounded_int (by decide : (8 : Int).natAbs < 2 ^ 53))
    exact exact_eq ▸ short.representable
  · rw [exact_eq, ← quarter.exact_eq, toRat_scaled]
    positivity

theorem alphaCp_factor :
    (1 + e.s 0x2439 10 6 / twoPow 7).Unrounded ∧ 0 < (1 + e.s 0x2439 10 6 / twoPow 7).exact ∧
    (1 + scaled ((e.read .compensationPixelSensitivity).signed 10 6) 7).toRat =
      (1 + e.s 0x2439 10 6 / twoPow 7).exact := by
  have ratio : IsDyadic (scaled ((e.read .compensationPixelSensitivity).signed 10 6) 7)
      (e.s 0x2439 10 6 / twoPow 7) := isDyadic_signed e rfl 10 (by decide) (by decide)
  have bound := (e.read .compensationPixelSensitivity).natAbs_signed_le 10 6
  have one : (1 : Dyadic).toRat = 1 := Dyadic.toRat_natCast 1
  have sum : (1 + e.s 0x2439 10 6 / twoPow 7).exact = 1 + (e.s 0x2439 10 6 / twoPow 7).exact := by
    change ((1 : Int) : Rat) + _ = _
    rw [Int.cast_one]
  generalize (e.read .compensationPixelSensitivity).signed 10 6 = r at ratio bound ⊢
  have fraction : 1 + (e.s 0x2439 10 6 / twoPow 7).exact = ((128 + r : Int) : Rat) / 2 ^ 7 := by
    rw [← ratio.exact_eq, toRat_scaled]
    push_cast
    ring
  refine ⟨?_, ?_, ?_⟩
  · apply (Expression.unrounded_int (by decide : (1 : Int).natAbs < 2 ^ 53)).add ratio.unrounded
    change Representable (1 + e.s 0x2439 10 6 / twoPow 7).exact
    rw [sum, fraction]
    exact representable_div_two_pow (by omega) (by decide)
  · have positive : (0 : Rat) < (128 + r : Int) := Int.cast_pos.mpr (by omega)
    rw [sum, fraction]
    positivity
  · rw [sum, Dyadic.toRat_add, one, ratio.exact_eq]

theorem isDyadic_alphaCp :
    IsDyadic (ofImage e).alphaCp.1 (e.u 0x2439 0 10 / twoPow (e.unsignedAt 0x2420 12 4 + 27)) ∧
    IsDyadic (ofImage e).alphaCp.2
      (e.u 0x2439 0 10 / twoPow (e.unsignedAt 0x2420 12 4 + 27) *
        (1 + e.s 0x2439 10 6 / twoPow 7)) := by
  have scale : e.unsignedAt 0x2420 12 4 < 16 := Word.unsigned_lt _ 12 4
  have scale_eq : e.unsignedAt 0x2420 12 4 = alphaScale e :=
    unsignedAt_read e (a := .sensitivityScale) rfl 12 4
  have first : IsDyadic (ofImage e).alphaCp.1
      (e.u 0x2439 0 10 / twoPow (e.unsignedAt 0x2420 12 4 + 27)) := by
    have value : (ofImage e).alphaCp.1 =
        scaled ((e.read .compensationPixelSensitivity).unsigned 0 10) (alphaScale e + 27) := rfl
    rw [value, ← scale_eq]
    exact isDyadic_unsigned e rfl 0 (by decide) (by omega)
  obtain ⟨unrounded, positive, factor⟩ := alphaCp_factor e
  exact ⟨first, first.mul_pos unrounded factor positive (short_alphaCp e).2⟩

theorem isInteger_offsetCp :
    IsInteger (ofImage e).offsetCp.1 (e.s 0x243A 0 10) ∧
    IsInteger (ofImage e).offsetCp.2 (e.s 0x243A 0 10 + e.s 0x243A 10 6) := by
  have first : IsInteger ((e.read .compensationPixelOffset).signed 0 10) (e.s 0x243A 0 10) :=
    isInteger_signed e rfl 0 (by decide)
  have difference : IsInteger ((e.read .compensationPixelOffset).signed 10 6) (e.s 0x243A 10 6) :=
    isInteger_signed e rfl 10 (by decide)
  have first_le := (e.read .compensationPixelOffset).natAbs_signed_le 0 10
  have difference_le := (e.read .compensationPixelOffset).natAbs_signed_le 10 6
  have value : (ofImage e).offsetCp = offsetCpPair (e.read .compensationPixelOffset) := rfl
  rw [value, offsetCpPair]
  dsimp only
  exact ⟨first, first.add difference (by omega)⟩

theorem isDyadic_interleave : List.Forall₂ IsDyadic (ofImage e).interleave.toList
    [e.s 0x2435 0 6 / 16, e.s 0x2435 6 5 / 2, e.s 0x2435 11 5 / 8] := by
  have first : IsDyadic (scaled ((e.read .interlacedModeCompensation).signed 0 6) 4)
      (e.s 0x2435 0 6 / 16) := isDyadic_signed e rfl 0 (by decide) (by decide)
  have second : IsDyadic (scaled ((e.read .interlacedModeCompensation).signed 6 5) 1)
      (e.s 0x2435 6 5 / 2) := isDyadic_signed e rfl 6 (by decide) (by decide)
  have third : IsDyadic (scaled ((e.read .interlacedModeCompensation).signed 11 5) 3)
      (e.s 0x2435 11 5 / 8) := isDyadic_signed e rfl 11 (by decide) (by decide)
  exact .cons first (.cons second (.cons third .nil))

theorem isDyadic_ksTo : List.Forall₂ IsDyadic (ofImage e).ksTo.toList
    ([e.s 0x243D 0 8, e.s 0x243D 8 8, e.s 0x243E 0 8, e.s 0x243E 8 8].map
      (· / twoPow (e.unsignedAt 0x243F 0 4 + 8))) := by
  have scale : e.unsignedAt 0x243F 0 4 < 16 := Word.unsigned_lt _ 0 4
  have scale_eq : e.unsignedAt 0x243F 0 4 = (e.read .cornerTemperatures).unsigned 0 4 :=
    unsignedAt_read e (a := .cornerTemperatures) rfl 0 4
  have field {address : Nat} {a : EepromAddress} (h : a.word.toNat = address) (offset : Nat) :
      IsDyadic (scaled ((e.read a).signed offset 8) ((e.read .cornerTemperatures).unsigned 0 4 + 8))
        (e.s address offset 8 / twoPow (e.unsignedAt 0x243F 0 4 + 8)) := by
    rw [← scale_eq]
    exact isDyadic_signed e h offset (by decide) (by omega)
  have low : EepromAddress.objectTemperatureSensitivityRangeConstants1.word.toNat = 0x243D := rfl
  have high : EepromAddress.objectTemperatureSensitivityRangeConstants2.word.toNat = 0x243E := rfl
  exact .cons (field low 0) (.cons (field low 8) (.cons (field high 0) (.cons (field high 8) .nil)))

theorem isInteger_corners : List.Forall₂ IsInteger (ofImage e).corners.toList
    [.int (-40), 0, e.u 0x243F 4 4 * e.cornerStep,
      e.u 0x243F 8 4 * e.cornerStep + e.u 0x243F 4 4 * e.cornerStep] := by
  have unit := isInteger_unsigned e (a := .cornerTemperatures) rfl 12 (by decide : 2 < 16)
  have second := isInteger_unsigned e (a := .cornerTemperatures) rfl 4 (by decide : 4 < 16)
  have third := isInteger_unsigned e (a := .cornerTemperatures) rfl 8 (by decide : 4 < 16)
  have value : (ofImage e).corners = cornerTable (e.read .cornerTemperatures) := rfl
  rw [value, cornerTable]
  generalize e.read .cornerTemperatures = w at unit second third
  have unit_lt := w.unsigned_lt 12 2
  have second_le := steps_le w (w.unsigned_lt 4 4)
  have third_le := steps_le w (w.unsigned_lt 8 4)
  have step : IsInteger ((w.unsigned 12 2 * 10 : Nat) : Int) e.cornerStep :=
    unit.mul (.int (by decide : (10 : Int).natAbs < 2 ^ 15)) (by omega)
  have corner {n : Nat} {f : Expression} (hf : IsInteger n f)
      (h : n * (w.unsigned 12 2 * 10) ≤ 450) :
      IsInteger ((n * (w.unsigned 12 2 * 10) : Nat) : Int) (f * e.cornerStep) := by
    rw [Int.natCast_mul]
    apply hf.mul step
    rw [← Int.natCast_mul]
    omega
  refine .cons (.int (by decide)) (.cons (.int (by decide)) (.cons (corner second second_le)
    (.cons ?_ .nil)))
  exact (corner third third_le).add (corner second second_le) (by omega)

theorem isDyadic_fields :
    IsDyadic (ofImage e).kVptat (e.s 0x2432 10 6 / twoPow 12) ∧
    IsDyadic (ofImage e).kTptat (e.s 0x2432 0 10 / twoPow 3) ∧
    IsDyadic (ofImage e).ksTa (e.s 0x243C 8 8 / twoPow 13) ∧
    IsDyadic (ofImage e).tgc (e.s 0x243C 0 8 / twoPow 5) ∧
    IsDyadic (ofImage e).kVCp (e.s 0x243B 8 8 / twoPow (e.unsignedAt 0x2438 8 4)) ∧
    IsDyadic (ofImage e).kTaCp (e.s 0x243B 0 8 / twoPow (e.unsignedAt 0x2438 4 4 + 8)) := by
  have kVScale : e.unsignedAt 0x2438 8 4 < 16 := Word.unsigned_lt _ 8 4
  have kVScale_eq : e.unsignedAt 0x2438 8 4 = Calibration.kVScale e :=
    unsignedAt_read e (a := .vAndTaScale) rfl 8 4
  have kTaScale : e.unsignedAt 0x2438 4 4 < 16 := Word.unsigned_lt _ 4 4
  have kTaScale_eq : e.unsignedAt 0x2438 4 4 + 8 = Calibration.kTaScale e :=
    congrArg (· + 8) (unsignedAt_read e (a := .vAndTaScale) rfl 4 4)
  have ptat : EepromAddress.ptatConstants.word.toNat = 0x2432 := rfl
  have cp : EepromAddress.compensationPixelConstants.word.toNat = 0x243B := rfl
  have sensitivity : EepromAddress.ambientTemperatureSensitivityConstant.word.toNat = 0x243C := rfl
  dsimp only [ofImage]
  refine ⟨isDyadic_signed e ptat 10 (by decide) (by decide),
    isDyadic_signed e ptat 0 (by decide) (by decide),
    isDyadic_signed e sensitivity 8 (by decide) (by decide),
    isDyadic_signed e sensitivity 0 (by decide) (by decide), ?_, ?_⟩
  · rw [kVScale_eq]
    exact isDyadic_signed e cp 8 (by decide) (by omega)
  · rw [kTaScale_eq]
    exact isDyadic_signed e cp 0 (by decide) (by omega)

theorem isNumber_words :
    IsNumber (ofImage e).vPtat25 (Float.ofInt (ofImage e).vPtat25) (e.s 0x2431 0 16) ∧
    IsNumber (ofImage e).gain (Float.ofInt (ofImage e).gain) (e.s 0x2430 0 16) := by
  have ptat25 : EepromAddress.ptat25.word.toNat = 0x2431 := rfl
  have gain : EepromAddress.gain.word.toNat = 0x2430 := rfl
  dsimp only [ofImage]
  exact ⟨isNumber_word e ptat25, isNumber_word e gain⟩

theorem code_resolution : (ofImage e).resolution.code = e.unsignedAt 0x2438 12 2 := by
  have scales : EepromAddress.vAndTaScale.word.toNat = 0x2438 := rfl
  rw [unsignedAt_read e scales]
  exact Resolution.code_ofBits (Word.unsigned_lt _ 12 2)

/-- Whatever the image of the EEPROM is, it gives the constants that all pixels share as the layout
of the memory has them. The formulas are exact: in doubles no step of them is rounded, and no step
leaves the integers of 16 bits. -/
theorem decodes_shared_constants : ∃ c, ofWords? e.toArray = .ok c ∧ SharedConstants e c := by
  obtain ⟨kVptat, kTptat, ksTa, tgc, kVCp, kTaCp⟩ := isDyadic_fields e
  obtain ⟨vPtat25, gain⟩ := isNumber_words e
  obtain ⟨alphaCp_zero, alphaCp_one⟩ := isDyadic_alphaCp e
  obtain ⟨offsetCp_zero, offsetCp_one⟩ := isInteger_offsetCp e
  exact ⟨_, ofWords?_toArray e, {
    kVdd := isInteger_kVdd e
    vdd25 := isInteger_vdd25 e
    alphaPtat := isDyadic_alphaPtat e
    resolution := code_resolution e
    interleave := isDyadic_interleave e
    ksTo := isDyadic_ksTo e
    corners := isInteger_corners e
    kVptat, kTptat, vPtat25, gain, alphaCp_zero, alphaCp_one, offsetCp_zero, offsetCp_one
    kVCp, kTaCp, ksTa, tgc }⟩

end Calibration
end Thermopile
