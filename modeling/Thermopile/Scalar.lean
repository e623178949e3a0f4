namespace Thermopile

/-- The arithmetic of measurements. Formulas are written once, for any scalars: on `Float` they run,
and on `Rat` they are exact. -/
class Scalar (α : Type) extends Add α, Sub α, Mul α, Div α, OfScientific α where
  ofInt : Int → α
  ofDyadic : Dyadic → α
  abs : α → α
  /-- Numerical order, in which what is not a number has no place. -/
  le : α → α → Bool
  lt : α → α → Bool
  /-- An order of all values, as sorting needs it. -/
  sortsBefore : α → α → Bool

namespace Scalar

variable {α : Type} [Scalar α]

def one : α := ofInt 1

def twoPow (k : Nat) : α := ofInt ((1 : Int) <<< k)

def same (a b : α) : Bool := le a b && le b a

def isNumber (a : α) : Bool := le a a

def lesser (a b : α) : α := if lt b a then b else a

def larger (a b : α) : α := if lt a b then b else a

def square (a : α) : α := a * a

def cube (a : α) : α := a * square a

def fourthPower (a : α) : α := square (square a)

end Scalar

/-- The double with the value of `d`, which is exact when its odd numerator has at most 53 bits. -/
def floatOfDyadic (d : Dyadic) : Float :=
  match d with
  | .zero => 0
  | .ofOdd n k _ =>
    if 0 ≤ k then Float.ofInt n / Float.ofNat (1 <<< k.toNat)
    else Float.ofInt n * Float.ofNat (1 <<< (-k).toNat)

/-- Position in an order of all doubles: the undefined value comes first, and negative zero before
positive zero. -/
def floatRank (x : Float) : Int :=
  let bits := x.toBits.toNat
  let half : Nat := 1 <<< 63
  if x.isNaN then -half
  else if bits < half then bits
  else half - 1 - (bits : Int)

instance : Scalar Float where
  ofInt := Float.ofInt
  ofDyadic := floatOfDyadic
  abs := Float.abs
  le a b := a ≤ b
  lt a b := a < b
  sortsBefore a b := floatRank a ≤ floatRank b

instance : Scalar Rat where
  ofInt n := n
  ofDyadic := Dyadic.toRat
  abs q := if q < 0 then -q else q
  le a b := a ≤ b
  lt a b := a < b
  sortsBefore a b := a ≤ b

class Radiometric (α : Type) extends Scalar α where
  fourthRoot : α → α
  /-- Stands for what was never measured. -/
  unmeasured : α

instance : Radiometric Float where
  fourthRoot x := x.pow 0.25
  unmeasured := Float.ofBits 0x7FF8000000000000

end Thermopile
