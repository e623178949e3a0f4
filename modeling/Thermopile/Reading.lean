import Thermopile.Scalar

namespace Thermopile

/-- Values of which some were never measured, which is not the same as undefined: among sorted
values undefined ones come first and missing ones last. -/
inductive Reading
  | value (x : Float)
  | missing

namespace Reading

/-- Of two values that are no numbers, the first decides what becomes of both. -/
def lift (f : Float → Float → Float) : Reading → Reading → Reading
  | value x, value y => value (f x y)
  | value x, missing => if x.isNaN then value x else missing
  | missing, _ => missing

/-- What is missing compares with nothing. -/
def compare (f : Float → Float → Bool) : Reading → Reading → Bool
  | value x, value y => f x y
  | _, _ => false

def sortsBefore : Reading → Reading → Bool
  | _, missing => true
  | missing, value _ => false
  | value x, value y => Scalar.sortsBefore x y

instance : Scalar Reading where
  add := lift (· + ·)
  sub := lift (· - ·)
  mul := lift (· * ·)
  div := lift (· / ·)
  ofScientific m s e := value (OfScientific.ofScientific m s e)
  ofInt n := value (Scalar.ofInt n)
  ofDyadic d := value (Scalar.ofDyadic d)
  abs
    | value x => value x.abs
    | missing => missing
  le := compare Scalar.le
  lt := compare Scalar.lt
  sortsBefore := sortsBefore

end Reading
end Thermopile
