import Thermopile.Duration
import Thermopile.Fault

namespace Thermopile

/-- Measurements per second. -/
inductive FrameRate
  | half | one | two | four | eight | sixteen | thirtyTwo | sixtyFour
deriving DecidableEq, Ord

namespace FrameRate

def all : List FrameRate := [half, one, two, four, eight, sixteen, thirtyTwo, sixtyFour]

def default : FrameRate := two

/-- The three bits that select the rate. -/
def code : FrameRate → Nat
  | half => 0
  | one => 1
  | two => 2
  | four => 3
  | eight => 4
  | sixteen => 5
  | thirtyTwo => 6
  | sixtyFour => 7

def ofBits (n : Nat) : FrameRate :=
  match n % 8 with
  | 0 => half
  | 1 => one
  | 2 => two
  | 3 => four
  | 4 => eight
  | 5 => sixteen
  | 6 => thirtyTwo
  | _ => sixtyFour

def ofCode? (n : Nat) : Except Fault FrameRate :=
  if n ≤ 7 then .ok (ofBits n) else .error (.invalidData "Invalid frame rate given")

def hertz : FrameRate → Float32
  | half => 0.5
  | one => 1
  | two => 2
  | four => 4
  | eight => 8
  | sixteen => 16
  | thirtyTwo => 32
  | sixtyFour => 64

def unmatched : Fault := .invalidData "The given number does not match a valid frame rate"

/-- The rate of `n` measurements per second; no whole number names the half. -/
def ofWholeHertz? (n : Nat) : Except Fault FrameRate :=
  match all.find? fun r => r != half && n == 1 <<< (r.code - 1) with
  | some r => .ok r
  | none => .error unmatched

/-- A number with nothing after the point. -/
def isWhole (v : Float32) : Bool :=
  match v.toModel.unpack with
  | .zero _ => true
  | .finite _ mantissa exponent _ =>
    mantissa >>> (-exponent).toNat <<< (-exponent).toNat == mantissa
  | .infinity _ | .notANumber => false

/-- The rate of `v` measurements per second, which is a half or a whole number. -/
def ofHertz? (v : Float32) : Except Fault FrameRate :=
  if v == half.hertz then .ok half
  else if isWhole v ∧ 1 ≤ v ∧ v ≤ 64 then ofWholeHertz? v.toUInt8.toNat
  else .error unmatched

/-- The time from one measurement to the next. -/
def period (r : FrameRate) : Duration := .ofMicros (2000000 >>> r.code)

def name : FrameRate → String
  | half => "Half"
  | one => "One"
  | two => "Two"
  | four => "Four"
  | eight => "Eight"
  | sixteen => "Sixteen"
  | thirtyTwo => "ThirtyTwo"
  | sixtyFour => "SixtyFour"

def hertzText : FrameRate → String
  | half => "0.5"
  | r => toString (1 <<< (r.code - 1))

theorem ofBits_code (r : FrameRate) : ofBits r.code = r := by cases r <;> rfl

end FrameRate

inductive Resolution
  | sixteen | seventeen | eighteen | nineteen
deriving DecidableEq, Ord

namespace Resolution

def default : Resolution := eighteen

def code : Resolution → Nat
  | sixteen => 0
  | seventeen => 1
  | eighteen => 2
  | nineteen => 3

def ofBits (n : Nat) : Resolution :=
  match n % 4 with
  | 0 => sixteen
  | 1 => seventeen
  | 2 => eighteen
  | _ => nineteen

def ofCode? (n : Nat) : Except Fault Resolution :=
  if n ≤ 3 then .ok (ofBits n) else .error (.invalidData "Invalid raw resolution value given")

def bits (r : Resolution) : Nat := 16 + r.code

def ofBitCount? (n : Nat) : Except Fault Resolution :=
  if 16 ≤ n ∧ n ≤ 19 then .ok (ofBits (n - 16))
  else .error (.invalidData "The given value did not match a valid ADC resolution")

def name : Resolution → String
  | sixteen => "Sixteen"
  | seventeen => "Seventeen"
  | eighteen => "Eighteen"
  | nineteen => "Nineteen"

theorem ofBits_code (r : Resolution) : ofBits r.code = r := by cases r <;> rfl

end Resolution
end Thermopile
