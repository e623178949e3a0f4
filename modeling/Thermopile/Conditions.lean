import Thermopile.Calibration.Basic
import Thermopile.Snapshot

namespace Thermopile

variable {α : Type} [Scalar α]

/-- The voltage at which calibration values hold. -/
def vdd0 : α := 3.3

/-- The ambient temperature at which calibration values hold, in degrees Celsius. -/
def ta0 : α := Scalar.ofInt 25

def resolutionRatio (calibrated current : Nat) : α :=
  Scalar.twoPow calibrated / Scalar.twoPow current

/-- Corrects for a resolution other than the calibrated one, whose code comes in a byte; shifting a
32-bit one by such a code can leave its range. -/
def resolutionCorrection? (calibrated : UInt8) (current : Resolution) : Except Overflow α :=
  if calibrated < 32 then .ok (resolutionRatio calibrated.toNat current.code)
  else .error .shiftLeft

def deltaV (c : Calibration) (s : Snapshot) : α :=
  (resolutionRatio c.resolution.code s.resolution.code * Scalar.ofInt s.vddPixel -
    Scalar.ofInt c.vdd25) / Scalar.ofInt c.kVdd

def vPtatArt (c : Calibration) (s : Snapshot) : α :=
  let vPtat : α := Scalar.ofInt s.vPtat
  vPtat * Scalar.twoPow 18 / (vPtat * Scalar.ofDyadic c.alphaPtat + Scalar.ofInt s.vBe)

def ambient (c : Calibration) (s : Snapshot) : α :=
  (vPtatArt c s / (Scalar.one + Scalar.ofDyadic c.kVptat * deltaV c s) - Scalar.ofInt c.vPtat25) /
    Scalar.ofDyadic c.kTptat + ta0

structure Conditions (α : Type) where
  gain : α
  vdd : α
  ta : α

namespace Conditions

def of (c : Calibration) (s : Snapshot) : Conditions α where
  gain := Scalar.ofInt c.gain / Scalar.ofInt s.gain
  vdd := deltaV c s + vdd0
  ta := ambient c s

/-- How the conditions scale an offset with temperature constant `kTa` and voltage constant `kV`. -/
def offsetFactor (k : Conditions α) (kTa kV : α) : α :=
  (Scalar.one + kTa * (k.ta - ta0)) * (Scalar.one + kV * (k.vdd - vdd0))

end Conditions
end Thermopile
