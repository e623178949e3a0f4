import Thermopile.Pixel
import Thermopile.Rate
import Thermopile.Scalar

namespace Thermopile

structure PixelCalibration where
  offset : Int
  alpha : Dyadic
  kTa : Dyadic
  /-- The camera holds no calibration data for the pixel. -/
  failed : Bool
  /-- The factory marked the pixel as unreliable. -/
  outlier : Bool
deriving DecidableEq

def PixelCalibration.bad (p : PixelCalibration) : Bool := p.failed || p.outlier

/-- The constants under the names of the datasheet's formulas. All are integers or dyadic rationals,
so they are kept exactly. Pairs are indexed by subpage. -/
structure Calibration where
  kVdd : Int
  vdd25 : Int
  resolution : Resolution
  kVptat : Dyadic
  kTptat : Dyadic
  vPtat25 : Int
  alphaPtat : Dyadic
  gain : Int
  ksTa : Dyadic
  /-- Where each of the four temperature ranges begins, in degrees Celsius. -/
  corners : Vector Int 4
  ksTo : Vector Dyadic 4
  alphaCp : Dyadic × Dyadic
  offsetCp : Int × Int
  /-- The voltage constant of a pixel depends on its quadrant alone. -/
  kV : Vector Dyadic 4
  kVCp : Dyadic
  kTaCp : Dyadic
  tgc : Dyadic
  interleave : Vector Dyadic 3
  pixels : Image PixelCalibration
deriving DecidableEq

namespace Calibration

variable {α : Type} [Scalar α]

def bad (c : Calibration) (i : Pixel) : Bool := (c.pixels.get i).bad

/-- The range that needs no correction of sensitivity. -/
def basicRange : Fin 4 := 1

def lowestRange : Fin 4 := 0

def corner (c : Calibration) (range : Fin 4) : α := Scalar.ofInt (c.corners.get range)

def sensitivitySlope (c : Calibration) (range : Fin 4) : α := Scalar.ofDyadic (c.ksTo.get range)

/-- By how much sensitivity grows from the corner of `range` to that of the range `next`. -/
def growth (c : Calibration) (range next : Fin 4) : α :=
  Scalar.one +
    c.sensitivitySlope range * Scalar.ofInt (c.corners.get next - c.corners.get range)

/-- Sensitivity at the corner of each range, relative to the corner of the basic range. -/
def alphaCorrection (c : Calibration) (range : Fin 4) : α :=
  match range with
  | 0 => Scalar.one / c.growth 0 1
  | 1 => Scalar.one
  | 2 => c.growth 1 2
  | 3 => c.growth 2 3 * c.growth 1 2

end Calibration
end Thermopile
