import Thermopile.Conditions

namespace Thermopile

variable {α : Type}

section
variable [Scalar α]

def zeroCelsius : α := 273.15

/-- Sensitivity of a pixel at ambient temperature `ta`, without that of the compensation pixel. -/
def sensitivity (c : Calibration) (p : Subpage) (ta : α) (i : Pixel) : α :=
  (Scalar.ofDyadic (c.pixels.get i).alpha -
      Scalar.ofDyadic c.tgc * Scalar.ofDyadic (p.select c.alphaCp)) *
    (Scalar.one + Scalar.ofDyadic c.ksTa * (ta - ta0))

/-- Radiation of surroundings at `tr` that an object of the given emissivity reflects, seen from a
sensor at `ta`, as a fourth power of temperature. -/
def reflectedRadiation (ta tr emissivity : α) : α :=
  let ta4 := Scalar.fourthPower (ta + zeroCelsius)
  let tr4 := Scalar.fourthPower (tr + zeroCelsius)
  tr4 - (tr4 - ta4) / emissivity

/-- The highest range that begins at or below `t`. -/
def rangeOf? (c : Calibration) (t : α) : Option (Fin 4) :=
  (List.finRange 4).reverse.find? fun range => Scalar.le (c.corner range) t

/-- The temperature that selects the range: no lower than the first corner, also when `basic` is no
number. -/
def clamped (c : Calibration) (basic : α) : α :=
  if Scalar.le (c.corner Calibration.lowestRange) basic then basic
  else c.corner Calibration.lowestRange

end

variable [Radiometric α]

def basicTemperature (c : Calibration) (alpha tar v : α) : α :=
  let slope : α := c.sensitivitySlope Calibration.basicRange
  let correction := slope *
    Radiometric.fourthRoot (Scalar.cube alpha * v + Scalar.fourthPower alpha * tar)
  Radiometric.fourthRoot
      (v / (alpha * (Scalar.one - slope * zeroCelsius) + correction) + tar) - zeroCelsius

/-- Temperature of radiation `v` by the constants of the range that `basic` falls in. -/
def rangeTemperature (c : Calibration) (alpha tar v basic : α) : α :=
  let t := clamped c basic
  let range := (rangeOf? c t).getD Calibration.lowestRange
  let gain := alpha * c.alphaCorrection range *
    (Scalar.one + c.sensitivitySlope range * (t - c.corner range))
  Radiometric.fourthRoot (v / gain + tar) - zeroCelsius

def temperature (c : Calibration) (alpha tar v : α) : α :=
  rangeTemperature c alpha tar v (basicTemperature c alpha tar v)

end Thermopile
