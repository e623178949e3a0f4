import Thermopile.Config
import Thermopile.Frame
import Thermopile.Infrared
import Thermopile.Repair
import Thermopile.Temperature

namespace Thermopile

structure Decoder (α : Type) where
  emissivity : α
  reflected : ReflectedTemperature α
  repairBadPixels : Bool
  /-- What the compensation pixels saw last. -/
  compensation : α × α

namespace Decoder

variable {α : Type}

section
variable [Scalar α]

def ofConfig (config : DecoderConfig α) : Decoder α where
  emissivity := config.emissivity
  reflected := config.reflected
  repairBadPixels := config.repairBadPixels
  compensation := (Scalar.ofInt 0, Scalar.ofInt 0)

/-- Numerical equality of settings and state. -/
def same (a b : Decoder α) : Bool :=
  Scalar.same a.emissivity b.emissivity && a.reflected.same b.reflected &&
    a.repairBadPixels == b.repairBadPixels &&
    Scalar.same a.compensation.1 b.compensation.1 && Scalar.same a.compensation.2 b.compensation.2

def isDefault (d : Decoder α) : Bool := d.same (ofConfig .default)

def setEmissivity (d : Decoder α) (emissivity : α) : Decoder α := { d with emissivity }

def setReflected (d : Decoder α) (reflected : ReflectedTemperature α) : Decoder α :=
  { d with reflected }

def observe (d : Decoder α) (p : Subpage) (offset : α) : Decoder α :=
  { d with compensation := p.replace d.compensation offset }

def overwrite (s : Snapshot) (image : Image α) (value : Pixel → α) : Image α :=
  Vector.ofFn fun i => if s.pattern.subpageOf i = s.subpage then value i else image.get i

/-- Writes the infrared radiation seen by the pixels of the measured subpage into `image`; the
result is the ambient temperature. -/
@[specialize] def decodeInfrared (d : Decoder α) (c : Calibration) (s : Snapshot)
    (image : Image α) : Except Fault α × Decoder α × Image α :=
  match s.validate with
  | .error fault => (.error fault, d, image)
  | .ok () =>
    let k := Conditions.of c s
    let compensation := compensationOffset c k s
    (.ok k.ta, d.observe s.subpage compensation,
      overwrite s image (infrared c k s d.emissivity compensation))

end

variable [Radiometric α]

/-- Writes the temperatures of the pixels of the measured subpage into `frame`, together with the
conditions of the measurement. -/
@[specialize] def decode (d : Decoder α) (c : Calibration) (s : Snapshot) (frame : Frame α) :
    Except Fault Unit × Decoder α × Frame α :=
  match s.validate with
  | .error fault => (.error fault, d, frame)
  | .ok () =>
    let k := Conditions.of c s
    let compensation := compensationOffset c k s
    let tr := d.reflected.resolve k.ta
    let tar := reflectedRadiation k.ta tr d.emissivity
    let measured := overwrite s frame.temperatures fun i =>
      temperature c (sensitivity c s.subpage k.ta i) tar
        (infrared c k s d.emissivity compensation i)
    let temperatures :=
      if d.repairBadPixels then repair c s.pattern s.subpage measured else measured
    (.ok (), d.observe s.subpage compensation,
      { frame with
        temperatures := temperatures
        subpage := some s.subpage
        pattern := s.pattern
        vdd := k.vdd
        ta := k.ta
        tr := tr
        emissivity := d.emissivity })

end Decoder
end Thermopile
