import Thermopile.Conditions

namespace Thermopile

variable {α : Type} [Scalar α]

/-- Sign of the conversion correction in interleaved mode: zero on even pixels, and alternating on
odd ones, the other way round in the other subpage. -/
def conversionPattern (n : Nat) (p : Subpage) : Int :=
  ((n + 2) / 4 - (n + 3) / 4 + (n + 1) / 4 - n / 4 : Int) * (1 - 2 * p.toNat)

def interleaveCorrection (c : Calibration) (i : Pixel) (p : Subpage) : α :=
  Scalar.ofDyadic (c.interleave.get 2) * Scalar.ofInt (2 * p.toNat - 1) -
    Scalar.ofDyadic (c.interleave.get 1) * Scalar.ofInt (conversionPattern i p)

def compensationReference (c : Calibration) (s : Snapshot) : α :=
  let offset : α := Scalar.ofInt (s.subpage.select c.offsetCp)
  if s.subpage = .one ∧ s.pattern = .interleave then
    offset + Scalar.ofDyadic (c.interleave.get 0)
  else offset

def compensationOffset (c : Calibration) (k : Conditions α) (s : Snapshot) : α :=
  Scalar.ofInt (s.compensationPixel s.subpage) * k.gain -
    compensationReference c s *
      k.offsetFactor (Scalar.ofDyadic c.kTaCp) (Scalar.ofDyadic c.kVCp)

def pixelSignal (c : Calibration) (k : Conditions α) (s : Snapshot) (i : Pixel) : α :=
  let p := c.pixels.get i
  let signal := Scalar.ofInt (s.pixel i) * k.gain -
    Scalar.ofInt p.offset *
      k.offsetFactor (Scalar.ofDyadic p.kTa) (Scalar.ofDyadic (c.kV.get i.quadrant))
  match s.pattern with
  | .chess => signal
  | .interleave => signal + interleaveCorrection c i s.subpage

/-- Infrared radiation seen by a pixel, less the share of `compensation`, which is what the
compensation pixel sees. -/
def infrared (c : Calibration) (k : Conditions α) (s : Snapshot) (emissivity compensation : α)
    (i : Pixel) : α :=
  pixelSignal c k s i / emissivity - Scalar.ofDyadic c.tgc * compensation

end Thermopile
