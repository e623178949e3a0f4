import Thermopile.Pixel
import Thermopile.Scalar

namespace Thermopile

structure Frame (α : Type) where
  temperatures : Image α
  /-- The subpage measured last, once there is one. -/
  subpage : Option Subpage
  pattern : AccessPattern
  vdd : α
  ta : α
  tr : α
  emissivity : α
  /-- The number of the frame in its run, and 0 before the first one. A counter of 64 bits is a
  natural number here: at 64 frames a second it would wrap after some billion years. -/
  sequence : Nat

namespace Frame

variable {α : Type}

def empty [Radiometric α] : Frame α where
  temperatures := Vector.replicate pixelCount Radiometric.unmeasured
  subpage := none
  pattern := .chess
  vdd := Radiometric.unmeasured
  ta := Radiometric.unmeasured
  tr := Radiometric.unmeasured
  emissivity := Scalar.one
  sequence := 0

def temperature? (f : Frame α) (row column : Nat) : Option α :=
  (Pixel.at? row column).map f.temperatures.get

def row? (f : Frame α) (row : Nat) : Option (List α) :=
  (List.range columnCount).mapM (f.temperature? row)

variable [Scalar α]

def measured (f : Frame α) : List α := f.temperatures.toList.filter Scalar.isNumber

/-- Lowest and highest temperature, of the pixels whose temperature is a number. -/
def minMax? (f : Frame α) : Option (α × α) :=
  f.measured.foldl (fun bounds t =>
    match bounds with
    | none => some (t, t)
    | some (low, high) => some (Scalar.lesser low t, Scalar.larger high t)) none

end Frame
end Thermopile
