import Thermopile.Rate
import Thermopile.Scalar

namespace Thermopile

/-- Temperature of the surroundings that an object reflects. -/
inductive ReflectedTemperature (α : Type)
  /-- Relative to the ambient temperature. -/
  | offset (difference : α)
  | fixed (temperature : α)

namespace ReflectedTemperature

variable {α : Type} [Scalar α]

def default : ReflectedTemperature α := .offset (Scalar.ofInt (-8))

def resolve (r : ReflectedTemperature α) (ambient : α) : α :=
  match r with
  | .offset difference => ambient + difference
  | .fixed temperature => temperature

def same : ReflectedTemperature α → ReflectedTemperature α → Bool
  | .offset a, .offset b => Scalar.same a b
  | .fixed a, .fixed b => Scalar.same a b
  | _, _ => false

end ReflectedTemperature

structure ProtocolConfig where
  pollInterval : Duration := .ofMicros 500
  maxPolls : Nat := 10000
  eepromEraseDelay : Duration := .ofMicros 10000
  eepromWriteDelay : Duration := .ofMicros 10000
  eepromWriteAttempts : Nat := 3
  registerSettleDelay : Duration := .ofMicros 100
  resetDelay : Duration := .ofMicros 1000
deriving DecidableEq

structure DecoderConfig (α : Type) where
  emissivity : α
  reflected : ReflectedTemperature α
  repairBadPixels : Bool

namespace DecoderConfig

variable {α : Type} [Scalar α]

def default : DecoderConfig α := ⟨Scalar.one, .default, true⟩

def same (a b : DecoderConfig α) : Bool :=
  Scalar.same a.emissivity b.emissivity && a.reflected.same b.reflected &&
    a.repairBadPixels == b.repairBadPixels

end DecoderConfig

structure AcquisitionConfig where
  /-- The rate to set first; without one the camera keeps its own. -/
  frameRate : Option FrameRate := none
deriving DecidableEq

structure Config (α : Type) where
  protocol : ProtocolConfig
  decoder : DecoderConfig α
  acquisition : AcquisitionConfig

namespace Config

variable {α : Type} [Scalar α]

def default : Config α := ⟨{}, .default, {}⟩

def same (a b : Config α) : Bool :=
  a.protocol == b.protocol && a.decoder.same b.decoder && a.acquisition == b.acquisition

end Config
end Thermopile
