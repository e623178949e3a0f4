import Thermopile.MemoryMap
import Thermopile.Register.Status
import Thermopile.Register.Control

namespace Thermopile

abbrev ramSize : Nat := 832

abbrev RamImage := Vector Word ramSize

theorem RamAddress.index_lt (a : RamAddress) : a.index < ramSize := by
  cases a <;> decide

/-- What a word reads as that the camera could not measure. -/
def invalidWord : Word := 0x7FFF

/-- The RAM after one measurement, with the settings of the measurement. -/
structure Snapshot where
  words : RamImage
  subpage : Subpage
  pattern : AccessPattern
  resolution : Resolution
deriving DecidableEq

namespace Snapshot

def ofRegisters (words : RamImage) (status : Status) (control : Control) : Snapshot :=
  ⟨words, status.lastSubpage, control.accessPattern, control.resolution⟩

def pixel (s : Snapshot) (i : Pixel) : Int := (s.words.get (i.castLE (by decide))).toInt

def read (s : Snapshot) (a : RamAddress) : Int := (s.words.get ⟨a.index, a.index_lt⟩).toInt

def vBe (s : Snapshot) : Int := s.read .ambientTemperatureVoltageBe

def vPtat (s : Snapshot) : Int := s.read .ambientTemperatureVoltage

def vddPixel (s : Snapshot) : Int := s.read .pixelSupplyVoltage

def gain (s : Snapshot) : Int := s.read .gain

def compensationPixel (s : Snapshot) (p : Subpage) : Int :=
  p.select (s.read .compensationPixelZero, s.read .compensationPixelOne)

/-- First and one past last of each run of auxiliary words that are not reserved. -/
def auxiliaryRuns : List (Nat × Nat) :=
  [(0, 1), (8, 19), (20, 23), (24, 33), (40, 51), (52, 55), (56, 64)]

def rowStarts (p : Subpage) : List Nat :=
  ((List.range rowCount).filter fun r => r % 2 = p.toNat).map (· * columnCount)

def auxiliaryWords : List Nat :=
  auxiliaryRuns.flatMap fun (first, stop) => (List.range' first (stop - first)).map (pixelCount + ·)

/-- The words that must be valid, in ascending order. -/
def checkedWords (p : Subpage) : List Nat := rowStarts p ++ auxiliaryWords

def firstInvalid? (s : Snapshot) : Option Nat :=
  (checkedWords s.subpage).find? fun i => s.words[i]? == some invalidWord

def validate (s : Snapshot) : Except Fault Unit :=
  match s.firstInvalid? with
  | some i => .error (.badData ((AddressSpace.address RamAddress.base).advance i))
  | none => .ok ()

end Snapshot
end Thermopile
