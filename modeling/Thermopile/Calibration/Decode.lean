import Thermopile.Calibration.Basic
import Thermopile.MemoryMap

namespace Thermopile

abbrev eepromSize : Nat := 832

abbrev EepromImage := Vector Word eepromSize

theorem EepromAddress.index_lt (a : EepromAddress) : a.index < eepromSize := by
  cases a <;> decide

namespace EepromImage

def read (e : EepromImage) (a : EepromAddress) : Word := e.get ⟨a.index, a.index_lt⟩

def pixelWord (e : EepromImage) (i : Pixel) : Word :=
  e.get ⟨64 + i.val, Nat.add_lt_add_left i.isLt 64⟩

/-- The nibble numbered `i` in the eight words from `start` on. -/
def nibble (e : EepromImage) (start : EepromAddress) (i : Fin 32)
    (inside : start.index + 8 ≤ eepromSize) : Int :=
  (e.get ⟨start.index + i.val / 4, by omega⟩).nibble (i.val % 4)

end EepromImage

/-- A constant that the camera stores as an average over all pixels, a correction for each row and
each column, and a remainder for each pixel, the corrections and the remainder scaled up by powers
of two. -/
structure PixelTable where
  average : Int
  rowScale : Nat
  columnScale : Nat
  remainderScale : Nat
  row : Fin rowCount → Int
  column : Fin columnCount → Int

namespace PixelTable

def value (t : PixelTable) (i : Pixel) (remainder : Int) : Int :=
  t.average + (t.row ⟨i.row, Nat.div_lt_of_lt_mul i.isLt⟩ <<< t.rowScale) +
    (t.column ⟨i.column, Nat.mod_lt _ (by decide)⟩ <<< t.columnScale) +
    (remainder <<< t.remainderScale)

/-- The three scales share a word. -/
def ofScales (scales : Word) (average : Int) (row : Fin rowCount → Int)
    (column : Fin columnCount → Int) : PixelTable where
  average := average
  rowScale := scales.unsigned 8 4
  columnScale := scales.unsigned 4 4
  remainderScale := scales.unsigned 0 4
  row := row
  column := column

end PixelTable

namespace Calibration

open EepromAddress

def scaled (numerator : Int) (scale : Nat) : Dyadic := .ofIntWithPrec numerator scale

def offsetTable (e : EepromImage) : PixelTable :=
  .ofScales (e.read offsetCompensation) (e.read pixelOffsetAverage).toInt
    (fun r => e.nibble offsetCompensationRowStart (r.castLE (by decide)) (by decide))
    (fun c => e.nibble offsetCompensationColumnStart c (by decide))

def alphaTable (e : EepromImage) : PixelTable :=
  .ofScales (e.read sensitivityScale) (e.read pixelSensitivityAverage).toNat
    (fun r => e.nibble pixelSensitivityCompensationRowStart (r.castLE (by decide)) (by decide))
    (fun c => e.nibble pixelSensitivityCompensationColumnStart c (by decide))

def alphaScale (e : EepromImage) : Nat := (e.read sensitivityScale).unsigned 12 4

def kVScale (e : EepromImage) : Nat := (e.read vAndTaScale).unsigned 8 4

def kTaScale (e : EepromImage) : Nat := (e.read vAndTaScale).unsigned 4 4 + 8

def kTaRemainderScale (e : EepromImage) : Nat := (e.read vAndTaScale).unsigned 0 4

def kTaAverage (e : EepromImage) (quadrant : Fin 4) : Int :=
  match quadrant with
  | 0 => (e.read ambientTemperatureAverageConstantsEvenColumns).signed 8 8
  | 1 => (e.read ambientTemperatureAverageConstantsOddColumns).signed 8 8
  | 2 => (e.read ambientTemperatureAverageConstantsEvenColumns).signed 0 8
  | 3 => (e.read ambientTemperatureAverageConstantsOddColumns).signed 0 8

/-- Offsets keep 16 bits, as in the camera's own arithmetic. -/
def pixel (e : EepromImage) (i : Pixel) : PixelCalibration :=
  let w := e.pixelWord i
  { offset := ((offsetTable e).value i (w.signed 10 6)).bmod (1 <<< 16)
    alpha := scaled ((alphaTable e).value i (w.signed 4 6)) (alphaScale e + 30)
    kTa := scaled (kTaAverage e i.quadrant + (w.signed 1 3 <<< kTaRemainderScale e)) (kTaScale e)
    failed := w == 0
    outlier := w.bit 0 }

def cornerTable (w : Word) : Vector Int 4 :=
  let step := w.unsigned 12 2 * 10
  let second := w.unsigned 4 4 * step
  let third := w.unsigned 8 4 * step + second
  #v[-40, 0, second, third]

def slopeTable (e : EepromImage) : Vector Dyadic 4 :=
  let scale := (e.read cornerTemperatures).unsigned 0 4 + 8
  let low := e.read objectTemperatureSensitivityRangeConstants1
  let high := e.read objectTemperatureSensitivityRangeConstants2
  #v[scaled (low.signed 0 8) scale, scaled (low.signed 8 8) scale,
    scaled (high.signed 0 8) scale, scaled (high.signed 8 8) scale]

def kVTable (e : EepromImage) : Vector Dyadic 4 :=
  let w := e.read averageVoltageConstants
  let scale := kVScale e
  #v[scaled (w.signed 12 4) scale, scaled (w.signed 4 4) scale,
    scaled (w.signed 8 4) scale, scaled (w.signed 0 4) scale]

def interleaveTable (w : Word) : Vector Dyadic 3 :=
  #v[scaled (w.signed 0 6) 4, scaled (w.signed 6 5) 1, scaled (w.signed 11 5) 3]

/-- The second sensitivity is stored as its ratio to the first, less one. -/
def alphaCpPair (e : EepromImage) : Dyadic × Dyadic :=
  let w := e.read compensationPixelSensitivity
  let first := scaled (w.unsigned 0 10) (alphaScale e + 27)
  (first, first * (1 + scaled (w.signed 10 6) 7))

/-- The second offset is stored as its difference from the first. -/
def offsetCpPair (w : Word) : Int × Int :=
  (w.signed 0 10, w.signed 0 10 + w.signed 10 6)

def ofImage (e : EepromImage) : Calibration where
  kVdd := (e.read vddConstants).signed 8 8 * 32
  vdd25 := ((e.read vddConstants).unsigned 0 8 - 256) * 32 - 8192
  resolution := .ofBits ((e.read vAndTaScale).unsigned 12 2)
  kVptat := scaled ((e.read ptatConstants).signed 10 6) 12
  kTptat := scaled ((e.read ptatConstants).signed 0 10) 3
  vPtat25 := (e.read ptat25).toInt
  alphaPtat := scaled ((e.read offsetCompensation).unsigned 12 4) 2 + 8
  gain := (e.read EepromAddress.gain).toInt
  ksTa := scaled ((e.read ambientTemperatureSensitivityConstant).signed 8 8) 13
  corners := cornerTable (e.read cornerTemperatures)
  ksTo := slopeTable e
  alphaCp := alphaCpPair e
  offsetCp := offsetCpPair (e.read compensationPixelOffset)
  kV := kVTable e
  kVCp := scaled ((e.read compensationPixelConstants).signed 8 8) (kVScale e)
  kTaCp := scaled ((e.read compensationPixelConstants).signed 0 8) (kTaScale e)
  tgc := scaled ((e.read ambientTemperatureSensitivityConstant).signed 0 8) 5
  interleave := interleaveTable (e.read interlacedModeCompensation)
  pixels := Vector.ofFn (pixel e)

def ofWords? (words : Array Word) : Except Fault Calibration :=
  if h : words.size = eepromSize then .ok (ofImage ⟨words, h⟩)
  else .error (.undecodable "the EEPROM dump must be exactly 832 words")

end Calibration
end Thermopile
