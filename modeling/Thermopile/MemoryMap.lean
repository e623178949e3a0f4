import Thermopile.Fault

namespace Thermopile

inductive EepromAddress
  | base | deviceId
  | controlRegister | i2cConfigRegister | i2cAddress
  | offsetCompensation | pixelOffsetAverage
  | offsetCompensationRowStart | offsetCompensationColumnStart
  | sensitivityScale | pixelSensitivityAverage
  | pixelSensitivityCompensationRowStart | pixelSensitivityCompensationColumnStart
  | gain | ptat25 | ptatConstants | vddConstants | averageVoltageConstants
  | interlacedModeCompensation
  | ambientTemperatureAverageConstantsEvenColumns | ambientTemperatureAverageConstantsOddColumns
  | vAndTaScale
  | compensationPixelSensitivity | compensationPixelOffset | compensationPixelConstants
  | ambientTemperatureSensitivityConstant
  | objectTemperatureSensitivityRangeConstants1 | objectTemperatureSensitivityRangeConstants2
  | cornerTemperatures | pixelCalibrationStart | last
deriving DecidableEq, Ord

namespace EepromAddress

/-- In ascending order of their words. -/
def all : List EepromAddress :=
  [base, deviceId, controlRegister, i2cConfigRegister, i2cAddress, offsetCompensation,
    pixelOffsetAverage, offsetCompensationRowStart, offsetCompensationColumnStart,
    sensitivityScale, pixelSensitivityAverage, pixelSensitivityCompensationRowStart,
    pixelSensitivityCompensationColumnStart, gain, ptat25, ptatConstants, vddConstants,
    averageVoltageConstants, interlacedModeCompensation,
    ambientTemperatureAverageConstantsEvenColumns, ambientTemperatureAverageConstantsOddColumns,
    vAndTaScale, compensationPixelSensitivity, compensationPixelOffset,
    compensationPixelConstants, ambientTemperatureSensitivityConstant,
    objectTemperatureSensitivityRangeConstants1, objectTemperatureSensitivityRangeConstants2,
    cornerTemperatures, pixelCalibrationStart, last]

def word : EepromAddress → Word
  | base => 0x2400
  | deviceId => 0x2407
  | controlRegister => 0x240C
  | i2cConfigRegister => 0x240E
  | i2cAddress => 0x240F
  | offsetCompensation => 0x2410
  | pixelOffsetAverage => 0x2411
  | offsetCompensationRowStart => 0x2412
  | offsetCompensationColumnStart => 0x2418
  | sensitivityScale => 0x2420
  | pixelSensitivityAverage => 0x2421
  | pixelSensitivityCompensationRowStart => 0x2422
  | pixelSensitivityCompensationColumnStart => 0x2428
  | gain => 0x2430
  | ptat25 => 0x2431
  | ptatConstants => 0x2432
  | vddConstants => 0x2433
  | averageVoltageConstants => 0x2434
  | interlacedModeCompensation => 0x2435
  | ambientTemperatureAverageConstantsEvenColumns => 0x2436
  | ambientTemperatureAverageConstantsOddColumns => 0x2437
  | vAndTaScale => 0x2438
  | compensationPixelSensitivity => 0x2439
  | compensationPixelOffset => 0x243A
  | compensationPixelConstants => 0x243B
  | ambientTemperatureSensitivityConstant => 0x243C
  | objectTemperatureSensitivityRangeConstants1 => 0x243D
  | objectTemperatureSensitivityRangeConstants2 => 0x243E
  | cornerTemperatures => 0x243F
  | pixelCalibrationStart => 0x2440
  | last => 0x273F

def name : EepromAddress → String
  | base => "Base"
  | deviceId => "DeviceId"
  | controlRegister => "ControlRegister"
  | i2cConfigRegister => "I2cConfigRegister"
  | i2cAddress => "I2cAddress"
  | offsetCompensation => "OffsetCompensation"
  | pixelOffsetAverage => "PixelOffsetAverage"
  | offsetCompensationRowStart => "OffsetCompensationRowStart"
  | offsetCompensationColumnStart => "OffsetCompensationColumnStart"
  | sensitivityScale => "SensitivityScale"
  | pixelSensitivityAverage => "PixelSensitivityAverage"
  | pixelSensitivityCompensationRowStart => "PixelSensitivityCompensationRowStart"
  | pixelSensitivityCompensationColumnStart => "PixelSensitivityCompensationColumnStart"
  | gain => "Gain"
  | ptat25 => "Ptat25"
  | ptatConstants => "PtatConstants"
  | vddConstants => "VddConstants"
  | averageVoltageConstants => "AverageVoltageConstants"
  | interlacedModeCompensation => "InterlacedModeCompensation"
  | ambientTemperatureAverageConstantsEvenColumns => "AmbientTemperatureAverageConstantsEvenColumns"
  | ambientTemperatureAverageConstantsOddColumns => "AmbientTemperatureAverageConstantsOddColumns"
  | vAndTaScale => "VAndTaScale"
  | compensationPixelSensitivity => "CompensationPixelSensitivity"
  | compensationPixelOffset => "CompensationPixelOffset"
  | compensationPixelConstants => "CompensationPixelConstants"
  | ambientTemperatureSensitivityConstant => "AmbientTemperatureSensitivityConstant"
  | objectTemperatureSensitivityRangeConstants1 => "ObjectTemperatureSensitivityRangeConstants1"
  | objectTemperatureSensitivityRangeConstants2 => "ObjectTemperatureSensitivityRangeConstants2"
  | cornerTemperatures => "CornerTemperatures"
  | pixelCalibrationStart => "PixelCalibrationStart"
  | last => "End"

end EepromAddress

inductive RamAddress
  | base
  | ambientTemperatureVoltageBe
  | compensationPixelZero
  | gain
  | ambientTemperatureVoltage
  | compensationPixelOne
  | pixelSupplyVoltage
  | last
deriving DecidableEq, Ord

namespace RamAddress

def all : List RamAddress :=
  [base, ambientTemperatureVoltageBe, compensationPixelZero, gain, ambientTemperatureVoltage,
    compensationPixelOne, pixelSupplyVoltage, last]

def word : RamAddress → Word
  | base => 0x0400
  | ambientTemperatureVoltageBe => 0x0700
  | compensationPixelZero => 0x0708
  | gain => 0x070A
  | ambientTemperatureVoltage => 0x0720
  | compensationPixelOne => 0x0728
  | pixelSupplyVoltage => 0x072A
  | last => 0x073F

def name : RamAddress → String
  | base => "Base"
  | ambientTemperatureVoltageBe => "AmbientTemperatureVoltageBe"
  | compensationPixelZero => "CompensationPixelZero"
  | gain => "Gain"
  | ambientTemperatureVoltage => "AmbientTemperatureVoltage"
  | compensationPixelOne => "CompensationPixelOne"
  | pixelSupplyVoltage => "PixelSupplyVoltage"
  | last => "End"

end RamAddress

inductive RegisterAddress
  | status
  | control
  | i2cConfig
  | i2cAddress
deriving DecidableEq, Ord

namespace RegisterAddress

def all : List RegisterAddress := [status, control, i2cConfig, i2cAddress]

def word : RegisterAddress → Word
  | status => 0x8000
  | control => 0x800D
  | i2cConfig => 0x800F
  | i2cAddress => 0x8010

def name : RegisterAddress → String
  | status => "Status"
  | control => "Control"
  | i2cConfig => "I2cConfig"
  | i2cAddress => "I2cAddress"

end RegisterAddress

class AddressSpace (A : Type) where
  title : String
  all : List A
  word : A → Word
  name : A → String

instance : AddressSpace EepromAddress :=
  ⟨"EepromAddress", EepromAddress.all, EepromAddress.word, EepromAddress.name⟩

instance : AddressSpace RamAddress :=
  ⟨"RamAddress", RamAddress.all, RamAddress.word, RamAddress.name⟩

instance : AddressSpace RegisterAddress :=
  ⟨"RegisterAddress", RegisterAddress.all, RegisterAddress.word, RegisterAddress.name⟩

namespace AddressSpace

variable {A : Type} [AddressSpace A]

def address (a : A) : Address := ⟨word a⟩

/-- The place at `w`, if it has a name. -/
def ofWord (A : Type) [AddressSpace A] (w : Word) : Except UnknownCode A :=
  match (all : List A).find? fun a => word a == w with
  | some a => .ok a
  | none => .error ⟨title A, w.toNat⟩

def sum (a b : A) : Word := word a + word b

/-- How far `a` lies after `b`. -/
def distance (a b : A) : Except Overflow Word :=
  if word b ≤ word a then .ok (word a - word b) else .error .subtract

end AddressSpace

/-- Position in an image of the EEPROM. -/
def EepromAddress.index (a : EepromAddress) : Nat := a.word.toNat - 0x2400

def RamAddress.index (a : RamAddress) : Nat := a.word.toNat - 0x0400

end Thermopile
