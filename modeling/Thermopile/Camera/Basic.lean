import Thermopile.Calibration.Decode
import Thermopile.Camera.Setting
import Thermopile.Config
import Thermopile.Snapshot
import Thermopile.Transport

namespace Thermopile

structure Camera where
  device : UInt8
  config : ProtocolConfig

namespace Camera

variable {ε : Type} (x : Camera)

def readWord (a : Address) : Script ε Word := Script.onBus (Transport.readWord x.device a)

def writeWord (a : Address) (w : Word) : Script ε Unit :=
  Script.onBus (Transport.writeWord x.device a w)

def readWords (n : Nat) (start : Address) : Script ε (Vector Word n) := do
  let (result, words) ← ExceptT.lift
    (Transport.readBlock x.device start (Vector.replicate n 0))
  Script.onBus (.done result)
  return words

def readRegister (R : Type) [Register R] : Script ε R :=
  return Register.ofWord (← x.readWord (Register.address R))

/-- Writes a register and gives the camera a moment to act on it. -/
def writeRegister {R : Type} [Register R] (r : R) : Script ε Unit := do
  x.writeWord (Register.address R) (Register.toWord r)
  Script.sleep x.config.registerSettleDelay

def get (setting : Setting) : Script ε setting.Value :=
  return setting.field.get (← x.readRegister setting.Home)

/-- Writes the register only if the setting changes. -/
def set (setting : Setting) (value : setting.Value) : Script ε Unit := do
  let register ← x.readRegister setting.Home
  if setting.field.get register ≠ value then
    x.writeRegister (setting.field.set register value)

/-- Up to `rounds` of erasing a word, writing it and reading it back, out of `attempts`; `actual` is
what was read last. -/
def writeRounds (a : Address) (value : Word) (attempts : Nat) :
    (rounds : Nat) → (actual : Word) → Script ε Unit
  | 0, actual => Script.fail (.writeVerification a value actual attempts)
  | rounds + 1, _ => do
    x.writeWord a 0
    Script.sleep x.config.eepromEraseDelay
    x.writeWord a value
    Script.sleep x.config.eepromWriteDelay
    let actual ← x.readWord a
    if actual = value then
      Script.report (.eepromWritten a value)
    else
      Script.report (.eepromUnverified a (attempts - rounds) attempts value actual)
      writeRounds a value attempts rounds actual

/-- Writes a word of the EEPROM; at least one attempt is made. -/
def writeEeprom (a : Address) (value : Word) : Script ε Unit :=
  let attempts := max x.config.eepromWriteAttempts 1
  x.writeRounds a value attempts attempts 0

/-- Makes `r` the state of its register after the next power on. -/
def persist {R : Type} [PersistentRegister R] (r : R) : Script ε Unit :=
  x.writeEeprom (PersistentRegister.eepromAddress R) (Register.toWord r)

/-- Requests a measurement; the camera takes the request back when it begins. -/
def trigger : Script ε Unit := do
  let control ← x.readRegister Control
  x.writeRegister (control.apply (.startMeasurement true))
  Script.onBus Transport.reset
  Script.sleep x.config.resetDelay
  let control ← x.readRegister Control
  if control.startMeasurement then Script.fail .startup
  else Script.report .measurementTriggered

/-- Reads the status up to `polls` more times until it tells of new data of the wanted subpage. -/
def poll (wanted : Option Subpage) : (polls : Nat) → Script ε Status
  | 0 => Script.fail (.timeout x.config.maxPolls)
  | polls + 1 => do
    let status ← x.readRegister Status
    Script.report
      (.statusPolled (x.config.maxPolls - polls) status.newData status.lastSubpage)
    if status.newData ∧ wanted.all (· = status.lastSubpage) then return status
    if polls ≠ 0 then Script.sleep x.config.pollInterval
    poll wanted polls

def waitForData (wanted : Option Subpage) : Script ε Status := x.poll wanted x.config.maxPolls

/-- Copies the RAM into `words`, then clears the flag for new data in `status`. After a failed
transaction `words` are filled up to it, and the flag is not touched. -/
def readFrame (status : Status) (words : RamImage) :
    Program ε (Except (Failure ε) Unit × RamImage) := do
  let (result, words) ←
    Transport.readBlock x.device (AddressSpace.address RamAddress.base) words
  match result with
  | .error e => return (.error (.transport e), words)
  | .ok () => return (← x.writeRegister status.clearNewData, words)

def loadCalibration : Script ε Calibration := do
  let image ← x.readWords eepromSize (AddressSpace.address EepromAddress.base)
  Script.report (.calibrationLoaded eepromSize)
  return Calibration.ofImage image

/-- Three words that no other camera has. -/
def deviceId : Script ε (Vector Word 3) :=
  x.readWords 3 (AddressSpace.address EepromAddress.deviceId)

def dataAvailable : Script ε (Option Subpage) := do
  let status ← x.readRegister Status
  return if status.newData then some status.lastSubpage else none

def resetDataAvailable : Script ε Unit := do
  let status ← x.readRegister Status
  x.writeRegister status.clearNewData

end Camera
end Thermopile
