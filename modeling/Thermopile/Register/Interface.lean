import Thermopile.Register.Basic

namespace Thermopile

/-- Bits 0 and 2 switch fast mode plus and the current limiter off, so both are inverted here. -/
structure InterfaceConfig where
  fastModePlus : Bool
  thresholdHalved : Bool
  sdaCurrentLimiter : Bool
deriving DecidableEq, Ord

namespace InterfaceConfig

def default : InterfaceConfig := ⟨true, false, true⟩

def ofWord (w : Word) : InterfaceConfig := ⟨!w.bit 0, w.bit 1, !w.bit 2⟩

def toWord (c : InterfaceConfig) : Word :=
  Word.flag 0 (!c.fastModePlus) ||| Word.flag 1 c.thresholdHalved |||
    Word.flag 2 (!c.sdaCurrentLimiter)

inductive Change
  | fastModePlus (on : Bool)
  | thresholdHalved (on : Bool)
  | sdaCurrentLimiter (on : Bool)
deriving DecidableEq

def apply (c : InterfaceConfig) : Change → InterfaceConfig
  | .fastModePlus on => { c with fastModePlus := on }
  | .thresholdHalved on => { c with thresholdHalved := on }
  | .sdaCurrentLimiter on => { c with sdaCurrentLimiter := on }

instance : PersistentRegister InterfaceConfig where
  place := .i2cConfig
  writeMask := 0x0007
  ofWord := ofWord
  toWord := toWord
  eepromPlace := .i2cConfigRegister

end InterfaceConfig

structure InterfaceAddress where
  device : UInt8
deriving DecidableEq, Ord

namespace InterfaceAddress

def default : InterfaceAddress := ⟨0x33⟩

/-- Addresses have seven bits, and zero calls every device on the bus. -/
def ofDevice? (device : UInt8) : Except Fault InterfaceAddress :=
  if device == 0 || device > 0x7F then
    .error (.invalidData "I²C addresses must be within 0x01..=0x7F")
  else .ok ⟨device⟩

def ofWord (w : Word) : InterfaceAddress := ⟨w.toUInt8⟩

def toWord (a : InterfaceAddress) : Word := a.device.toUInt16

instance : PersistentRegister InterfaceAddress where
  place := .i2cAddress
  writeMask := 0x00FF
  ofWord := ofWord
  toWord := toWord
  eepromPlace := .i2cAddress

end InterfaceAddress
end Thermopile
