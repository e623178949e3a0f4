import Thermopile.MemoryMap

namespace Thermopile

class Register (R : Type) where
  place : RegisterAddress
  /-- The bits that the controller may change. -/
  writeMask : Word
  ofWord : Word → R
  toWord : R → Word

class PersistentRegister (R : Type) extends Register R where
  eepromPlace : EepromAddress

namespace Register

def address (R : Type) [Register R] : Address := AddressSpace.address (place R)

end Register

def PersistentRegister.eepromAddress (R : Type) [PersistentRegister R] : Address :=
  AddressSpace.address (eepromPlace R)

end Thermopile
