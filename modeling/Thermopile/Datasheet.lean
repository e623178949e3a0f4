import Thermopile.Calibration.Decode
import Thermopile.Snapshot

namespace Thermopile.Datasheet

def eepromHeader : Array Word :=
  #[0x0000, 0x0000, 0x0000, 0x0000, 0x0000, 0x0000, 0x0000, 0x0000,
    0x0000, 0x0000, 0x0000, 0x0000, 0x0000, 0x0000, 0x0000, 0x0000,
    0x4210, 0xFFBB, 0x0202, 0xF202, 0xF2F2, 0xE2E2, 0xD1E1, 0xB1D1,
    0xF10F, 0xF00F, 0xE0EF, 0xE0EF, 0xE1E1, 0xF3F2, 0xF404, 0xE504,
    0x79A6, 0x2F44, 0xFFDD, 0x2210, 0x3333, 0x2233, 0xEF01, 0x9ACC,
    0xEEDC, 0x10FF, 0x2221, 0x3333, 0x2333, 0x0112, 0xEEFF, 0xBBDD,
    0x18EF, 0x2FF1, 0x5952, 0x9D68, 0x5454, 0x0994, 0x6956, 0x5354,
    0x2363, 0xE446, 0xFBB5, 0x044B, 0xF020, 0x9797, 0x9797, 0x2889]

/-- The worked example of the datasheet, in which all pixels have one calibration word. -/
def eeprom : EepromImage :=
  Vector.ofFn fun i => eepromHeader.getD i.val 0x08A0

/-- The auxiliary words that differ from zero. -/
def auxiliary : List (Nat × Word) :=
  [(768, 0x4BF2), (776, 0xFFCA), (778, 0x1881), (800, 0x06AF), (808, 0xFFC8), (810, 0xCCC5)]

def ram : RamImage :=
  Vector.ofFn fun i => if i.val < pixelCount then 0x0261 else (auxiliary.lookup i.val).getD 0

end Thermopile.Datasheet
