import Thermopile.Register.Basic
import Thermopile.Pixel
import Thermopile.Rate

namespace Thermopile

structure Control where
  useSubpages : Bool
  dataHold : Bool
  subpageRepeat : Bool
  subpage : Subpage
  frameRate : FrameRate
  resolution : Resolution
  accessPattern : AccessPattern
  startMeasurement : Bool
deriving DecidableEq, Ord

namespace Control

/-- The state after power on. -/
def default : Control where
  useSubpages := true
  dataHold := false
  subpageRepeat := false
  subpage := .zero
  frameRate := .default
  resolution := .default
  accessPattern := .chess
  startMeasurement := false

def ofWord (w : Word) : Control where
  useSubpages := w.bit 0
  dataHold := w.bit 2
  subpageRepeat := w.bit 3
  subpage := if w.bit 4 then .one else .zero
  frameRate := .ofBits (w.unsigned 7 3)
  resolution := .ofBits (w.unsigned 10 2)
  accessPattern := if w.bit 12 then .chess else .interleave
  startMeasurement := w.bit 15

def toWord (c : Control) : Word :=
  Word.flag 0 c.useSubpages ||| Word.flag 2 c.dataHold ||| Word.flag 3 c.subpageRepeat |||
    Word.field 4 c.subpage.toNat ||| Word.field 7 c.frameRate.code |||
    Word.field 10 c.resolution.code ||| Word.field 12 c.accessPattern.toNat |||
    Word.flag 15 c.startMeasurement

inductive Change
  | useSubpages (on : Bool)
  | dataHold (on : Bool)
  | subpageRepeat (on : Bool)
  | subpage (p : Subpage)
  | frameRate (r : FrameRate)
  | resolution (r : Resolution)
  | accessPattern (p : AccessPattern)
  | startMeasurement (on : Bool)
deriving DecidableEq

def apply (c : Control) : Change → Control
  | .useSubpages on => { c with useSubpages := on }
  | .dataHold on => { c with dataHold := on }
  | .subpageRepeat on => { c with subpageRepeat := on }
  | .subpage p => { c with subpage := p }
  | .frameRate r => { c with frameRate := r }
  | .resolution r => { c with resolution := r }
  | .accessPattern p => { c with accessPattern := p }
  | .startMeasurement on => { c with startMeasurement := on }

/-- Bits 1, 13 and 14 are reserved. -/
instance : PersistentRegister Control where
  place := .control
  writeMask := 0x9FFD
  ofWord := ofWord
  toWord := toWord
  eepromPlace := .controlRegister

theorem toWord_default : default.toWord = 0x1901 := by decide

end Control
end Thermopile
