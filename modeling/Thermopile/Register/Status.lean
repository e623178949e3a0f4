import Thermopile.Register.Basic
import Thermopile.Pixel

namespace Thermopile

structure Status where
  lastSubpage : Subpage
  newData : Bool
  overwriteEnabled : Bool
  startMeasurement : Bool
deriving DecidableEq, Ord

namespace Status

def ofWord (w : Word) : Status where
  lastSubpage := if w.bit 0 then .one else .zero
  newData := w.bit 3
  overwriteEnabled := w.bit 4
  startMeasurement := w.bit 5

def toWord (s : Status) : Word :=
  Word.field 0 s.lastSubpage.toNat ||| Word.flag 3 s.newData |||
    Word.flag 4 s.overwriteEnabled ||| Word.flag 5 s.startMeasurement

def clearNewData (s : Status) : Status := { s with newData := false }

/-- What the controller can change; it cannot announce new data. -/
inductive Change
  | clearNewData
  | overwriteEnabled (on : Bool)
  | startMeasurement (on : Bool)
deriving DecidableEq

def apply (s : Status) : Change → Status
  | .clearNewData => s.clearNewData
  | .overwriteEnabled on => { s with overwriteEnabled := on }
  | .startMeasurement on => { s with startMeasurement := on }

/-- The camera alone changes the three lowest bits. -/
instance : Register Status := ⟨.status, 0x0038, ofWord, toWord⟩

end Status
end Thermopile
