import Thermopile.Address
import Thermopile.Text.Quoted

namespace Thermopile

/-- A number that no member of the set called `set` is coded by. -/
structure UnknownCode where
  set : String
  value : Nat
deriving DecidableEq

def UnknownCode.message (u : UnknownCode) : String :=
  "No discriminant in enum `" ++ u.set ++ "` matches the value `" ++ toString u.value ++ "`"

/-- Fixed width arithmetic that left its range. -/
inductive Overflow
  | shiftLeft
  | subtract
deriving DecidableEq

def Overflow.message : Overflow → String
  | .shiftLeft => "attempt to shift left with overflow"
  | .subtract => "attempt to subtract with overflow"

inductive Fault
  | undecodable (reason : String)
  | badData (address : Address)
  | timeout (attempts : Nat)
  | writeVerification (address : Address) (expected actual : Word) (attempts : Nat)
  | startup
  | invalidData (reason : String)
deriving DecidableEq

namespace Fault

def kind : Fault → String
  | .undecodable _ => "Decode"
  | .badData _ => "BadData"
  | .timeout _ => "Timeout"
  | .writeVerification .. => "WriteVerification"
  | .startup => "Startup"
  | .invalidData _ => "InvalidData"

def message : Fault → String
  | .undecodable reason => "Unable to decode calibration data: " ++ reason
  | .badData address => "Camera reported invalid data at " ++ address.render
  | .timeout attempts =>
    "No new data after polling the status register " ++ toString attempts ++ " times"
  | .writeVerification address expected actual attempts =>
    "EEPROM write to " ++ address.render ++ " failed after " ++ toString attempts ++
      " attempts: expected " ++ Text.hexWord expected ++ ", read " ++ Text.hexWord actual
  | .startup => "Measurement did not start"
  | .invalidData reason => reason

def parts : Fault → String
  | .undecodable reason | .invalidData reason => "(" ++ Text.quoted reason ++ ")"
  | .badData address => "(" ++ address.render ++ ")"
  | .timeout attempts => " \x7b attempts: " ++ toString attempts ++ " \x7d"
  | .writeVerification address expected actual attempts =>
    " \x7b address: " ++ address.render ++ ", expected: " ++ toString expected.toNat ++
      ", actual: " ++ toString actual.toNat ++ ", attempts: " ++ toString attempts ++ " \x7d"
  | .startup => ""

def render (f : Fault) : String := f.kind ++ f.parts

end Fault

/-- Bus errors tell a reader what happened and show their parts. -/
class BusError (ε : Type) where
  message : ε → String
  render : ε → String

inductive Failure (ε : Type)
  | transport (error : ε)
  | library (fault : Fault)
deriving DecidableEq

namespace Failure

variable {ε : Type} [BusError ε]

def message : Failure ε → String
  | .transport e => "Transport Error: " ++ BusError.render e
  | .library f => "Library Error: " ++ f.message

def render : Failure ε → String
  | .transport e => "Error::Transport(" ++ BusError.render e ++ ")"
  | .library f => "Error::Library(" ++ f.render ++ ")"

def source : Failure ε → String
  | .transport e => BusError.message e
  | .library f => f.message

omit [BusError ε] in
def fault? : Failure ε → Option Fault
  | .transport _ => none
  | .library f => some f

end Failure
end Thermopile
