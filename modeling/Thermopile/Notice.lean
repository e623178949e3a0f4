import Thermopile.Pixel
import Thermopile.Rate

namespace Thermopile

inductive Level
  | error
  | warn
  | info
  | debug
  | trace
deriving DecidableEq

def Level.name : Level → String
  | error => "ERROR"
  | warn => "WARN"
  | info => "INFO"
  | debug => "DEBUG"
  | trace => "TRACE"

inductive Notice
  | eepromWritten (address : Address) (value : Word)
  | eepromUnverified (address : Address) (attempt attempts : Nat) (value actual : Word)
  | measurementTriggered
  | statusPolled (poll : Nat) (newData : Bool) (subpage : Subpage)
  | calibrationLoaded (words : Nat)
  | acquisitionStarted (rate : FrameRate)
  | framePublished (sequence : Nat) (subpage : Subpage)
  | frameOverran (sequence : Nat) (elapsed period : Duration)
  | acquisitionStopped
  | acquisitionFailed (reason : String)
deriving DecidableEq

namespace Notice

def level : Notice → Level
  | acquisitionFailed _ => .error
  | eepromUnverified .. | frameOverran .. => .warn
  | eepromWritten .. | measurementTriggered | calibrationLoaded _ | acquisitionStarted _
  | acquisitionStopped => .debug
  | statusPolled .. | framePublished .. => .trace

def message : Notice → String
  | eepromWritten address value =>
    s!"Wrote {Text.hexWord value} to EEPROM at {address.render}"
  | eepromUnverified address attempt attempts value actual =>
    s!"EEPROM write to {address.render} did not verify (attempt {attempt} of {attempts}): " ++
      s!"wrote {Text.hexWord value}, read {Text.hexWord actual}"
  | measurementTriggered => "Measurement triggered"
  | statusPolled poll newData subpage =>
    s!"Status poll {poll}: new data {newData}, subpage {subpage.name}"
  | calibrationLoaded words => s!"Loaded calibration data ({words} words)"
  | acquisitionStarted rate =>
    s!"Acquisition started at {rate.hertzText}Hz ({rate.period.render} per subpage)"
  | framePublished sequence subpage => s!"Published frame {sequence} (subpage {subpage.name})"
  | frameOverran sequence elapsed period =>
    s!"Frame {sequence} took {elapsed.render}, longer than the " ++
      s!"{period.render} frame period"
  | acquisitionStopped => "Acquisition stopped"
  | acquisitionFailed reason => s!"Acquisition stopped: {reason}"

def render (n : Notice) : String := n.level.name ++ " " ++ n.message

end Notice
end Thermopile
