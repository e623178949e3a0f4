import Thermopile.Camera.Basic
import Thermopile.Decoder

namespace Thermopile

structure Acquisition where
  camera : Camera
  calibration : Calibration
  config : AcquisitionConfig

namespace Acquisition

/-- What goes from one cycle into the next. The number of frames so far stands in the last of them,
with no bound of 64 bits. -/
structure Progress where
  decoder : Decoder Float
  frame : Frame Float

inductive Ending
  /-- A check for cancellation was answered with yes. -/
  | cancelled
  /-- The allowed number of cycles is over. -/
  | unfinished

variable {ε : Type} (x : Acquisition)

def capture : Script ε Snapshot := do
  let status ← x.camera.waitForData none
  let control ← x.camera.readRegister Control
  let (result, words) ← ExceptT.lift
    (x.camera.readFrame status (Vector.replicate ramSize 0))
  ExceptT.mk (.done result)
  return Snapshot.ofRegisters words status control

def develop (p : Progress) (s : Snapshot) : Script ε Progress :=
  match p.decoder.decode x.calibration s p.frame with
  | (.error fault, _) => Script.fail fault
  | (.ok (), decoder, frame) => do
    let frame := { frame with sequence := p.frame.sequence + 1 }
    Script.request (.publish frame)
    Script.report (.framePublished frame.sequence s.subpage)
    return { decoder, frame }

def measure (p : Progress) : Script ε Progress := do x.develop p (← x.capture)

/-- Sleeps what is left of the period after `elapsed`. -/
def pace (period elapsed : Duration) (sequence : Nat) : Script ε Unit :=
  if elapsed ≤ period then Script.sleep (period - elapsed)
  else Script.report (.frameOverran sequence elapsed period)

def cycle (period : Duration) (p : Progress) : Script ε Progress := do
  let started : Duration ← Script.request .now
  let p ← x.measure p
  let ended : Duration ← Script.request .now
  pace period (ended - started) p.frame.sequence
  return p

def cycles (period : Duration) : (budget : Nat) → Progress → Script ε Ending
  | 0, _ => return .unfinished
  | budget + 1, p => do
    if ← Script.request .cancelled then return .cancelled
    cycles period budget (← x.cycle period p)

/-- Sets the frame rate, if one is wanted, and requests a measurement; the result is the rate. -/
def start : Script ε FrameRate := do
  if let some rate := x.config.frameRate then x.camera.set .frameRate rate
  let rate ← x.camera.get .frameRate
  x.camera.trigger
  Script.report (.acquisitionStarted rate)
  return rate

def run (budget : Nat) (decoder : Decoder Float) : Script ε Ending := do
  let rate ← x.start
  x.cycles rate.period budget ⟨decoder, .empty⟩

/-- As `run`, and tells consumers and the log how it ended. -/
def serve [BusError ε] (budget : Nat) (decoder : Decoder Float) :
    Program ε (Except (Failure ε) Ending) := do
  let result ← (x.run budget decoder).run
  match result with
  | .ok _ => Program.request (.notice .acquisitionStopped)
  | .error failure => Program.request (.notice (.acquisitionFailed failure.message))
  Program.request .finish
  return result

end Acquisition
end Thermopile
