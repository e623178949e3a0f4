import Thermopile.Acquisition
import Thermopile.Datasheet
import Thermopile.Reading
import Thermopile.Register.Interface
import Thermopile.Simulation.Bench
import Thermopile.Proofs.Decoder.Step
import Thermopile.Proofs.Decoder.History
import Thermopile.Proofs.Event
import Thermopile.Proofs.Transport
import Thermopile.Proofs.Camera
import Thermopile.Proofs.Acquisition.Cycle
import Thermopile.Proofs.Acquisition.Course
import Thermopile.Proofs.Acquisition.Publication
import Thermopile.Proofs.ReservedBits
import Thermopile.Proofs.Acquisition.Supply
import Thermopile.Proofs.Register
import Thermopile.Proofs.Simulation.Device
import Thermopile.Proofs.Simulation.Series
import Thermopile.Proofs.Simulation.Camera
import Thermopile.Proofs.Simulation.Measurement
import Thermopile.Proofs.Double.Rounding
import Thermopile.Proofs.Double.Packing
import Thermopile.Proofs.Double.Division
import Thermopile.Proofs.Double.Dyadic
import Thermopile.Proofs.Decoder.Refusal
import Thermopile.Proofs.Calibration.Fields
import Thermopile.Proofs.Calibration.Pixels
import Thermopile.Proofs.Decoder.Visibility
import Thermopile.Proofs.Calibration.RangeCorrection
import Thermopile.Proofs.Calibration.Doubles
import Thermopile.Proofs.Decoder.Agreement
import Thermopile.Proofs.FirstFailure
import Thermopile.Proofs.Memory
import Thermopile.Proofs.Consumers
import Thermopile.Proofs.Repair.Order
import Thermopile.Proofs.Repair.Interior
import Thermopile.Proofs.Repair.Isolation
import Thermopile.Proofs.Calibration.Congruence
import Thermopile.Proofs.Decoder.Marks
import Thermopile.Proofs.FallibleMemory
import Thermopile.Proofs.Persistence
import Thermopile.Proofs.Settings
import Thermopile.Proofs.Simulation.Memory
import Thermopile.Proofs.Decoder.Validation
import Thermopile.Proofs.WordSequence
import Thermopile.Proofs.WriteVerification
import Thermopile.Proofs.Polling
import Thermopile.Proofs.Acquisition.Ending
import Thermopile.Proofs.Acquisition.Pacing
import Thermopile.Proofs.Calibration.Totality
import Thermopile.Proofs.Decoder.Totality
import Thermopile.Proofs.Decoder.Compensation
import Thermopile.Proofs.Decoder.InfraredFormula
import Thermopile.Proofs.Double.Order
import Thermopile.Proofs.Decoder.RangeSelection
import Thermopile.Proofs.RegisterLayout
import Thermopile.Proofs.Calibration.SharedConstants
import Thermopile.Proofs.Readout
import Thermopile.Proofs.Double.TotalOrder
import Thermopile.Proofs.Repair.Median
import Thermopile.Proofs.WordSlices
import Thermopile.Proofs.Decoder.ConversionPattern
import Thermopile.Proofs.FrameBounds
import Thermopile.Proofs.FrameRate
