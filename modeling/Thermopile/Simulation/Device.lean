import Thermopile.Register.Control
import Thermopile.Register.Status
import Thermopile.Snapshot

namespace Thermopile.Simulation

abbrev memorySize : Nat := 65536

def cameraAddress : UInt8 := 0x33

inductive BusFault
  /-- The transaction with this number was not acknowledged. -/
  | nack (transaction : Nat)
  | unknownAddress (device : UInt8)
deriving DecidableEq

instance : BusError BusFault where
  message
    | .nack n => s!"no acknowledgement in transaction {n}"
    | .unknownAddress device => s!"nobody at {device.toNat}"
  render
    | .nack n => s!"Nack({n})"
    | .unknownAddress device => s!"UnknownAddress({device.toNat})"

inductive Transfer
  | read (device : UInt8) (out : List UInt8) (count : Nat)
  | write (device : UInt8) (out : List UInt8)
deriving DecidableEq

def Transfer.device : Transfer → UInt8
  | read device .. | write device _ => device

structure Transaction where
  transfer : Transfer
  failed : Bool
deriving DecidableEq

/-- A memory of `2 ^ 16` words that answers reads and stores writes, and that can misbehave. -/
structure Device where
  address : UInt8 := cameraAddress
  memory : Vector Word memorySize
  /-- The numbers of the transactions that fail. -/
  failing : List Nat := []
  /-- Values that a word takes when it is read, one after the other. -/
  queued : List (Word × List Word) := []
  /-- How many writes of values other than zero a word still loses. -/
  lost : List (Word × Nat) := []
  /-- Measurements that are ready. -/
  measurements : List RamImage := []
  /-- When none is ready, the last one is shown again, as one of the other subpage. -/
  repeats : Bool := false
  /-- A reset does not begin the requested measurement. -/
  stuck : Bool := false
  count : Nat := 0
  /-- Transactions, the last one first. -/
  log : List Transaction := []

namespace Device

variable (d : Device)

def peek (a : Word) : Word := d.memory.get ⟨a.toNat, a.toNat_lt⟩

def poke (a w : Word) : Device := { d with memory := d.memory.set a.toNat w a.toNat_lt }

def load (start : Word) (words : List Word) : Device :=
  let memory := (words.zipIdx start.toNat).foldl
    (fun memory (w, i) => memory.setIfInBounds i w) d.memory
  { d with memory }

/-- `entries` without the first entry of `a`, and with `value` as its only one. -/
def replaceEntry {β : Type} (entries : List (Word × β)) (a : Word) (value : β) :
    List (Word × β) :=
  (a, value) :: entries.filter fun entry => entry.1 != a

def readWord (a : Word) : Word × Device :=
  match d.queued.lookup a with
  | some (w :: rest) =>
    let queued := replaceEntry d.queued a rest
    let d := d.poke a w
    (w, { d with queued })
  | _ => (d.peek a, d)

/-- The next `n` words from `a` on; the memory wraps at its end. -/
def readWords (a : Word) : (n : Nat) → Device → List Word × Device
  | 0, d => ([], d)
  | n + 1, d =>
    let (w, d) := d.readWord a
    let (rest, d) := readWords (a + 1) n d
    (w :: rest, d)

/-- The status tells of new data, of the other subpage. -/
def announce : Device :=
  d.poke RegisterAddress.status.word (d.peek RegisterAddress.status.word ^^^ 1 ||| 8)

/-- Puts the next measurement into the RAM and tells of it in the status. -/
def measure : Device :=
  match d.measurements with
  | [] => if d.repeats then d.announce else d
  | image :: rest =>
    let d := { d with measurements := rest }
    (d.load RamAddress.base.word image.toList).announce

def store (a w : Word) : Device :=
  let d := d.poke a w
  if a = RegisterAddress.status.word ∧ w.bit 3 = false then d.measure else d

def writeWord (a w : Word) : Device :=
  match d.lost.lookup a with
  | some (n + 1) => if w = 0 then d.store a w else { d with lost := replaceEntry d.lost a n }
  | _ => d.store a w

/-- A reset begins the requested measurement. -/
def reset : Device :=
  if d.stuck then d
  else
    let control := RegisterAddress.control.word
    d.poke control (d.peek control &&& 0x7FFF)

def fault? (transfer : Transfer) : Option BusFault :=
  if d.failing.contains d.count then some (.nack d.count)
  else if transfer.device = d.address ∨ transfer.device = 0 then none
  else some (.unknownAddress transfer.device)

def record (transfer : Transfer) (failed : Bool) : Device :=
  { d with count := d.count + 1, log := ⟨transfer, failed⟩ :: d.log }

/-- What `out` writes, if it is an address and a word. -/
def written? (out : List UInt8) : Option (Word × Word) :=
  match out with
  | [a1, a0, w1, w0] => some (Word.ofBytes a1 a0, Word.ofBytes w1 w0)
  | _ => none

def exchange (device : UInt8) (out : List UInt8) (count : Nat) :
    Except BusFault (Vector UInt8 count) × Device :=
  let transfer := .read device out count
  match d.fault? transfer with
  | some e => (.error e, d.record transfer true)
  | none =>
    let start := (Word.listOfBytes out).headD 0
    let (words, d) := readWords start ((count + 1) / 2) (d.record transfer false)
    let bytes := (words.flatMap Word.toBytes).toArray
    (.ok (Vector.ofFn fun i => bytes.getD i.val 0), d)

def send (device : UInt8) (out : List UInt8) : Except BusFault Unit × Device :=
  let transfer := .write device out
  match d.fault? transfer with
  | some e => (.error e, d.record transfer true)
  | none =>
    let d := d.record transfer false
    if device = 0 then (.ok (), if out = [6] then d.reset else d)
    else
      match written? out with
      | some (a, w) => (.ok (), d.writeWord a w)
      | none => (.ok (), d)

/-- A camera with the given EEPROM and RAM, new data in its RAM, and registers as after power on. -/
def boot (eeprom ram : List Word) : Device :=
  let d : Device := { memory := Vector.replicate memorySize 0 }
  let d := (d.load EepromAddress.base.word eeprom).load RamAddress.base.word ram
  ((d.poke RegisterAddress.status.word 0x0008).poke RegisterAddress.control.word
    Control.default.toWord).poke RegisterAddress.i2cAddress.word d.address.toUInt16

end Device
end Thermopile.Simulation
