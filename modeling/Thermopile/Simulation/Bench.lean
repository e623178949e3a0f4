import Thermopile.Program
import Thermopile.Simulation.Device
import Thermopile.Slot

namespace Thermopile.Simulation

inductive Plan
  | ignore
  | watch
  /-- Ask the program to stop at the sleep with this number. -/
  | stopAt (sleep : Nat)
  /-- After the sleep with this number, ask the program to stop and look no more. -/
  | leaveAfter (sleep : Nat)
deriving DecidableEq

/-- A frame that the watcher had not seen before, and the numbers of the frames that it gets by
waiting for one above the number before, and for one above this one. -/
structure Sighting where
  frame : Frame Float
  again : Option Nat
  next : Option Nat

/-- What the watcher finds while the program sleeps. -/
structure Look where
  finished : Bool
  sighting : Option Sighting

/-- A sleep of the program, and the transactions since the one before, the last one first. -/
structure Pause where
  length : Duration
  transactions : List Transaction
  /-- What the watcher found, unless it has turned away. -/
  look : Option Look

/-- A simulated camera, a clock that moves when the program sleeps, a log, and a watcher that looks
at the published frames whenever the program sleeps. -/
structure Bench where
  device : Device
  time : Duration := 0
  /-- By how much the clock moves at its next readings. -/
  drift : List Duration := []
  /-- The last one first, as in all the lists that follow. -/
  sleeps : List Duration := []
  notices : List Notice := []
  slot : Slot Float := {}
  plan : Plan := .ignore
  cancelled : Bool := false
  /-- The number of the frame that the watcher saw last. -/
  seen : Nat := 0
  pauses : List Pause := []

namespace Bench

/-- Number of the frame that waiting for one above `after` gives, when there is no time to wait. -/
def numberAbove (slot : Slot Float) (after : Nat) : Option Nat :=
  match slot.look after true with
  | .done (some frame) => some frame.sequence
  | _ => none

/-- The frame in the slot, if the watcher has not seen it. -/
def sighting (b : Bench) : Option Sighting :=
  match b.slot.frame with
  | none => none
  | some frame =>
    if frame.sequence = b.seen then none
    else some ⟨frame, numberAbove b.slot (frame.sequence - 1), numberAbove b.slot frame.sequence⟩

def addPause (b : Bench) (length : Duration) (look : Option Look) : Bench :=
  { b with
    pauses := ⟨length, b.device.log, look⟩ :: b.pauses
    device := { b.device with log := [] } }

def look (b : Bench) (length : Duration) : Bench :=
  let sighting := b.sighting
  let b := b.addPause length (some ⟨b.slot.finished, sighting⟩)
  { b with seen := (sighting.map fun s => s.frame.sequence).getD b.seen }

/-- The watcher's part in a sleep: it looks until its plan is carried out. -/
def watch (b : Bench) (length : Duration) : Bench :=
  match b.plan with
  | .ignore => b
  | .watch => b.look length
  | .stopAt n =>
    if b.cancelled then b
    else
      let b := b.look length
      { b with cancelled := b.pauses.length == n }
  | .leaveAfter n =>
    if b.cancelled then b.addPause length none
    else
      let b := b.look length
      { b with cancelled := b.pauses.length == n }

def sleep (b : Bench) (length : Duration) : Bench :=
  let b := b.watch length
  { b with time := b.time + length, sleeps := length :: b.sleeps }

def now (b : Bench) : Duration × Bench :=
  let time := b.time + b.drift.headD 0
  (time, { b with time := time, drift := b.drift.tail })

def reply (b : Bench) (q : Request) : q.Reply BusFault × Bench :=
  match q with
  | .exchange device out count =>
    let (r, device) := b.device.exchange device out count
    (r, { b with device })
  | .send device out =>
    let (r, device) := b.device.send device out
    (r, { b with device })
  | .sleep length => ((), b.sleep length)
  | .now => b.now
  | .cancelled => (b.cancelled, b)
  | .publish frame => ((), { b with slot := b.slot.publish frame })
  | .finish => ((), { b with slot := b.slot.finish })
  | .notice n => ((), { b with notices := n :: b.notices })

def world : World BusFault Bench := ⟨reply⟩

def clear (b : Bench) : Bench :=
  { b with device := { b.device with log := [] }, sleeps := [], notices := [] }

end Bench
end Thermopile.Simulation
