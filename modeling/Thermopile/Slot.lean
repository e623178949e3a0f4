import Thermopile.Frame

namespace Thermopile

structure Slot (α : Type) where
  frame : Option (Frame α) := none
  finished : Bool := false

namespace Slot

variable {α : Type}

def publish (s : Slot α) (frame : Frame α) : Slot α := { s with frame := some frame }

def finish (s : Slot α) : Slot α := { s with finished := true }

/-- The frame, if its number is above `after`. -/
def newer? (s : Slot α) (after : Nat) : Option (Frame α) :=
  s.frame.filter fun f => after < f.sequence

inductive Look (α : Type)
  | keepWaiting
  | done (frame : Option (Frame α))

/-- What a consumer sees that waits for a frame numbered above `after`, and whose time may be up. -/
def look (s : Slot α) (after : Nat) (timeUp : Bool) : Look α :=
  if (s.newer? after).isSome || s.finished || timeUp then .done (s.newer? after)
  else .keepWaiting

end Slot
end Thermopile
