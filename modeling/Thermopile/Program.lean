import Thermopile.Frame
import Thermopile.Notice

namespace Thermopile

inductive Request
  /-- Write bytes to a device on the bus, then read a number of bytes from it. -/
  | exchange (device : UInt8) (out : List UInt8) (count : Nat)
  | send (device : UInt8) (out : List UInt8)
  | sleep (time : Duration)
  | now
  /-- Whether the program has been asked to stop. -/
  | cancelled
  /-- Show a frame to consumers. -/
  | publish (frame : Frame Float)
  /-- Tell consumers that no more frames follow. -/
  | finish
  | notice (notice : Notice)

/-- What answers a request, on a bus with errors of type `ε`. -/
abbrev Request.Reply (ε : Type) : Request → Type
  | exchange _ _ count => Except ε (Vector UInt8 count)
  | send _ _ => Except ε Unit
  | now => Duration
  | cancelled => Bool
  | sleep _ | publish _ | finish | notice _ => Unit

/-- A program is done, or makes a request and goes on with the reply. -/
inductive Program (ε α : Type)
  | done (a : α)
  | ask (q : Request) (next : q.Reply ε → Program ε α)

/-- Anything that answers requests, with a state of type `σ`. -/
structure World (ε σ : Type) where
  reply : σ → (q : Request) → q.Reply ε × σ

structure Event (ε : Type) where
  request : Request
  reply : request.Reply ε

namespace Program

variable {ε σ α β : Type}

def bind (p : Program ε α) (f : α → Program ε β) : Program ε β :=
  match p with
  | done a => f a
  | ask q next => ask q fun r => (next r).bind f

instance : Monad (Program ε) where
  pure := done
  bind := bind

def request (q : Request) : Program ε (q.Reply ε) := ask q done

/-- The result of running in a world, and the state it leaves. -/
def run (w : World ε σ) (p : Program ε α) (s : σ) : α × σ :=
  match p with
  | done a => (a, s)
  | ask q next =>
    let (r, s) := w.reply s q
    (next r).run w s

def events (w : World ε σ) (p : Program ε α) (s : σ) : List (Event ε) :=
  match p with
  | done _ => []
  | ask q next =>
    let (r, s) := w.reply s q
    ⟨q, r⟩ :: (next r).events w s

theorem run_bind (w : World ε σ) (p : Program ε α) (f : α → Program ε β) (s : σ) :
    (p >>= f).run w s = (f (p.run w s).1).run w (p.run w s).2 := by
  induction p generalizing s with
  | done a => rfl
  | ask q next ih => exact ih _ _

theorem events_bind (w : World ε σ) (p : Program ε α) (f : α → Program ε β) (s : σ) :
    (p >>= f).events w s = p.events w s ++ (f (p.run w s).1).events w (p.run w s).2 := by
  induction p generalizing s with
  | done a => rfl
  | ask q next ih => exact congrArg _ (ih _ _)

end Program

abbrev Script (ε : Type) := ExceptT (Failure ε) (Program ε)

namespace Script

variable {ε α : Type}

def request (q : Request) : Script ε (q.Reply ε) := ExceptT.lift (Program.request q)

def sleep (time : Duration) : Script ε Unit := request (.sleep time)

def report (n : Notice) : Script ε Unit := request (.notice n)

def fail (fault : Fault) : Script ε α := throw (.library fault)

/-- Bus errors end a script. -/
def onBus (p : Program ε (Except ε α)) : Script ε α :=
  ExceptT.mk (p.bind fun r => .done (r.mapError .transport))

end Script
end Thermopile
