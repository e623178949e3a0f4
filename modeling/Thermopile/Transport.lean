import Thermopile.Program

namespace Thermopile.Transport

variable {ε : Type} {n : Nat}

abbrev blockWords : Nat := 32

def readWord (device : UInt8) (a : Address) : Program ε (Except ε Word) :=
  .ask (.exchange device a.toBytes 2) fun reply =>
    .done (reply.map fun bytes => Word.ofBytes bytes[0] bytes[1])

def writeWord (device : UInt8) (a : Address) (w : Word) : Program ε (Except ε Unit) :=
  Program.request (.send device (a.toBytes ++ w.toBytes))

def store (words : Vector Word n) (offset : Nat) (new : List Word) : Vector Word n :=
  (new.zipIdx offset).foldl (fun words (w, i) => words.setIfInBounds i w) words

/-- Fills `words` from position `offset` on. -/
def readFrom (device : UInt8) (start : Address) (words : Vector Word n) (offset : Nat) :
    Program ε (Except ε Unit × Vector Word n) :=
  if offset < n then
    .ask (.exchange device (start.advance offset).toBytes (2 * min blockWords (n - offset)))
      fun
      | .error e => .done (.error e, words)
      | .ok bytes =>
        readFrom device start (store words offset (Word.listOfBytes bytes.toList))
          (offset + blockWords)
  else .done (.ok (), words)
termination_by n - offset
decreasing_by simp only [blockWords]; omega

/-- Fills `words` from `start` on. After a failed transaction they are filled up to it. -/
def readBlock (device : UInt8) (start : Address) (words : Vector Word n) :
    Program ε (Except ε Unit × Vector Word n) :=
  readFrom device start words 0

/-- The address to which every device listens. -/
def generalCall : UInt8 := 0

def resetCommand : UInt8 := 6

def reset : Program ε (Except ε Unit) := Program.request (.send generalCall [resetCommand])

end Thermopile.Transport
