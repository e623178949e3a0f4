import Thermopile.Word
import Thermopile.Text.Hex

namespace Thermopile

structure Address where
  word : Word
deriving DecidableEq, Ord

namespace Address

/-- The address `words` further on; the memory wraps at its end. -/
def advance (a : Address) (words : Nat) : Address := ⟨a.word + UInt16.ofNat words⟩

def toBytes (a : Address) : List UInt8 := a.word.toBytes

def render (a : Address) : String := "Address(0x" ++ Text.hexUpper 1 a.word.toNat ++ ")"

end Address
end Thermopile
