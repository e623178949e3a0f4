namespace Thermopile

abbrev Word := UInt16

namespace Word

def bit (w : Word) (i : Nat) : Bool := w.toNat.testBit i

def unsigned (w : Word) (offset width : Nat) : Nat := (w.toNat >>> offset) % (1 <<< width)

/-- The field in two's complement: its value modulo `2 ^ width` that is nearest to zero. -/
def signed (w : Word) (offset width : Nat) : Int :=
  (w.unsigned offset width : Int).bmod (1 <<< width)

def toInt (w : Word) : Int := w.signed 0 16

/-- Each word holds four signed nibbles, the lowest first. -/
def nibble (w : Word) (j : Nat) : Int := w.signed (4 * j) 4

def toBytes (w : Word) : List UInt8 := [UInt8.ofNat (w.toNat / 256), UInt8.ofNat w.toNat]

def ofBytes (high low : UInt8) : Word := UInt16.ofNat (256 * high.toNat + low.toNat)

/-- The words spelled by `bytes`; a last odd byte spells none. -/
def listOfBytes : List UInt8 → List Word
  | high :: low :: rest => ofBytes high low :: listOfBytes rest
  | _ => []

def flag (i : Nat) (set : Bool) : Word := if set then 1 <<< UInt16.ofNat i else 0

/-- The word with `value` in the field that starts at `offset`. -/
def field (offset value : Nat) : Word := UInt16.ofNat (value <<< offset)

theorem listOfBytes_toBytes (w : Word) : listOfBytes w.toBytes = [w] := by
  have h := w.toNat_lt
  simp only [toBytes, listOfBytes, ofBytes, List.cons.injEq, and_true]
  apply UInt16.toNat_inj.1
  simp only [UInt16.toNat_ofNat', UInt8.toNat_ofNat']
  omega

end Word
end Thermopile
