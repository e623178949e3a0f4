namespace Thermopile.Text

/-- Lower case, padded with zeros to at least `width` digits. -/
def hex (width n : Nat) : String :=
  let digits := Nat.toDigits 16 n
  String.ofList (List.replicate (width - digits.length) '0' ++ digits)

def hexUpper (width n : Nat) : String :=
  String.ofList ((hex width n).toList.map Char.toUpper)

/-- A four digit word with its radix, as in `0x1901`. -/
def hexWord (w : UInt16) : String := "0x" ++ hexUpper 4 w.toNat

end Thermopile.Text
