namespace Thermopile

/-- `n` divided by `10 ^ places`, with no more decimals than needed. -/
def Text.decimal (places n : Nat) : String :=
  let unit := Nat.pow 10 places
  let digits := (Nat.toDigits 10 (unit + n % unit)).drop 1
  let shown := (digits.reverse.dropWhile (· == '0')).reverse
  toString (n / unit) ++ (if shown.isEmpty then "" else "." ++ String.ofList shown)

/-- A span of time or the reading of a clock, in nanoseconds. -/
abbrev Duration := Nat

namespace Duration

def ofMicros (n : Nat) : Duration := 1000 * n

def micros (d : Duration) : Nat := d / 1000

/-- In the largest unit of which there is at least one: `2s`, `15.625ms`, `500µs`. -/
def render (d : Duration) : String :=
  if 1000000000 ≤ d then Text.decimal 9 d ++ "s"
  else if 1000000 ≤ d then Text.decimal 6 d ++ "ms"
  else if 1000 ≤ d then Text.decimal 3 d ++ "µs"
  else toString d ++ "ns"

end Duration
end Thermopile
