/-!
# Durations

A duration is a number of nanoseconds.  It is written in the largest of the units second,
millisecond, microsecond and nanosecond of which it holds at least one, as an exact decimal without
trailing zeros.
-/

namespace AccessControl

/-- A length of time. -/
structure Duration where
  nanoseconds : Nat
  deriving DecidableEq, Repr

namespace Duration

/-- The duration of so many seconds. -/
def ofSeconds (seconds : Nat) : Duration := ⟨seconds * 1000000000⟩

/-- The duration of so many milliseconds. -/
def ofMilliseconds (milliseconds : Nat) : Duration := ⟨milliseconds * 1000000⟩

/-- The last `count` decimal digits of `n`, the most significant first. -/
def decimals : Nat → Nat → List Char
  | 0, _ => []
  | count + 1, n => decimals count (n / 10) ++ [Char.ofNat (48 + n % 10)]

/-- A point and the digits, without trailing zeros; nothing if all digits are zeros. -/
def fraction (digits : List Char) : String :=
  match (digits.reverse.dropWhile (· == '0')).reverse with
  | [] => ""
  | kept => "." ++ String.ofList kept

/-- `n` nanoseconds in a unit of `size` nanoseconds, a number that is one and `places` zeros. -/
def inUnit (n size places : Nat) (unit : String) : String :=
  toString (n / size) ++ fraction (decimals places (n % size)) ++ unit

/-- The written form of a duration. -/
def text (duration : Duration) : String :=
  let n := duration.nanoseconds
  if 1000000000 ≤ n then inUnit n 1000000000 9 "s"
  else if 1000000 ≤ n then inUnit n 1000000 6 "ms"
  else if 1000 ≤ n then inUnit n 1000 3 "µs"
  else inUnit n 1 0 "ns"

end Duration

end AccessControl
