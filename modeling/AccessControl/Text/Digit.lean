/-!
# Digits

The values of digits in the bases up to sixteen, and the numbers that runs of digits stand for.
-/

namespace AccessControl.Text

/-- The value of a hexadecimal digit in either case. -/
def hexValue? (c : Char) : Option Nat :=
  let n := c.toNat
  if 48 ≤ n ∧ n ≤ 57 then some (n - 48)
  else if 97 ≤ n ∧ n ≤ 102 then some (n - 87)
  else if 65 ≤ n ∧ n ≤ 70 then some (n - 55)
  else none

/-- Whether `c` is a digit in the given base, which is at most sixteen. -/
def isDigitIn (base : Nat) (c : Char) : Bool := (hexValue? c).any (· < base)

/-- The number that a list of digits stands for in the given base. -/
def ofDigits (base : Nat) (digits : List Nat) : Nat :=
  digits.foldl (fun n digit => n * base + digit) 0

/-- The number that a run of digits stands for in the given base. -/
def numberIn (base : Nat) (digits : List Char) : Nat := ofDigits base (digits.filterMap hexValue?)

/-- The character of a hexadecimal digit, in lower case. -/
def hexChar (digit : Nat) : Char :=
  if digit < 10 then Char.ofNat (48 + digit) else Char.ofNat (87 + digit)

/-- The last `count` hexadecimal digits of `n`, the most significant first. -/
def hexDigits : Nat → Nat → List Nat
  | 0, _ => []
  | count + 1, n => hexDigits count (n / 16) ++ [n % 16]

end AccessControl.Text
