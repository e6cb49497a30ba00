import AccessControl.Text.Digit

/-!
# Binary floating-point words

A word of 64 bits holds a sign, an exponent and a fraction.  A decimal number is stored as the word
whose value is nearest to it, of two nearest ones the one with the even fraction; the comparison is
made with exact integers.  Positive words are ordered as the numbers they stand for.
-/

namespace AccessControl

/-- A double-precision word by its bits. -/
structure Binary64 where
  bits : UInt64
  deriving DecidableEq, Repr

namespace Binary64

/-- The bits of the positive infinity, which come after those of every finite positive word. -/
def infinityBits : Nat := 2047 <<< 52

/-- The bits of the number one. -/
def oneBits : Nat := 1023 <<< 52

/-- The bit of the sign. -/
def signBit : Nat := 1 <<< 63

/-- A word from its sign and its other bits. -/
def ofMagnitude (negative : Bool) (magnitude : Nat) : Binary64 :=
  ⟨UInt64.ofNat (if negative then signBit + magnitude else magnitude)⟩

/-- The infinity of a sign. -/
def infinity (negative : Bool) : Binary64 := ofMagnitude negative infinityBits

/-- A word that stands for no number. -/
def notANumber (negative : Bool) : Binary64 := ofMagnitude negative (infinityBits + 1 <<< 51)

/-- `numerator / denominator` rounded to the nearest integer, a half to the even neighbour. -/
def roundDiv (numerator denominator : Nat) : Nat :=
  let quotient := numerator / denominator
  let twice := 2 * (numerator % denominator)
  if twice < denominator then quotient
  else if denominator < twice then quotient + 1
  else quotient + quotient % 2

/-- `numerator / denominator` in units of two to the power `exponent`, rounded. -/
def inUnits (numerator denominator : Nat) (exponent : Int) : Nat :=
  roundDiv (numerator <<< (-exponent).toNat) (denominator <<< exponent.toNat)

/-- The greatest exponent of two whose power is at most `numerator / denominator`; both numbers are
positive. -/
def binaryExponent (numerator denominator : Nat) : Int :=
  let estimate : Int := numerator.log2 - denominator.log2
  if denominator <<< estimate.toNat ≤ numerator <<< (-estimate).toNat then estimate
  else estimate - 1

/-- The bits, less the sign, of the word nearest to `numerator / denominator`; both numbers are
positive.  The fraction has 53 bits, or fewer below the least normal number; one that rounds up to
54 bits carries into the exponent by the sum. -/
def nearestBits (numerator denominator : Nat) : Nat :=
  let unit := max (-1074) (binaryExponent numerator denominator - 52)
  min infinityBits ((unit + 1074).toNat <<< 52 + inUnits numerator denominator unit)

/-- Ten to a power. -/
def tenTo (exponent : Nat) : Nat := Nat.pow 10 exponent

/-- The word nearest to `coefficient` times ten to the power `exponent`, with the given sign.  A
number of more than 400 places before the point is beyond every finite word, and one that starts
more than 400 places after it is below half of every positive word. -/
def ofDecimal (negative : Bool) (coefficient : Nat) (exponent : Int) : Binary64 :=
  let places : Int := (Nat.toDigits 10 coefficient).length + exponent
  if coefficient = 0 ∨ places < -400 then ofMagnitude negative 0
  else if 400 < places then infinity negative
  else ofMagnitude negative
    (nearestBits (coefficient * tenTo exponent.toNat) (tenTo (-exponent).toNat))

/-- The word nearest to an integer. -/
def ofInt (n : Int) : Binary64 := ofDecimal (decide (n < 0)) n.natAbs 0

/-- Whether a word stands for a number from zero to one; the negative zero does. -/
def isProportion (word : Binary64) : Bool :=
  decide (word.bits.toNat ≤ oneBits) || decide (word.bits.toNat = signBit)

/-- The sixteen hexadecimal digits of a word. -/
def hexText (word : Binary64) : String :=
  String.ofList ((Text.hexDigits 16 word.bits.toNat).map Text.hexChar)

end Binary64

end AccessControl
