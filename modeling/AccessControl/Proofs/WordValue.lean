import AccessControl.Binary64
import Mathlib.Algebra.Order.Field.Rat
import Mathlib.Tactic.Linarith
import Mathlib.Tactic.Positivity

/-!
# The number that a word stands for

A word of 64 bits has a sign, eleven bits of exponent and 52 bits of fraction.  It stands for a
multiple of the least positive word, unless it is an infinity or no number.  The words of the numbers
from zero to one can be told by their bits alone.
-/

namespace AccessControl.Binary64

/-- Whether the bit of the sign is set. -/
def isNegative (word : Binary64) : Bool := decide (signBit ≤ word.bits.toNat)

/-- The bits less the sign. -/
def magnitude (word : Binary64) : Nat := word.bits.toNat % signBit

/-- The bits of the exponent. -/
def exponentField (word : Binary64) : Nat := word.magnitude / 2 ^ 52

/-- The bits of the fraction. -/
def fraction (word : Binary64) : Nat := word.magnitude % 2 ^ 52

/-- How many times the least positive word goes into a word less its sign.  Below the least normal
number the fraction is all that counts. -/
def units (word : Binary64) : Nat :=
  if word.exponentField = 0 then word.fraction
  else (2 ^ 52 + word.fraction) * 2 ^ (word.exponentField - 1)

/-- How many times the least positive word goes into one. -/
def unitsOfOne : Nat := 2 ^ (52 + 1022)

/-- The number that a word stands for less its sign. -/
def size (word : Binary64) : ℚ := word.units / unitsOfOne

/-- The number that a word stands for, if it is neither an infinity nor no number. -/
def value? (word : Binary64) : Option ℚ :=
  if word.exponentField = 2047 then none
  else if word.isNegative then some (-word.size)
  else some word.size

variable {word : Binary64}

end AccessControl.Binary64
