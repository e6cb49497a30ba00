import AccessControl.Binary64
import AccessControl.Text.Letter
import AccessControl.Text.Reader

/-!
# Numbers written as plain text

A natural number is written in decimal digits, a float also with a point, an exponent, or as an
infinity or no number; either may have a sign.  There are no blanks and no underscores.
-/

namespace AccessControl.Text

/-- Whether a character is a decimal digit. -/
def isDecimalDigit (c : Char) : Bool := isDigitIn 10 c

/-- The number of at most `greatest` that a text writes in digits, with or without a plus sign. -/
def naturalUpTo? (greatest : Nat) (text : String) : Option Nat := do
  let digits ← Reader.whole
    (Reader.optional (Reader.char '+') *> Reader.spanOne isDecimalDigit) text
  let n := numberIn 10 digits
  if n ≤ greatest then some n else none

/-- A sign, if there is one: whether the number is negative. -/
def sign : Reader Bool := do
  return (← Reader.optional (Reader.oneOf ['+', '-'])) = some '-'

/-- The integer of a sign and decimal digits. -/
def signedInteger (negative : Bool) (digits : List Char) : Int :=
  let magnitude : Int := numberIn 10 digits
  if negative then -magnitude else magnitude

/-- The exponent of a float, whose digits are read by `digits`. -/
def floatExponent (digits : Reader (List Char)) : Reader Int := do
  let _ ← Reader.oneOf ['e', 'E']
  return signedInteger (← sign) (← digits)

/-- A float in digits; there is one before or after the point. -/
def floatDigits (negative : Bool) : Reader Binary64 := do
  let whole ← Reader.span isDecimalDigit
  let places ← Reader.optional (Reader.char '.' *> Reader.span isDecimalDigit)
  let digits := whole ++ places.getD []
  guard (¬ digits.isEmpty)
  let exponent ← Reader.optional (floatExponent (Reader.spanOne isDecimalDigit))
  return Binary64.ofDecimal negative (numberIn 10 digits)
    (exponent.getD 0 - (places.getD []).length)

/-- An infinity, or no number, in either letter case. -/
def floatName (negative : Bool) : Reader Binary64 := do
  let name := String.ofList (← Reader.span fun _ => true)
  if sameLetters name "inf" || sameLetters name "infinity" then
    return Binary64.infinity negative
  guard (sameLetters name "nan")
  return Binary64.notANumber negative

/-- The float that a text writes. -/
def float? (text : String) : Option Binary64 :=
  Reader.whole (do
    let negative ← sign
    floatDigits negative <|> floatName negative) text

/-- The truth value that a text names. -/
def flag? (text : String) : Option Bool :=
  if text = "true" then some true
  else if text = "false" then some false
  else none

end AccessControl.Text
