import AccessControl.Text.Number
import AccessControl.Toml.Value

/-!
# Numbers, dates and times of TOML

An integer has a sign and decimal digits without leading zeros, or digits of base 16, 8 or 2 behind
a mark, and fits 64 bits.  A float has a fraction, an exponent or both, or is an infinity or no
number.  An underscore may stand between two digits.
-/

namespace AccessControl.Toml

open Text (Reader)

/-- The digits of a base after a first one, an underscore before any of them. -/
def laterDigits (base : Nat) : Reader (List Char) :=
  Reader.many do
    discard (Reader.optional (Reader.char '_'))
    Reader.satisfying (Text.isDigitIn base)

/-- Digits of a base, with underscores between them. -/
def digits (base : Nat) : Reader (List Char) := do
  return (← Reader.satisfying (Text.isDigitIn base)) :: (← laterDigits base)

/-- Decimal digits that start with a zero only if that is all. -/
def wholeDigits : Reader (List Char) := do
  let first ← Reader.satisfying (Text.isDigitIn 10)
  if first = '0' then return [first] else return first :: (← laterDigits 10)

/-- A number behind the mark of its base. -/
def marked (mark : String) (base : Nat) : Reader Int := do
  Reader.word mark
  return Text.numberIn base (← digits base)

/-- The least integer of 64 bits. -/
def leastInteger : Int := -9223372036854775808

/-- The greatest integer of 64 bits. -/
def greatestInteger : Int := 9223372036854775807

/-- An integer of 64 bits. -/
def integer : Reader Int := do
  let n ← marked "0x" 16 <|> marked "0o" 8 <|> marked "0b" 2 <|>
    do return Text.signedInteger (← Text.sign) (← wholeDigits)
  guard (leastInteger ≤ n ∧ n ≤ greatestInteger)
  return n

/-- A float in digits.  One that is too large for a word is refused, if it is positive. -/
def decimalFloat : Reader Binary64 := do
  let negative ← Text.sign
  let whole ← wholeDigits
  let fraction ← Reader.optional (Reader.char '.' *> digits 10)
  let exponent ← Reader.optional (Text.floatExponent (digits 10))
  guard (fraction.isSome ∨ exponent.isSome)
  let places := fraction.getD []
  let value := Binary64.ofDecimal negative (Text.numberIn 10 (whole ++ places))
    (exponent.getD 0 - places.length)
  guard (value ≠ Binary64.infinity false)
  return value

/-- An infinity, or no number. -/
def specialFloat : Reader Binary64 := do
  let negative ← Text.sign
  (Reader.word "inf" *> pure (Binary64.infinity negative)) <|>
    (Reader.word "nan" *> pure (Binary64.notANumber negative))

/-- So many decimal digits, as a number between two bounds. -/
def digitField (count least greatest : Nat) : Reader Nat := do
  let digits ← (List.range count).mapM fun _ => Reader.satisfying (Text.isDigitIn 10)
  let n := Text.numberIn 10 digits
  guard (least ≤ n ∧ n ≤ greatest)
  return n

/-- The number of days in a month. -/
def daysOfMonth (year month : Nat) : Nat :=
  if month = 2 then
    if year % 4 = 0 ∧ (year % 100 ≠ 0 ∨ year % 400 = 0) then 29 else 28
  else if month = 4 ∨ month = 6 ∨ month = 9 ∨ month = 11 then 30
  else 31

/-- A day of the calendar. -/
def date : Reader Unit := do
  let year ← digitField 4 0 9999
  Reader.char '-'
  let month ← digitField 2 1 12
  Reader.char '-'
  discard (digitField 2 1 (daysOfMonth year month))

/-- Hours and minutes. -/
def hoursAndMinutes : Reader Unit := do
  discard (digitField 2 0 23)
  Reader.char ':'
  discard (digitField 2 0 59)

/-- A time of the day, to any fraction of a second; a minute may have a leap second. -/
def time : Reader Unit := do
  hoursAndMinutes
  Reader.char ':'
  discard (digitField 2 0 60)
  discard (Reader.optional (Reader.char '.' *> Reader.spanOne (Text.isDigitIn 10)))

/-- The distance from universal time. -/
def offset : Reader Unit :=
  discard (Reader.oneOf ['Z', 'z']) <|> (Reader.oneOf ['+', '-'] *> hoursAndMinutes)

/-- A date, a date and a time, or a time. -/
def moment : Reader Unit :=
  (do
    date
    discard (Reader.optional
      (Reader.oneOf ['T', 't', ' '] *> time *> Reader.optional offset))) <|>
  time

end AccessControl.Toml
