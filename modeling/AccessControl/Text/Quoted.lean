import AccessControl.Text.Unprintable

/-!
# Quoted text

The form in which a message shows a text it was given: between double quotes, with quotes,
backslashes and the four common controls escaped by a letter, and every other character that cannot
be shown as itself escaped by its code point.
-/

namespace AccessControl.Text

/-- One character of a quoted text. -/
def escaped (c : Char) : List Char :=
  if c = '\"' then ['\\', '\"']
  else if c = '\\' then ['\\', '\\']
  else if c = '\n' then ['\\', 'n']
  else if c = '\r' then ['\\', 'r']
  else if c = '\t' then ['\\', 't']
  else if c = '\x00' then ['\\', '0']
  else if isUnprintable c then
    ['\\', 'u', '\x7b'] ++ Nat.toDigits 16 c.toNat ++ ['\x7d']
  else [c]

/-- The text between double quotes, each character escaped where it has to be. -/
def quoted (text : String) : String :=
  String.ofList ('\"' :: text.toList.flatMap escaped ++ ['\"'])

end AccessControl.Text
