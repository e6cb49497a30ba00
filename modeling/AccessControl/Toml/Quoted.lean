import AccessControl.Text.Reader
import AccessControl.Text.Digit

/-!
# Quoted texts of TOML

A text stands between double quotes, with escapes, or between single quotes, without; either kind
may span lines if its quotes are threefold.  A threefold text leaves out a line break right after
its first quotes, and may hold up to two of its quotes in a row, also right before the last ones.
-/

namespace AccessControl.Toml

open Text (Reader)

/-- Whether a character may stand in a comment or a text: a tab, or no control of ASCII. -/
def isPrinted (c : Char) : Bool := c = '\t' || (0x20 ≤ c.toNat && c.toNat ≠ 0x7f)

/-- A line break. -/
def lineBreak : Reader Unit :=
  Reader.char '\n' <|> (Reader.char '\r' *> Reader.char '\n')

/-- Spaces and tabs. -/
def blanks : Reader Unit := discard (Reader.span fun c => c = ' ' || c = '\t')

/-- A character by so many hexadecimal digits of its code point. -/
def codePoint (count : Nat) : Reader Char := do
  let digits ← (List.range count).mapM fun _ => Reader.satisfying (Text.isDigitIn 16)
  let n := Text.numberIn 16 digits
  guard n.isValidChar
  return Char.ofNat n

/-- An escaped character. -/
def escape : Reader Char := do
  Reader.char '\\'
  match ← Reader.oneOf ['b', 't', 'n', 'f', 'r', '\"', '\\', 'u', 'U'] with
  | 'b' => return '\x08'
  | 't' => return '\t'
  | 'n' => return '\n'
  | 'f' => return '\x0c'
  | 'r' => return '\r'
  | 'u' => codePoint 4
  | 'U' => codePoint 8
  | c => return c

/-- A character that stands for itself between the given quotes. -/
def plain (quote : Char) (escapes : Bool) : Reader Char :=
  Reader.satisfying fun c => isPrinted c && c ≠ quote && !(escapes && c = '\\')

/-- A character of a text on one line. -/
def character (quote : Char) (escapes : Bool) : Reader Char :=
  plain quote escapes <|> (if escapes then escape else failure)

/-- A text on one line. -/
def lineText (quote : Char) (escapes : Bool) : Reader String := do
  Reader.char quote
  let content ← Reader.many (character quote escapes)
  Reader.char quote
  return String.ofList content

/-- A backslash at the end of a line, which joins it to the next text that is no blank. -/
def continuation : Reader Unit := do
  Reader.char '\\'
  blanks
  lineBreak
  discard (Reader.many (lineBreak <|> discard (Reader.oneOf [' ', '\t'])))

/-- A piece of a text that spans lines. -/
def piece (quote : Char) (escapes : Bool) : Reader (List Char) :=
  (if escapes then continuation *> pure [] else failure) <|>
  (do return [← character quote escapes]) <|>
  (lineBreak *> pure ['\n']) <|>
  (do
    let quotes ← Reader.spanOne (· = quote)
    guard (quotes.length ≤ 2)
    return quotes)

/-- A text that may span lines. -/
def blockText (quote : Char) (escapes : Bool) : Reader String := do
  Reader.char quote
  Reader.char quote
  Reader.char quote
  discard (Reader.optional lineBreak)
  let content ← Reader.many (piece quote escapes)
  let quotes ← Reader.spanOne (· = quote)
  guard (3 ≤ quotes.length ∧ quotes.length ≤ 5)
  return String.ofList (content.flatten ++ quotes.drop 3)

/-- A quoted text on one line, as a key may be. -/
def quotedKey : Reader String := lineText '\"' true <|> lineText '\'' false

/-- A quoted text. -/
def quotedText : Reader String :=
  blockText '\"' true <|> blockText '\'' false <|> quotedKey

end AccessControl.Toml
