/-!
# Reading from the start of a text

A reader takes something from the start of a text and leaves the rest, or refuses.  Readers are put
together with `do` and `<|>`; a second choice is read from where the first one started.  A
repetition ends where its item is refused.
-/

namespace AccessControl.Text

/-- Reads something at the start of a text and leaves what follows it. -/
abbrev Reader (α : Type) := StateT (List Char) Option α

namespace Reader

/-- The next character, if `accepts` holds of it. -/
def satisfying (accepts : Char → Bool) : Reader Char := fun
  | c :: rest => if accepts c then some (c, rest) else none
  | [] => none

/-- The given character. -/
def char (c : Char) : Reader Unit := discard (satisfying (· == c))

/-- One of the given characters. -/
def oneOf (choices : List Char) : Reader Char := satisfying choices.contains

/-- The characters of `word`, one after another. -/
def word (word : String) : Reader Unit := word.toList.forM char

/-- The longest run of characters of which `accepts` holds, which may be empty. -/
def span (accepts : Char → Bool) : Reader (List Char) := fun text => some (text.span accepts)

/-- The longest run of characters of which `accepts` holds, one of them at least. -/
def spanOne (accepts : Char → Bool) : Reader (List Char) := do
  return (← satisfying accepts) :: (← span accepts)

/-- The item, if it is there. -/
def optional {α : Type} (item : Reader α) : Reader (Option α) := some <$> item <|> pure none

/-- Items one after another, as long as there are any but at most `limit`, and the text after
them. -/
def itemsUpTo {α : Type} (item : Reader α) : Nat → List Char → List α × List Char
  | 0, text => ([], text)
  | limit + 1, text =>
    match StateT.run item text with
    | none => ([], text)
    | some (first, rest) =>
      let (items, rest) := itemsUpTo item limit rest
      (first :: items, rest)

/-- Items one after another, as long as there are any.  An item takes a character at least, so there
are no more of them than characters. -/
def many {α : Type} (item : Reader α) : Reader (List α) := fun text =>
  some (itemsUpTo item text.length text)

/-- Items with a separator between two of them, one item at least. -/
def separated {α : Type} (item : Reader α) (separator : Reader Unit) : Reader (List α) := do
  return (← item) :: (← many (separator *> item))

/-- The end of the text. -/
def atEnd : Reader Unit := fun text => if text.isEmpty then some ((), []) else none

/-- What is read if a reader takes the whole text. -/
def whole {α : Type} (reader : Reader α) (text : String) : Option α :=
  (StateT.run (reader <* atEnd) text.toList).map Prod.fst

end Reader

end AccessControl.Text
