import AccessControl.Toml.Number
import AccessControl.Toml.Quoted

/-!
# TOML documents

A document is a row of statements, one a line: an entry, the header of a table, or the header of
the next table of a list.  The statements build up one table.
-/

namespace AccessControl.Toml

open Text (Reader)

/-- The deepest nesting of values, and the greatest number of steps in a key. -/
def greatestDepth : Nat := 79

/-! ## Keys and values -/

/-- One step of a key. -/
def keyStep : Reader String :=
  quotedKey <|> do
    return String.ofList (← Reader.spanOne fun c => c.isAlphanum || c = '_' || c = '-')

/-- A dotted key: the steps before the last one, and the last one. -/
def key : Reader (List String × String) := do
  let steps ← Reader.separated (blanks *> keyStep <* blanks) (Reader.char '.')
  guard (steps.length ≤ greatestDepth)
  let last ← steps.getLast?
  return (steps.dropLast, last)

/-- A comment, up to the end of its line. -/
def comment : Reader Unit := Reader.char '#' *> discard (Reader.span isPrinted)

/-- What may stand between the items of a list. -/
def listGap : Reader Unit :=
  discard (Reader.many
    (discard (Reader.oneOf [' ', '\t']) <|> lineBreak <|> (comment *> lineBreak)))

/-- A value without parts. -/
def scalar : Reader Value :=
  (.text <$> quotedText) <|>
  (Reader.word "true" *> pure (.flag true)) <|>
  (Reader.word "false" *> pure (.flag false)) <|>
  (moment *> pure .moment) <|>
  (.float <$> decimalFloat) <|>
  (.integer <$> integer) <|>
  (.float <$> specialFloat)

/-- A list between brackets, with or without a comma after its last item. -/
def bracketed (item : Reader Value) : Reader Value := do
  Reader.char '['
  let items ← Reader.optional
    (Reader.separated (listGap *> item <* listGap) (Reader.char ',') <*
      Reader.optional (Reader.char ','))
  listGap
  Reader.char ']'
  return .list (items.getD [])

/-- An entry of a table. -/
def entry (item : Reader Value) : Reader (List String × String × Value) := do
  let (path, name) ← key
  Reader.char '='
  blanks
  return (path, name, ← item)

/-- A table between braces, on one line. -/
def braced (item : Reader Value) : Reader Value := do
  Reader.char '\x7b'
  let assignments ← Reader.optional (Reader.separated (entry item <* blanks) (Reader.char ','))
  blanks
  Reader.char '\x7d'
  let entries ← (assignments.getD []).foldlM (fun (entries : Entries) (path, name, value) =>
    entries.assign path name value) []
  return .table .inline entries

/-- A value that is nested no deeper than `depth`. -/
def value : Nat → Reader Value
  | 0 => scalar
  | depth + 1 => scalar <|> bracketed (value depth) <|> braced (value depth)

/-! ## Statements -/

/-- What one line of a document says. -/
inductive Statement where
  | entry (path : List String) (name : String) (value : Value)
  | table (path : List String) (name : String)
  | next (path : List String) (name : String)

/-- A header or an entry. -/
def statement : Reader Statement :=
  (do
    Reader.word "[["
    let (path, name) ← key
    Reader.word "]]"
    return .next path name) <|>
  (do
    Reader.char '['
    let (path, name) ← key
    Reader.char ']'
    return .table path name) <|>
  (do
    let (path, name, value) ← entry (value greatestDepth)
    return .entry path name value)

/-- The end of a line, or of the document. -/
def lineEnd : Reader Unit := lineBreak <|> Reader.atEnd

/-- A line that says something, a comment, or a line break. -/
def line : Reader (Option Statement) :=
  (lineBreak *> pure none) <|>
  (comment *> lineEnd *> pure none) <|>
  (some <$> statement <* blanks <* Reader.optional comment <* lineEnd)

/-- The statements of a document, which may start with a byte order mark. -/
def statements : Reader (List Statement) := do
  discard (Reader.optional (Reader.char '\ufeff'))
  blanks
  return (← Reader.many (line <* blanks)).filterMap id

/-! ## Documents -/

/-- A document that is being built up, and the path of the table that its entries go to. -/
structure Draft where
  root : Entries := []
  header : List String := []

/-- Adds what a statement says. -/
def Draft.add (draft : Draft) : Statement → Option Draft
  | .entry path name value => do
    let root ← draft.root.changeAt false (fun _ entries => entries.assign path name value)
      draft.header .declared
    return { draft with root }
  | .table path name => do
    return { root := ← draft.root.declareTable path name, header := path ++ [name] }
  | .next path name => do
    return { root := ← draft.root.declareNext path name, header := path ++ [name] }

/-- The entries of the table that a text says, if it is a document. -/
def read (text : String) : Option Entries := do
  let draft ← (← statements.whole text).foldlM Draft.add {}
  return draft.root

end AccessControl.Toml
