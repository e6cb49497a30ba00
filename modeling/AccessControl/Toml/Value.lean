import AccessControl.Binary64

/-!
# TOML values

A table remembers how it came to be, and a list whether it was written as a row of `[[name]]`
tables, because that decides what a later line may still add to it.
-/

namespace AccessControl.Toml

/-- How a table came to be. -/
inductive Standing where
  /-- By a header of its own, or as the whole document. -/
  | declared
  /-- As a step on the way to a header further down. -/
  | implied
  /-- As a step of a dotted key. -/
  | dotted
  /-- By a value between braces, which is complete. -/
  | inline
  deriving DecidableEq, Repr

/-- A value of a document. -/
inductive Value where
  | text (value : String)
  | integer (value : Int)
  | float (value : Binary64)
  | flag (value : Bool)
  /-- A date, a time, or both; which one does not matter here. -/
  | moment
  | list (items : List Value)
  | table (standing : Standing) (entries : List (String × Value))
  /-- The tables of one `[[name]]`, the latest one by its entries. -/
  | tables (earlier : List Value) (latest : List (String × Value))
  deriving Inhabited

/-- The entries of a table, in the order of the document. -/
abbrev Entries := List (String × Value)

namespace Entries

/-- Gives the first entry of a name another value. -/
def replace (entries : Entries) (name : String) (value : Value) : Entries :=
  match entries with
  | [] => []
  | entry :: rest =>
    if entry.1 = name then (name, value) :: rest else entry :: replace rest name value

/-- Changes the table at the end of a path by `change`, which also sees how that table came to be.
A missing table on the way is made; a complete one, and a value that is no table, bars the way.  A
dotted key does not lead into a table that has a header. -/
def changeAt (dotted : Bool) (change : Standing → Entries → Option Entries) :
    List String → Standing → Entries → Option Entries
  | [], standing, entries => change standing entries
  | name :: path, _, entries =>
    match entries.lookup name with
    | none => do
      let standing := if dotted then .dotted else .implied
      return entries ++ [(name, .table standing (← changeAt dotted change path standing []))]
    | some (.table standing inner) =>
      if standing = .inline ∨ (dotted ∧ standing = .declared) then none
      else do
        return entries.replace name (.table standing (← changeAt dotted change path standing inner))
    | some (.tables earlier latest) => do
      return entries.replace name
        (.tables earlier (← changeAt dotted change path .declared latest))
    | some _ => none

/-- Adds an entry under a dotted key.  Only a table that dotted keys made takes entries from
outside, and a name is given one value. -/
def assign (entries : Entries) (path : List String) (name : String) (value : Value) :
    Option Entries :=
  changeAt true (fun standing inner =>
    if (path.isEmpty || standing = .dotted) && (inner.lookup name).isNone then
      some (inner ++ [(name, value)])
    else none) path .declared entries

/-- Declares the table of a header; it may already have been implied by a longer header. -/
def declareTable (entries : Entries) (path : List String) (name : String) : Option Entries :=
  changeAt false (fun _ inner =>
    match inner.lookup name with
    | none => some (inner ++ [(name, .table .declared [])])
    | some (.table .implied kept) => some (inner.replace name (.table .declared kept))
    | some _ => none) path .declared entries

/-- Starts the next table of a `[[name]]` header. -/
def declareNext (entries : Entries) (path : List String) (name : String) : Option Entries :=
  changeAt false (fun _ inner =>
    match inner.lookup name with
    | none => some (inner ++ [(name, .tables [] [])])
    | some (.tables earlier latest) =>
      some (inner.replace name (.tables (earlier ++ [.table .declared latest]) []))
    | some _ => none) path .declared entries

end Entries

end AccessControl.Toml
