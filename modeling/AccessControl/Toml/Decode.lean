import AccessControl.Toml.Value

/-!
# Reading values as parts of a program

A record is written as a table with a name for each of its fields, in which other names are of no
account, or as a list that gives the fields in their order and may end early or go on.
-/

namespace AccessControl.Toml.Value

/-- A text. -/
def text? : Value → Option String
  | .text value => some value
  | _ => none

/-- A truth value. -/
def flag? : Value → Option Bool
  | .flag value => some value
  | _ => none

/-- A number from zero to `greatest`. -/
def natural? (greatest : Nat) : Value → Option Nat
  | .integer n => if 0 ≤ n ∧ n.toNat ≤ greatest then some n.toNat else none
  | _ => none

/-- A number as a float; an integer may stand for one. -/
def float? : Value → Option Binary64
  | .float value => some value
  | .integer n => some (Binary64.ofInt n)
  | _ => none

/-- The items of a list, which the tables of one name are too. -/
def items? : Value → Option (List Value)
  | .list items => some items
  | .tables earlier latest => some (earlier ++ [.table .declared latest])
  | _ => none

/-- The items of a list, each of them read. -/
def listOf? {α : Type} (item : Value → Option α) (value : Value) : Option (List α) := do
  (← value.items?).mapM item

/-- The fields of a record whose fields have the given names, by name.  A moment is a record that
gives no field. -/
def fields? (names : List String) : Value → Option (String → Option Value)
  | .table _ entries => some fun name => entries.lookup name
  | .moment => some fun _ => none
  | value => do
    let items ← value.items?
    return fun name => (names.zip items).lookup name

/-- A choice by its name: the name itself, or a table that gives the name nothing. -/
def choice? : Value → Option String
  | .text name => some name
  | .table _ [(name, .table _ [])] => some name
  | .table _ [(name, .list [])] => some name
  | _ => none

end AccessControl.Toml.Value
