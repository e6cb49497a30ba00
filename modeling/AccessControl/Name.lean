import AccessControl.Text.Letter
import AccessControl.Text.Quoted

/-!
# Names of actions, roles and resource types

A name is looked up in a short list of values, up to the case of its letters.  A text that names
nothing is reported together with what was expected in its place.
-/

namespace AccessControl

/-- What a name was expected to stand for. -/
inductive NameKind where
  | resourceType
  | action
  | role
  deriving DecidableEq, Repr

/-- The words a message uses for what was expected. -/
def NameKind.label : NameKind → String
  | .resourceType => "resource type"
  | .action => "action"
  | .role => "role"

/-- A text that names nothing of the expected kind. -/
structure UnknownName where
  kind : NameKind
  text : String
  deriving DecidableEq, Repr

/-- What is said about a text that names nothing. -/
def UnknownName.message (error : UnknownName) : String :=
  "invalid " ++ error.kind.label ++ " " ++ Text.quoted error.text

/-- The first value of `values` whose name is `text` up to letter case. -/
def findNamed? {α : Type} (values : List α) (name : α → String) (text : String) : Option α :=
  values.find? fun value => Text.sameLetters (name value) text

end AccessControl
