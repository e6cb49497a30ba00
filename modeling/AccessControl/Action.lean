import AccessControl.Name

/-!
# Actions

The four things a user may do with a resource, their names, and the action a request method asks
for.
-/

namespace AccessControl

/-- What a user may do with a resource. -/
inductive Action where
  | create
  | get
  | update
  | delete
  deriving DecidableEq, Repr

namespace Action

/-- Every action, in the order in which sets of actions are listed. -/
def all : List Action := [create, get, update, delete]

/-- The name of an action. -/
def name : Action → String
  | create => "CREATE"
  | get => "GET"
  | update => "UPDATE"
  | delete => "DELETE"

/-- The action a text names, up to letter case; READ is another name of `get`. -/
def ofName (text : String) : Except UnknownName Action :=
  if Text.sameLetters "READ" text then .ok get
  else
    match findNamed? all name text with
    | some action => .ok action
    | none => .error ⟨.action, text⟩

/-- The action a request method performs on a resource, if it performs one. -/
def ofMethod? (method : String) : Option Action :=
  if Text.sameLetters "GET" method then some get
  else if Text.sameLetters "POST" method then some create
  else if Text.sameLetters "PUT" method || Text.sameLetters "PATCH" method then some update
  else if Text.sameLetters "DELETE" method then some delete
  else none

/-- The actions that a list of texts names, or the first text that names none. -/
def ofNames : List String → Except UnknownName (List Action)
  | [] => .ok []
  | text :: rest => do
    let action ← ofName text
    let actions ← ofNames rest
    return action :: actions

/-- The place of an action in a bit set. -/
def position : Action → Fin 4
  | create => 0
  | get => 1
  | update => 2
  | delete => 3

theorem mem_all (action : Action) : action ∈ all := by
  cases action <;> decide

theorem position_injective {left right : Action} (h : left.position = right.position) :
    left = right := by
  revert h
  cases left <;> cases right <;> decide

theorem exists_position : ∀ place : Fin 4, ∃ action : Action, action.position = place
  | 0 => ⟨create, rfl⟩
  | 1 => ⟨get, rfl⟩
  | 2 => ⟨update, rfl⟩
  | 3 => ⟨delete, rfl⟩

end Action

end AccessControl
