import AccessControl.Name

/-!
# Resource types

The kinds of resource that rules and policies speak about, and their names.
-/

namespace AccessControl

/-- The kind of a resource. -/
inductive ResourceType where
  | dashboard
  | subject
  | page
  | user
  deriving DecidableEq, Repr

namespace ResourceType

/-- Every resource type, in declaration order. -/
def all : List ResourceType := [dashboard, subject, page, user]

/-- The name of a resource type. -/
def name : ResourceType → String
  | dashboard => "DASHBOARD"
  | subject => "SUBJECT"
  | page => "PAGE"
  | user => "USER"

/-- The resource type a text names, up to letter case. -/
def ofName (text : String) : Except UnknownName ResourceType :=
  match findNamed? all name text with
  | some resourceType => .ok resourceType
  | none => .error ⟨.resourceType, text⟩

theorem mem_all (resourceType : ResourceType) : resourceType ∈ all := by
  cases resourceType <;> decide

end ResourceType

end AccessControl
