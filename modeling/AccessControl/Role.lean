import AccessControl.Name

/-!
# Roles

A user holds at most one role.  A role is also written with a label in front that marks it as a
role; reading accepts both forms.
-/

namespace AccessControl

/-- What a user is in the organisation. -/
inductive Role where
  | admin
  | analyst
  | user
  deriving DecidableEq, Repr

namespace Role

/-- Every role, in declaration order. -/
def all : List Role := [admin, analyst, user]

/-- The name of a role. -/
def name : Role → String
  | admin => "ADMIN"
  | analyst => "ANALYST"
  | user => "USER"

/-- Whether holders of the role pass every check without a rule or a policy. -/
def isAdministrative : Role → Bool
  | admin => true
  | _ => false

/-- What stands before the name in a role's label. -/
def labelMark : String := "ROLE:"

/-- The label under which a role is recorded for a user. -/
def label (role : Role) : String := labelMark ++ role.name

/-- A text less one leading label mark, if it starts with one. -/
def withoutLabelMark (text : String) : String :=
  if labelMark.toList.isPrefixOf text.toList then
    String.ofList (text.toList.drop labelMark.toList.length)
  else text

/-- The role a text names, up to letter case, with or without the label mark. -/
def ofName (text : String) : Except UnknownName Role :=
  match findNamed? all name (withoutLabelMark text) with
  | some role => .ok role
  | none => .error ⟨.role, text⟩

theorem mem_all (role : Role) : role ∈ all := by
  cases role <;> decide

end Role

end AccessControl
