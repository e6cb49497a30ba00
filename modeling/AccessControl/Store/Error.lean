/-!
# What a rule store answers when it does not do what it was asked
-/

namespace AccessControl

/-- Why a rule store did not do what it was asked. -/
inductive StorageError where
  /-- The rule is there already. -/
  | duplicateEntry
  /-- The decision is no. -/
  | accessDenied
  /-- Something the request speaks of is not there. -/
  | notFound (what : String)
  /-- The store itself failed, so it is not known what was done. -/
  | internal (reason : String)
  deriving DecidableEq, Repr

namespace StorageError

/-- What is said about an error of a rule store. -/
def message : StorageError → String
  | duplicateEntry => "acl entry already exists"
  | accessDenied => "access denied"
  | notFound what => "not found: " ++ what
  | internal reason => "internal storage error: " ++ reason

/-- Whether the store itself failed, as opposed to a decision or a condition of the data. -/
def isInternal : StorageError → Bool
  | internal _ => true
  | _ => false

end StorageError

end AccessControl
