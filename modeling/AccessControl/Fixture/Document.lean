import AccessControl.FileText
import AccessControl.Fixture
import AccessControl.Toml.Decode
import AccessControl.Toml.Document

/-!
# Fixtures in files

A document lists the entries of a fixture under `users`, `grants` and `policies`.  Each entry has to
give all its fields, but a policy may leave its actions out.
-/

namespace AccessControl

open Toml (Entries Value)

/-- Why there is no fixture. -/
inductive FixtureError where
  | unreadable (fault : FileFault)
  | malformed
  deriving DecidableEq, Repr

/-- The user that a value gives. -/
def FixtureUser.ofValue? (value : Value) : Option FixtureUser := do
  let field ← value.fields? ["id", "role"]
  return {
    id := ← (← field "id").text?
    role := ← (← field "role").text? }

/-- The grant that a value gives. -/
def FixtureGrant.ofValue? (value : Value) : Option FixtureGrant := do
  let field ← value.fields? ["user", "resource", "type", "actions"]
  return {
    user := ← (← field "user").text?
    resource := ← (← field "resource").text?
    resourceType := ← (← field "type").text?
    actions := ← (← field "actions").listOf? Value.text? }

/-- The policy that a value gives. -/
def FixturePolicy.ofValue? (value : Value) : Option FixturePolicy := do
  let field ← value.fields? ["role", "type", "actions"]
  return {
    role := ← (← field "role").text?
    resourceType := ← (← field "type").text?
    actions := (← (field "actions").mapM (Value.listOf? Value.text?)).getD [] }

namespace Fixture

/-- The fixture that a document gives. -/
def ofEntries? (entries : Entries) : Option Fixture := do
  return {
    users := (← (entries.lookup "users").mapM (Value.listOf? FixtureUser.ofValue?)).getD []
    grants := (← (entries.lookup "grants").mapM (Value.listOf? FixtureGrant.ofValue?)).getD []
    policies :=
      (← (entries.lookup "policies").mapM (Value.listOf? FixturePolicy.ofValue?)).getD [] }

/-- The fixture of a file. -/
def load : FileText → Except FixtureError Fixture
  | .error fault => .error (.unreadable fault)
  | .ok text =>
    match Toml.read text >>= ofEntries? with
    | some fixture => .ok fixture
    | none => .error .malformed

end Fixture

end AccessControl
