import AccessControl.Rule

/-!
# Statements

The statements that the relational store sends, each with its text and the values bound to its
parameters.
-/

namespace AccessControl

/-- A value bound to a parameter of a statement. -/
inductive Parameter where
  | identifier (id : Identifier)
  | text (value : String)
  | texts (values : List String)
  deriving DecidableEq, Repr

/-- A part of the schema that the store keeps its data in. -/
inductive SchemaPart where
  | roles
  | resourceTypes
  | users
  | rules
  | rolePolicies
  | rulesByResource
  deriving DecidableEq, Repr

/-- A statement of the relational store. -/
inductive Statement where
  | insertRule (user : UserId) (grant : Grant)
  /-- Keeps the rule of a user for a resource from being changed by others. -/
  | lockRule (user : UserId) (resource : ResourceId)
  | updateRule (user : UserId) (grant : Grant)
  | deleteRule (user : UserId) (resource : ResourceId)
  | ruleAllows (check : InstanceCheck)
  | roleAllows (check : TypeCheck)
  | allRules
  | allUserRoles
  | updateUserRole (user : UserId) (role : Role)
  | insertUser (user : UserId) (role : Role)
  | upsertRolePolicy (role : Role) (resourceType : ResourceType) (actions : ActionSet)
  /-- Makes the transaction read one state of the database only. -/
  | readOneState
  | define (part : SchemaPart)
  | seedRoles
  | seedResourceTypes
  deriving DecidableEq, Repr

/-- What of its result a statement is sent for. -/
inductive Extent where
  /-- How many rows it has changed. -/
  | count
  /-- A row, if there is one. -/
  | row
  /-- All of its rows. -/
  | rows
  deriving DecidableEq, Repr

namespace SchemaPart

/-- The parts of the schema in the order in which they can be defined. -/
def all : List SchemaPart := [roles, resourceTypes, users, rules, rolePolicies, rulesByResource]

/-- The text that defines a part, unless it is there already. -/
def definition : SchemaPart → String
  | roles =>
    "CREATE TABLE IF NOT EXISTS role ( role_id SMALLSERIAL PRIMARY KEY, " ++
      "name TEXT NOT NULL UNIQUE )"
  | resourceTypes =>
    "CREATE TABLE IF NOT EXISTS resource_type ( resource_type_id SMALLSERIAL PRIMARY KEY, " ++
      "name TEXT NOT NULL UNIQUE )"
  | users =>
    "CREATE TABLE IF NOT EXISTS users ( user_id UUID PRIMARY KEY, " ++
      "role_id SMALLINT NOT NULL REFERENCES role(role_id), " ++
      "created_at TIMESTAMPTZ NOT NULL DEFAULT now(), " ++
      "updated_at TIMESTAMPTZ NOT NULL DEFAULT now() )"
  | rules =>
    "CREATE TABLE IF NOT EXISTS acl ( " ++
      "user_id UUID NOT NULL REFERENCES users(user_id) ON DELETE CASCADE, " ++
      "resource_id UUID NOT NULL, " ++
      "resource_type_id SMALLINT NOT NULL REFERENCES resource_type(resource_type_id), " ++
      "actions TEXT[] NOT NULL CHECK (cardinality(actions) > 0), " ++
      "PRIMARY KEY (user_id, resource_id) )"
  | rolePolicies =>
    "CREATE TABLE IF NOT EXISTS role_policy ( " ++
      "role_id SMALLINT NOT NULL REFERENCES role(role_id), " ++
      "resource_type_id SMALLINT NOT NULL REFERENCES resource_type(resource_type_id), " ++
      "actions TEXT[] NOT NULL, PRIMARY KEY (role_id, resource_type_id) )"
  | rulesByResource => "CREATE INDEX IF NOT EXISTS idx_acl_resource ON acl (resource_id)"

end SchemaPart

namespace Statement

/-- The names of the roles whose holders pass every check. -/
def administrativeRoles : List String :=
  (Role.all.filter Role.isAdministrative).map Role.name

/-- The text of a statement. -/
def text : Statement → String
  | insertRule .. =>
    "INSERT INTO acl (user_id, resource_id, resource_type_id, actions) VALUES ( $1, $2, " ++
      "(SELECT resource_type_id FROM resource_type WHERE name = $3), $4 )"
  | lockRule .. =>
    "SELECT resource_id FROM acl WHERE user_id = $1 AND resource_id = $2 FOR UPDATE"
  | updateRule .. =>
    "UPDATE acl SET actions = $4 WHERE user_id = $1 AND resource_id = $2 AND " ++
      "resource_type_id = (SELECT resource_type_id FROM resource_type WHERE name = $3)"
  | deleteRule .. => "DELETE FROM acl WHERE user_id = $1 AND resource_id = $2"
  | ruleAllows _ =>
    "SELECT EXISTS ( SELECT 1 FROM acl AS a JOIN resource_type AS rt " ++
      "ON rt.resource_type_id = a.resource_type_id WHERE a.user_id = $1 AND " ++
      "a.resource_id = $2 AND rt.name = $3 AND $4 = ANY(a.actions) )"
  | roleAllows _ =>
    "SELECT EXISTS ( SELECT 1 FROM users AS u JOIN role AS r ON r.role_id = u.role_id " ++
      "LEFT JOIN role_policy AS rp ON rp.role_id = u.role_id AND rp.resource_type_id = " ++
      "(SELECT resource_type_id FROM resource_type WHERE name = $2) WHERE u.user_id = $1 AND " ++
      "(r.name = ANY($4) OR $3 = ANY(rp.actions)) )"
  | allRules =>
    "SELECT a.user_id, a.resource_id, rt.name, a.actions FROM acl AS a JOIN resource_type AS rt " ++
      "ON rt.resource_type_id = a.resource_type_id"
  | allUserRoles =>
    "SELECT u.user_id, r.name FROM users AS u JOIN role AS r ON r.role_id = u.role_id"
  | updateUserRole .. =>
    "UPDATE users SET role_id = (SELECT role_id FROM role WHERE name = $2), " ++
      "updated_at = now() WHERE user_id = $1"
  | insertUser .. =>
    "INSERT INTO users (user_id, role_id) VALUES ($1, (SELECT role_id FROM role WHERE name = $2))"
  | upsertRolePolicy .. =>
    "INSERT INTO role_policy (role_id, resource_type_id, actions) VALUES ( " ++
      "(SELECT role_id FROM role WHERE name = $1), " ++
      "(SELECT resource_type_id FROM resource_type WHERE name = $2), $3 ) " ++
      "ON CONFLICT (role_id, resource_type_id) DO UPDATE SET actions = EXCLUDED.actions"
  | readOneState => "SET TRANSACTION ISOLATION LEVEL REPEATABLE READ, READ ONLY"
  | define part => part.definition
  | seedRoles =>
    "INSERT INTO role (name) SELECT unnest($1::text[]) ON CONFLICT (name) DO NOTHING"
  | seedResourceTypes =>
    "INSERT INTO resource_type (name) SELECT unnest($1::text[]) ON CONFLICT (name) DO NOTHING"

/-- The values bound to the parameters of a statement, in order. -/
def parameters : Statement → List Parameter
  | insertRule user grant =>
    [.identifier user.id, .identifier grant.resource.id, .text grant.resourceType.name,
      .texts grant.actions.names]
  | lockRule user resource => [.identifier user.id, .identifier resource.id]
  | updateRule user grant =>
    [.identifier user.id, .identifier grant.resource.id, .text grant.resourceType.name,
      .texts grant.actions.names]
  | deleteRule user resource => [.identifier user.id, .identifier resource.id]
  | ruleAllows check =>
    [.identifier check.user.id, .identifier check.resource.id, .text check.resourceType.name,
      .text check.action.name]
  | roleAllows check =>
    [.identifier check.user.id, .text check.resourceType.name, .text check.action.name,
      .texts administrativeRoles]
  | allRules => []
  | allUserRoles => []
  | updateUserRole user role => [.identifier user.id, .text role.name]
  | insertUser user role => [.identifier user.id, .text role.name]
  | upsertRolePolicy role resourceType actions =>
    [.text role.name, .text resourceType.name, .texts actions.names]
  | readOneState => []
  | define _ => []
  | seedRoles => [.texts (Role.all.map Role.name)]
  | seedResourceTypes => [.texts (ResourceType.all.map ResourceType.name)]

/-- What of its result a statement is sent for. -/
abbrev extent : Statement → Extent
  | lockRule .. => .row
  | ruleAllows _ => .row
  | roleAllows _ => .row
  | allRules => .rows
  | allUserRoles => .rows
  | _ => .count

end Statement

end AccessControl
