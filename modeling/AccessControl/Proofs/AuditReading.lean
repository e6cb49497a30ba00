import AccessControl.Proofs.IdentifierReading
import AccessControl.Proofs.NameReading
import AccessControl.Service.Audit
import AccessControl.Store.Memory
import Mathlib.Data.List.Sublists

/-!
# Reading the audit trail

An event of the audit trail is made known by the texts of its fields.  These tell which change was
made, so a reader of the trail can make the same changes to a store again.
-/

namespace AccessControl

/-! ## Reading back what was written -/

/-- The identifier that is written so. -/
def Identifier.ofWritten? (written : String) : Option Identifier := read? written.toList

theorem Identifier.ofWritten?_text (id : Identifier) : ofWritten? id.text = some id :=
  read?_eq_some.2 (.hyphenated rfl)

def UserId.ofWritten? (written : String) : Option UserId :=
  (Identifier.ofWritten? written).map UserId.mk

@[simp] theorem UserId.ofWritten?_text (user : UserId) : ofWritten? user.text = some user := by
  rw [ofWritten?, text, Identifier.ofWritten?_text]
  rfl

def ResourceId.ofWritten? (written : String) : Option ResourceId :=
  (Identifier.ofWritten? written).map ResourceId.mk

@[simp] theorem ResourceId.ofWritten?_text (resource : ResourceId) :
    ofWritten? resource.text = some resource := by
  rw [ofWritten?, text, Identifier.ofWritten?_text]
  rfl

@[simp] theorem Role.ofName_name (role : Role) : ofName role.name = .ok role := by
  cases role <;> decide

@[simp] theorem ResourceType.ofName_name (resourceType : ResourceType) :
    ofName resourceType.name = .ok resourceType := by
  cases resourceType <;> decide

namespace ActionSet

/-- Every set of actions. -/
def sets : List ActionSet := Action.all.sublists.map ofList

theorem mem_sets (set : ActionSet) : set ∈ sets :=
  List.mem_map.2 ⟨set.toList, List.mem_sublists.2 List.filter_sublist, ofList_toList set⟩

/-- The set of actions that is written so. -/
def ofWritten? (written : String) : Option ActionSet := sets.find? fun set => set.text = written

@[simp] theorem ofWritten?_text (set : ActionSet) : ofWritten? set.text = some set := by
  have hall : ∀ set ∈ sets, ofWritten? set.text = some set := by decide +kernel
  exact hall set (mem_sets set)

end ActionSet

/-! ## Reading an event -/

namespace AuditEvent

/-- What a reader makes of the named field. -/
def read? {α : Type} (fields : List (String × String)) (name : String)
    (reader : String → Option α) : Option α :=
  (fields.lookup name).bind reader

def readFlag? (written : String) : Option Bool :=
  [true, false].find? fun flag => (if flag then "true" else "false") = written

@[simp] theorem readFlag?_ite (flag : Bool) :
    readFlag? (if flag = true then "true" else "false") = some flag := by
  cases flag <;> decide

def user? (fields : List (String × String)) : Option UserId :=
  read? fields "user_id" UserId.ofWritten?

def resource? (fields : List (String × String)) : Option ResourceId :=
  read? fields "resource_id" ResourceId.ofWritten?

def role? (fields : List (String × String)) : Option Role :=
  read? fields "role" fun written => (Role.ofName written).toOption

def resourceType? (fields : List (String × String)) : Option ResourceType :=
  read? fields "resource_type" fun written => (ResourceType.ofName written).toOption

def actions? (fields : List (String × String)) : Option ActionSet :=
  read? fields "actions" ActionSet.ofWritten?

def touched? (fields : List (String × String)) : Option Bool :=
  read? fields "touched" readFlag?

def grant? (fields : List (String × String)) : Option Grant := do
  return ⟨← resource? fields, ← resourceType? fields, ← actions? fields⟩

/-- The event that has the fields. -/
def ofFields? (fields : List (String × String)) : Option AuditEvent := do
  match ← fields.lookup "event" with
  | "acl_grant" => return granted (← user? fields) (← grant? fields)
  | "acl_update" => return updated (← user? fields) (← grant? fields) (← touched? fields)
  | "acl_revoke" => return revoked (← user? fields) (← resource? fields)
  | "role_sync" => return roleSynchronised (← user? fields) (← role? fields)
  | "role_policy" =>
    return policyWritten (← role? fields) (← resourceType? fields) (← actions? fields)
  | _ => none

/-- An event can be told from its fields. -/
theorem ofFields?_fields (event : AuditEvent) : ofFields? event.fields = some event := by
  cases event with
  | granted user grant =>
    simp [ofFields?, fields, grantFields, user?, grant?, resource?, resourceType?, actions?, read?,
      List.lookup_cons, Except.toOption]
  | updated user grant touched =>
    simp [ofFields?, fields, grantFields, user?, grant?, resource?, resourceType?, actions?, read?,
      touched?, List.lookup_cons, Except.toOption]
  | revoked user resource => simp [ofFields?, fields, user?, resource?, read?, List.lookup_cons]
  | roleSynchronised user role =>
    simp [ofFields?, fields, user?, role?, read?, List.lookup_cons, Except.toOption]
  | policyWritten role resourceType actions =>
    simp [ofFields?, fields, role?, resourceType?, actions?, read?, List.lookup_cons,
      Except.toOption]

/-! ## Making the changes again -/

/-- Makes the change that the event tells of. -/
def redo (store : MemoryStore) : AuditEvent → MemoryStore
  | granted user grant =>
    { store with rules := store.rules.insert (user, grant.resource) (grant.toRule user) }
  | updated _ _ false => store
  | updated user grant true =>
    match store.rules.get? (user, grant.resource) with
    | some rule =>
      let changed := { rule with actions := grant.actions }
      { store with rules := store.rules.insert (user, grant.resource) changed }
    | none => store
  | revoked user resource => { store with rules := store.rules.erase (user, resource) }
  | roleSynchronised user role => { store with users := store.users.insert user role }
  | policyWritten role resourceType actions =>
    { store with policies := store.policies.insert (role, resourceType) actions }

/-- Makes the changes of a trail one after another, if each of them can be told from its fields. -/
def replay (store : MemoryStore) : List (List (String × String)) → Option MemoryStore
  | [] => some store
  | fields :: rest => do replay ((← ofFields? fields).redo store) rest

theorem replay_map_fields (store : MemoryStore) (events : List AuditEvent) :
    replay store (events.map fields) = some (events.foldl redo store) := by
  induction events generalizing store with
  | nil => rfl
  | cons event rest ih =>
    rw [List.map_cons, replay, ofFields?_fields]
    exact ih (event.redo store)

end AuditEvent

end AccessControl
