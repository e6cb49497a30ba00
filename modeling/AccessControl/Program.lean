import AccessControl.Cache.Local
import AccessControl.CommandLine.Help
import AccessControl.Configuration.Layers
import AccessControl.Fixture.Document
import AccessControl.Service

/-!
# The program

A run reads its command line, loads its configuration, opens a cache over its store and makes one
request to a service.  Only a store in memory can be opened here, which may be seeded by a fixture;
a run that asks for a database fails.  Nothing waits in a run, so no request misses its deadline.
-/

namespace AccessControl

/-- What a run writes, and the code it ends with. -/
structure RunResult where
  output : String := ""
  /-- What is said to a person about a run that failed. -/
  complaint : String := ""
  code : UInt32 := 0
  deriving DecidableEq, Repr

namespace Program

/-- The paths of the files that a command line names. -/
def filePaths (arguments : List String) : List String :=
  match CommandLine.read arguments with
  | .ok invocation => invocation.config.toList ++ invocation.seed.toList
  | .error _ => []

/-- A run that did what it was asked and wrote `output`. -/
def done (output : String) : RunResult := { output }

/-- A run that failed. -/
def failed (complaint : String) : RunResult := { complaint, code := 1 }

/-- Makes a request to a service over a cache. -/
def ask {α : Type} (cache : LocalCache) (attempt : Attempt (Outcome α)) :
    Except ServiceError α :=
  (LocalCache.run attempt.call cache).1.result

/-- The run that a request to a service makes. -/
def report {α : Type} (cache : LocalCache) (attempt : Attempt (Outcome α))
    (output : α → String) : RunResult :=
  match ask cache attempt with
  | .ok value => done (output value)
  | .error error => failed error.message

/-- The run that a check makes.  A denial is an answer, told by the code as well. -/
def reportCheck (cache : LocalCache) (attempt : Attempt (Outcome Unit)) : RunResult :=
  match ask cache attempt with
  | .ok () => done "allowed\n"
  | .error error =>
    if error.isDenied then { output := "denied\n", code := 1 } else failed error.message

/-- A line for every rule. -/
def ruleLines (rules : List Rule) : String :=
  String.join (rules.map fun rule => rule.text ++ "\n")

/-- The counters of a cache, with the size of its engine. -/
def statsLines (cache : LocalCache) : Except EngineError String := do
  let subjects ← cache.engine.subjectCount
  let facts ← (cache.engine.answer .factCount).1
  let counters := cache.counters
  return "subjects:        " ++ toString subjects ++ "\n" ++
    "facts:           " ++ toString facts ++ "\n" ++
    "hits:            " ++ toString counters.hits.toNat ++ "\n" ++
    "misses:          " ++ toString counters.misses.toNat ++ "\n" ++
    "repairs:         " ++ toString counters.repairs.toNat ++ "\n" ++
    "stale repairs:   " ++ toString counters.staleRepairs.toNat ++ "\n" ++
    "repair failures: " ++ toString counters.repairFailures.toNat ++ "\n"

/-- Runs a command against a service over a cache. -/
def runCommand (cache : LocalCache) (deadline : Duration) : Command → RunResult
  | .check user resourceType (.action action) resource =>
    reportCheck cache (Service.authorize deadline user resourceType action resource)
  | .check user resourceType (.method method) resource =>
    reportCheck cache (Service.authorizeRequest deadline user resourceType method resource)
  | .grant user resource resourceType actions =>
    let grant : Grant := ⟨resource, resourceType, ActionSet.ofList actions⟩
    report cache (Service.grant deadline user grant) fun () =>
      "granted " ++ (grant.toRule user).text ++ "\n"
  | .update user resource resourceType actions =>
    let grant : Grant := ⟨resource, resourceType, ActionSet.ofList actions⟩
    report cache (Service.updateGrant deadline user grant) fun touched =>
      if touched then
        "updated " ++ user.text ++ " on " ++ resource.text ++ " to " ++ grant.actions.text ++ "\n"
      else "no grant for " ++ user.text ++ " on " ++ resource.text ++ "\n"
  | .revoke user resource =>
    report cache (Service.revoke deadline user resource) fun () =>
      "revoked " ++ user.text ++ " on " ++ resource.text ++ "\n"
  | .setRole user role =>
    report cache (Service.syncUserRole deadline user role) fun () =>
      user.text ++ " is now " ++ role.name ++ "\n"
  | .setPolicy role resourceType actions =>
    let actions := ActionSet.ofList actions
    report cache (Service.setRolePolicy deadline role resourceType actions) fun () =>
      role.name ++ " may " ++ actions.text ++ " on " ++ resourceType.name ++ "\n"
  | .list user => report cache (Service.listPermissions deadline user) ruleLines
  | .stats =>
    match statsLines cache with
    | .ok lines => done lines
    | .error error => failed error.message

/-- The store in memory that a run starts with. -/
def openStore : Option FileText → Except String MemoryStore
  | none => .ok ∅
  | some file =>
    match Fixture.load file with
    | .error (.unreadable fault) => .error fault.message
    | .error .malformed => .error "the fixture is malformed"
    | .ok fixture =>
      match fixture.apply ∅ with
      | (.ok _, store) => .ok store
      | (.error error, _) => .error error.message

/-- Runs a command over a store in memory, seeded by a fixture if one is given. -/
def runInMemory (configuration : Configuration) (seed : Option FileText) (command : Command) :
    RunResult :=
  match openStore seed with
  | .error complaint => failed complaint
  | .ok store =>
    match LocalCache.ofStore store with
    | .error error => failed error.message
    | .ok cache => runCommand cache configuration.checkTimeout command

/-- What is said about a command line that cannot be read. -/
def usageComplaint : UsageFault → String
  | .rejectedValue => "an option has an invalid value"
  | .missingValue => "an option needs a value"
  | .unexpectedValue => "an option takes no value"
  | .unknownArgument => "unexpected argument"
  | .unknownCommand => "unrecognized command"
  | .conflict => "an argument cannot be used with another one, or twice"
  | .missingArgument => "a required argument was not provided"
  | .missingCommand => "a command is required"
  | .nothingGiven => Help.text (.level .program)

/-- Does what a command line asks for. -/
def runInvocation (file : String → FileText) (environment : Environment)
    (invocation : Invocation) : RunResult :=
  match Configuration.load (invocation.config.map file) environment with
  | .error (.unreadable fault) => failed fault.message
  | .error .malformed => failed "the configuration is malformed"
  | .error (.invalid fault) => failed fault.message
  | .ok configuration =>
    if invocation.memory then
      runInMemory configuration (invocation.seed.map file) invocation.command
    else failed "no database can be reached"

/-- Runs the program with its arguments, the files it can see and its environment. -/
def run (arguments : List String) (file : String → FileText) (environment : Environment) :
    RunResult :=
  match CommandLine.read arguments with
  | .ok invocation => runInvocation file environment invocation
  | .error (.refused fault) => { complaint := usageComplaint fault, code := 2 }
  | .error (.help topic) => done (Help.text topic)
  | .error .version => done versionText

end Program

end AccessControl
