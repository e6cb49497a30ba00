import AccessControl.Configuration
import AccessControl.FileText
import AccessControl.Text.Number
import AccessControl.Toml.Decode
import AccessControl.Toml.Document

/-!
# The layers of a configuration

A document gives fields in four sections, and is refused if one of them has a value of another kind.
The environment gives a field by a variable of its own; a variable whose value cannot be read gives
nothing.
-/

namespace AccessControl

namespace ConfigurationLayer

open Toml (Entries Value)

/-- The fields of a section, none of them if there is no such section. -/
def sectionFields (entries : Entries) (name : String) (fields : List String) :
    Option (String → Option Value) :=
  match entries.lookup name with
  | some value => value.fields? fields
  | none => some fun _ => none

/-- The layer of a document. -/
def ofEntries? (entries : Entries) : Option ConfigurationLayer := do
  let database ← sectionFields entries "database"
    ["url", "max_connections", "acquire_timeout_secs"]
  let authorization ← sectionFields entries "authz" ["check_timeout_ms"]
  let log ← sectionFields entries "log" ["format", "level"]
  let tracing ← sectionFields entries "tracing"
    ["enabled", "otlp_endpoint", "service_name", "sample_rate"]
  return {
    databaseUrl := ← (database "url").mapM Value.text?
    maxConnections := ← (database "max_connections").mapM (Value.natural? (UInt32.size - 1))
    acquireTimeoutSeconds := ←
      (database "acquire_timeout_secs").mapM (Value.natural? (UInt64.size - 1))
    checkTimeoutMilliseconds := ←
      (authorization "check_timeout_ms").mapM (Value.natural? (UInt64.size - 1))
    logFormat := ← (log "format").mapM fun value => do LogFormat.ofName? (← value.choice?)
    logLevel := ← (log "level").mapM Value.text?
    tracingEnabled := ← (tracing "enabled").mapM Value.flag?
    tracingEndpoint := ← (tracing "otlp_endpoint").mapM Value.text?
    tracingServiceName := ← (tracing "service_name").mapM Value.text?
    tracingSampleRate := ← (tracing "sample_rate").mapM Value.float? }

/-- The layer of an environment. -/
def ofEnvironment (environment : Environment) : ConfigurationLayer where
  databaseUrl := environment .databaseUrl
  maxConnections := environment .maxConnections >>= Text.naturalUpTo? (UInt32.size - 1)
  acquireTimeoutSeconds :=
    environment .acquireTimeoutSeconds >>= Text.naturalUpTo? (UInt64.size - 1)
  checkTimeoutMilliseconds :=
    environment .checkTimeoutMilliseconds >>= Text.naturalUpTo? (UInt64.size - 1)
  logFormat := environment .logFormat >>= LogFormat.ofName?
  logLevel := environment .logLevel
  tracingEnabled := environment .tracingEnabled >>= Text.flag?
  tracingEndpoint := environment .tracingEndpoint
  tracingServiceName := environment .tracingServiceName
  tracingSampleRate := environment .tracingSampleRate >>= Text.float?

end ConfigurationLayer

/-- Why there is no configuration. -/
inductive ConfigurationError where
  | unreadable (fault : FileFault)
  | malformed
  | invalid (fault : ConfigurationFault)
  deriving DecidableEq, Repr

namespace Configuration

/-- The layer of a file, which gives nothing if there is none. -/
def fileLayer : Option FileText → Except ConfigurationError ConfigurationLayer
  | none => .ok {}
  | some (.error fault) => .error (.unreadable fault)
  | some (.ok text) =>
    match Toml.read text >>= ConfigurationLayer.ofEntries? with
    | some layer => .ok layer
    | none => .error .malformed

/-- The configuration of two layers, of which the environment's goes before the file's, if it can
work. -/
def ofLayers (file environment : ConfigurationLayer) : Except ConfigurationError Configuration :=
  let configuration := (({} : Configuration).overlay file).overlay environment
  match configuration.fault? with
  | none => .ok configuration
  | some fault => .error (.invalid fault)

/-- The configuration of a file, if one is given, and an environment. -/
def load (file : Option FileText) (environment : Environment) :
    Except ConfigurationError Configuration := do
  ofLayers (← fileLayer file) (.ofEnvironment environment)

end Configuration

end AccessControl
