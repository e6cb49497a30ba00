import AccessControl.Binary64
import AccessControl.Duration

/-!
# The configuration of a service

Ten fields say how a service reaches its database, how long a check may take, what it logs and what
it traces.  A configuration is put together from layers, each of which gives some of the fields: a
field has the value of the first layer that gives it, and its default if none does.  A configuration
that cannot work is refused.
-/

namespace AccessControl

/-- The two forms of log lines. -/
inductive LogFormat where
  | json
  | pretty
  deriving DecidableEq, Repr

/-- The name of a form of log lines. -/
def LogFormat.name : LogFormat → String
  | .json => "json"
  | .pretty => "pretty"

/-- The form of log lines that a text names. -/
def LogFormat.ofName? (name : String) : Option LogFormat :=
  [LogFormat.json, .pretty].find? fun format => format.name = name

/-- How a service is set up. -/
structure Configuration where
  databaseUrl : String := "postgresql://localhost:5432/aclgate"
  maxConnections : Nat := 10
  acquireTimeoutSeconds : Nat := 5
  checkTimeoutMilliseconds : Nat := 5000
  logFormat : LogFormat := .json
  logLevel : String := "info"
  tracingEnabled : Bool := false
  tracingEndpoint : String := "http://localhost:4317"
  tracingServiceName : String := "aclgate"
  /-- The part of all traces that is kept, from zero to one. -/
  tracingSampleRate : Binary64 := .ofInt 1
  deriving DecidableEq, Repr

/-- Some of the fields of a configuration. -/
structure ConfigurationLayer where
  databaseUrl : Option String := none
  maxConnections : Option Nat := none
  acquireTimeoutSeconds : Option Nat := none
  checkTimeoutMilliseconds : Option Nat := none
  logFormat : Option LogFormat := none
  logLevel : Option String := none
  tracingEnabled : Option Bool := none
  tracingEndpoint : Option String := none
  tracingServiceName : Option String := none
  tracingSampleRate : Option Binary64 := none
  deriving DecidableEq, Repr

/-- The fields of a configuration, each by the variable of the environment that gives it. -/
inductive Setting where
  | databaseUrl
  | maxConnections
  | acquireTimeoutSeconds
  | checkTimeoutMilliseconds
  | logFormat
  | logLevel
  | tracingEnabled
  | tracingEndpoint
  | tracingServiceName
  | tracingSampleRate
  deriving DecidableEq, Repr

namespace Setting

/-- Every field. -/
def all : List Setting :=
  [databaseUrl, maxConnections, acquireTimeoutSeconds, checkTimeoutMilliseconds, logFormat,
    logLevel, tracingEnabled, tracingEndpoint, tracingServiceName, tracingSampleRate]

/-- The name of the variable that gives a field. -/
def variableName : Setting → String
  | databaseUrl => "ACLGATE_DATABASE_URL"
  | maxConnections => "ACLGATE_DATABASE_MAX_CONNECTIONS"
  | acquireTimeoutSeconds => "ACLGATE_DATABASE_ACQUIRE_TIMEOUT_SECS"
  | checkTimeoutMilliseconds => "ACLGATE_AUTHZ_CHECK_TIMEOUT_MS"
  | logFormat => "ACLGATE_LOG_FORMAT"
  | logLevel => "ACLGATE_LOG_LEVEL"
  | tracingEnabled => "ACLGATE_TRACING_ENABLED"
  | tracingEndpoint => "ACLGATE_TRACING_OTLP_ENDPOINT"
  | tracingServiceName => "ACLGATE_TRACING_SERVICE_NAME"
  | tracingSampleRate => "ACLGATE_TRACING_SAMPLE_RATE"

theorem mem_all (setting : Setting) : setting ∈ all := by cases setting <;> decide

end Setting

/-- The text that an environment gives for a field. -/
abbrev Environment := Setting → Option String

/-- Gives a configuration the fields of a layer. -/
def Configuration.overlay (base : Configuration) (layer : ConfigurationLayer) : Configuration where
  databaseUrl := layer.databaseUrl.getD base.databaseUrl
  maxConnections := layer.maxConnections.getD base.maxConnections
  acquireTimeoutSeconds := layer.acquireTimeoutSeconds.getD base.acquireTimeoutSeconds
  checkTimeoutMilliseconds := layer.checkTimeoutMilliseconds.getD base.checkTimeoutMilliseconds
  logFormat := layer.logFormat.getD base.logFormat
  logLevel := layer.logLevel.getD base.logLevel
  tracingEnabled := layer.tracingEnabled.getD base.tracingEnabled
  tracingEndpoint := layer.tracingEndpoint.getD base.tracingEndpoint
  tracingServiceName := layer.tracingServiceName.getD base.tracingServiceName
  tracingSampleRate := layer.tracingSampleRate.getD base.tracingSampleRate

/-- Why a configuration cannot work. -/
inductive ConfigurationFault where
  | noConnections
  | noAcquireTimeout
  | noCheckTimeout
  | sampleRateOutOfRange
  | noEndpoint
  deriving DecidableEq, Repr

/-- What is said about a configuration that cannot work. -/
def ConfigurationFault.message : ConfigurationFault → String
  | .noConnections => "database.max_connections must be non-zero"
  | .noAcquireTimeout => "database.acquire_timeout_secs must be non-zero"
  | .noCheckTimeout => "authz.check_timeout_ms must be non-zero"
  | .sampleRateOutOfRange => "tracing.sample_rate must be between 0.0 and 1.0"
  | .noEndpoint => "tracing.otlp_endpoint is required when tracing is enabled"

namespace Configuration

/-- The first reason why a configuration cannot work. -/
def fault? (configuration : Configuration) : Option ConfigurationFault :=
  if configuration.maxConnections = 0 then some .noConnections
  else if configuration.acquireTimeoutSeconds = 0 then some .noAcquireTimeout
  else if configuration.checkTimeoutMilliseconds = 0 then some .noCheckTimeout
  else if ¬ configuration.tracingSampleRate.isProportion then some .sampleRateOutOfRange
  else if configuration.tracingEnabled ∧ configuration.tracingEndpoint.isEmpty then
    some .noEndpoint
  else none

/-- How long a service may wait for a connection. -/
def acquireTimeout (configuration : Configuration) : Duration :=
  .ofSeconds configuration.acquireTimeoutSeconds

/-- How long a check may take. -/
def checkTimeout (configuration : Configuration) : Duration :=
  .ofMilliseconds configuration.checkTimeoutMilliseconds

end Configuration

end AccessControl
