import Columnar.Settings.Environment

/-! What a running program says about itself: its name, how it logs, and the attributes attached to
its figures. Attributes can be added from outside, but the name stays as configured. -/
namespace Columnar

/-- Settings of logs and figures. -/
structure TelemetrySettings where
  service : String
  level : LogLevel
  format : LogFormat := .json
  /-- Attributes, each key once, the name of the service first. -/
  resource : List (String × String)
deriving DecidableEq, Repr

namespace TelemetrySettings

def serviceKey : String := "service.name"
def namespaceKey : String := "service.namespace"

def serviceVariable : String := "OTEL_SERVICE_NAME"
def formatVariable : String := "TSFRAME_LOG_FORMAT"
def attributesVariable : String := "OTEL_RESOURCE_ATTRIBUTES"

/-- The settings of a service before anything is read from outside. -/
def ofService (service : String) (level : LogLevel) : TelemetrySettings :=
  { service, level, resource := [(serviceKey, service), (namespaceKey, "tsframe")] }

/-- One attribute: what stands before the first equals sign is its key. -/
def keyValue (pair : List Char) : Except Error (String × String) :=
  match Text.cutAt '=' pair with
  | none => .error (.setting (.resourcePair (String.ofList pair)))
  | some (key, value) =>
    if (Text.trimChars key).isEmpty then .error (.setting (.resourcePair (String.ofList pair)))
    else .ok (String.ofList (Text.trimChars key), String.ofList (Text.trimChars value))

/-- The attributes of a text, pieces between commas of which blank ones are passed over. -/
def attributes (text : String) : Except Error (List (String × String)) :=
  let pieces := (Text.splitChars ',' text.toList).map Text.trimChars
  (pieces.filter fun piece => !piece.isEmpty).mapM keyValue

/-- A list of attributes with one more. It goes to the end, also when its key was there before. -/
def setAttribute (resource : List (String × String)) (pair : String × String) :
    List (String × String) :=
  if pair.1 = serviceKey then resource
  else resource.filter (fun other => other.1 != pair.1) ++ [pair]

def withAttributes (settings : TelemetrySettings) (pairs : List (String × String)) :
    TelemetrySettings :=
  { settings with resource := pairs.foldl setAttribute settings.resource }

/-- The name of the service, which may be given but not left blank. -/
def serviceName (text : String) : Except Error String :=
  if Text.isBlankText text then .error (.setting .blankServiceName) else .ok (Text.trim text)

def ofEnvironment (environment : Environment) (service level : String) :
    Except Error TelemetrySettings := do
  let service ← environment.setting serviceVariable service serviceName
  let level ← LogLevel.parse level
  let settings := ofService service level
  let format ← environment.setting formatVariable settings.format LogFormat.parse
  let added ← environment.setting attributesVariable [] attributes
  return { settings with format }.withAttributes added

end TelemetrySettings

end Columnar
