import Readiness.Number.Decimal
import Readiness.Span
import Readiness.Text.Blank
import Readiness.Text.Quoted

namespace Readiness

/-! # Settings

What a probe has to know: which deployment on which endpoint, and how long to wait. The
settings come from four variables, each of which may be absent. They are checked in a
fixed order, so the problem that is reported does not depend on what follows it.
-/

/-- The variables that settings are read from. -/
inductive Variable where
  | port
  | deployment
  | host
  | timeout
deriving DecidableEq, Repr

/-- The name of a variable in the environment. -/
def Variable.key : Variable → String
  | .port => "GRAPH_NODE_GRAPHQL_PORT"
  | .deployment => "DEPLOYMENT_NAME"
  | .host => "GRAPH_NODE_GRAPHQL_HOST"
  | .timeout => "SUBGRAPH_PROBE_TIMEOUT_SECS"

/-- Settings of a probe. -/
structure Settings where
  host : String
  port : UInt16
  deployment : String
  timeout : Span
deriving DecidableEq, Repr

/-- Why the variables hold no settings. The value is the text as it was found. -/
inductive SettingsError where
  | missing (which : Variable)
  | invalidPort (value : String) (cause : Decimal.Fault)
  | invalidTimeout (value : String)
deriving DecidableEq, Repr

/-- The words for an error. -/
def SettingsError.message : SettingsError → String
  | .missing which => "required environment variable " ++ which.key ++ " is not set"
  | .invalidPort value cause =>
    Variable.key .port ++ " must be a port number, got " ++ Text.quoted value ++ ": " ++
      cause.message
  | .invalidTimeout value =>
    Variable.key .timeout ++ " must be a positive number of seconds, got " ++ Text.quoted value

namespace Settings

/-- The host when none is given. -/
def defaultHost : String := "localhost"

/-- The timeout when none is given. -/
def defaultTimeout : Span := .ofSeconds 10

/-- Settings with the default host and timeout. -/
def new (port : UInt16) (deployment : String) : Settings :=
  ⟨defaultHost, port, deployment, defaultTimeout⟩

/-- The settings with another host. -/
def withHost (settings : Settings) (host : String) : Settings := { settings with host }

/-- The settings with another timeout. -/
def withTimeout (settings : Settings) (timeout : Span) : Settings := { settings with timeout }

/-! ## Reading the variables -/

/-- The largest number of seconds that a timeout may have. -/
def maxSeconds : Nat := 18446744073709551615

/-- Reads a port number; white space around it does not count. -/
def readPort (value : String) : Except SettingsError UInt16 :=
  match Decimal.read 65535 (Text.trim value.toList) with
  | .ok port => .ok (UInt16.ofNat port)
  | .error cause => .error (.invalidPort value cause)

/-- Reads a timeout, which is never zero. -/
def readTimeout : Option String → Except SettingsError Span
  | none => .ok defaultTimeout
  | some value =>
    match Decimal.read maxSeconds (Text.trim value.toList) with
    | .ok 0 => .error (.invalidTimeout value)
    | .ok seconds => .ok (.ofSeconds seconds)
    | .error _ => .error (.invalidTimeout value)

/-- Reads a host; one that is blank counts as absent. -/
def readHost (value : Option String) : String :=
  let host := Text.trim (value.getD "").toList
  if host.isEmpty then defaultHost else String.ofList host

/-- The value of a variable that has to be there. -/
def require (lookup : Variable → Option String) (which : Variable) : Except SettingsError String :=
  match lookup which with
  | some value => .ok value
  | none => .error (.missing which)

/-- Reads the settings: first the port, then the deployment, then the timeout. -/
def ofLookup (lookup : Variable → Option String) : Except SettingsError Settings := do
  let port ← readPort (← require lookup .port)
  let deployment ← require lookup .deployment
  let timeout ← readTimeout (lookup .timeout)
  return ⟨readHost (lookup .host), port, deployment, timeout⟩

/-! ## Texts -/

/-- The address of the deployment, put together as it is. -/
def url (settings : Settings) : String :=
  "http://" ++ settings.host ++ ":" ++ toString settings.port.toNat ++ "/subgraphs/name/" ++
    settings.deployment

/-- The settings with every field by name. -/
def description (settings : Settings) : String :=
  "ProbeConfig \x7b host: " ++ Text.quoted settings.host ++
    ", port: " ++ toString settings.port.toNat ++
    ", deployment_name: " ++ Text.quoted settings.deployment ++
    ", timeout: " ++ settings.timeout.text ++ " \x7d"

end Settings
end Readiness
