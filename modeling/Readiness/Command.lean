import Readiness.Log
import Readiness.Probe

namespace Readiness

/-! # The command

The command reads its settings from the environment, checks the deployment once, and tells
the outcome by its exit code. It writes to the log only.
-/

/-- The bytes of the variables that are set. -/
abbrev Environment := String → Option (List UInt8)

namespace Environment

/-- A variable and its bytes, which stand behind an equals sign. -/
def entry? (bytes : List UInt8) : Option (String × List UInt8) :=
  match bytes.span (· != 61) with
  | (name, _ :: value) => (Text.ofBytes? name).map fun name => (name, value)
  | (_, []) => none

/-- The environment in a block of bytes, where every variable ends with a zero. -/
def ofBlock (block : List UInt8) : Environment :=
  let entries := (block.splitOn 0).filterMap entry?
  fun name => entries.lookup name

/-- The text of a variable. One that is no text counts as not set. -/
def text? (environment : Environment) (name : String) : Option String :=
  (environment name).bind Text.ofBytes?

/-- The settings in an environment. -/
def settings (environment : Environment) : Except SettingsError Settings :=
  Settings.ofLookup fun which => environment.text? which.key

/-- The variable that asks for a log filter. -/
def filterKey : String := "RUST_LOG"

/-- The log filter that an environment asks for. -/
def filter (environment : Environment) : LogFilter :=
  ((environment.text? filterKey).bind LogFilter.read?).getD .default

end Environment

namespace Command

/-- How the command ends. -/
inductive Exit where
  | ready
  | notReady
  | invalidSettings
deriving DecidableEq, Repr

/-- The exit code. -/
def Exit.code : Exit → UInt8
  | .ready => 0
  | .notReady => 1
  | .invalidSettings => 2

/-- The events in front of a check. -/
def opening (settings : Settings) : List Event :=
  [.checking settings.url settings.timeout.seconds, .asking settings.url settings.timeout.seconds]

/-- The event behind a check. -/
def closing (settings : Settings) : Except ProbeError Progress → Event
  | .ok progress => .deployed settings.url progress
  | .error error => .notReady settings.url error

/-- How the command ends after a check. -/
def Exit.ofResult : Except ProbeError Progress → Exit
  | .ok _ => .ready
  | .error _ => .notReady

/-- What a run of the command did: how it ended, what it wrote as its output, its events,
the requests that were read, and the replies that were not used. -/
structure Report where
  exit : Exit
  output : String
  events : List Event
  requests : List Http.Request
  rest : List Http.Reply

/-- Runs the command in an environment against replies. -/
def run [Url.Idna] (environment : Environment) (replies : List Http.Reply) : Report :=
  match environment.settings with
  | .error error => ⟨.invalidSettings, "", [.invalidSettings error], [], replies⟩
  | .ok settings =>
    let check := Probe.check settings replies
    ⟨.ofResult check.result, "", opening settings ++ [closing settings check.result],
      check.requests, check.rest⟩

/-- The lines of the log of a run. -/
def log (environment : Environment) (report : Report) : List String :=
  logLines environment.filter report.events

end Command
end Readiness
