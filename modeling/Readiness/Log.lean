import Readiness.Answer
import Readiness.Number.Shortest
import Readiness.Settings

namespace Readiness

/-! # The log

What a run has to tell is a list of events. A filter lets those through that are severe
enough; it takes nothing else from them and adds nothing. Each event is written as one
text, which may take several lines if what it shows does.
-/

/-! ## Origins -/

/-- Where an event comes from: the command, or a probe that it runs. -/
inductive Origin where
  | command
  | probe
deriving DecidableEq, Repr

/-- The name of the command, under which all of its events stand. -/
def Origin.root : String := "subgraph_probe"

/-- The name of an origin. -/
def Origin.name : Origin → String
  | .command => root
  | .probe => root ++ "::probe"

/-! ## Severities and filters -/

/-- How much an event matters. -/
inductive Severity where
  | error
  | warn
  | info
  | debug
  | trace
deriving DecidableEq, Repr

/-- The place of a severity, the most severe one first. -/
def Severity.rank : Severity → Nat
  | .error => 1
  | .warn => 2
  | .info => 3
  | .debug => 4
  | .trace => 5

/-- The name of a severity. -/
def Severity.name : Severity → String
  | .error => "ERROR"
  | .warn => "WARN"
  | .info => "INFO"
  | .debug => "DEBUG"
  | .trace => "TRACE"

/-- What a log is to hold: events up to this rank. -/
structure LogFilter where
  rank : Nat
deriving DecidableEq, Repr

namespace LogFilter

/-- The filter that lets a severity through, and all above it. -/
def upTo (severity : Severity) : LogFilter := ⟨severity.rank⟩

/-- The filter that lets nothing through. -/
def off : LogFilter := ⟨0⟩

/-- The filter when none is asked for. -/
def default : LogFilter := .upTo .info

/-- Whether a filter lets a severity through. -/
def admits (filter : LogFilter) (severity : Severity) : Bool := severity.rank ≤ filter.rank

/-- The filter with this name. Case does not count. -/
def ofName? (name : String) : Option LogFilter :=
  match String.ofList (name.toList.map Char.toLower) with
  | "off" => some .off
  | "error" => some (.upTo .error)
  | "warn" => some (.upTo .warn)
  | "info" => some (.upTo .info)
  | "debug" => some (.upTo .debug)
  | "trace" => some (.upTo .trace)
  | _ => none

/-- What stands in front of a name that is meant for the events of the command. -/
def originMark : List Char := (Origin.root ++ "=").toList

/-- A text without the mark. -/
def withoutMark (text : List Char) : List Char :=
  if originMark.isPrefixOf text then text.drop originMark.length else text

/-- The filter that a text asks for: a name, which the mark may precede. -/
def read? (text : String) : Option LogFilter :=
  ofName? (String.ofList (withoutMark text.toList))

end LogFilter

/-! ## Events -/

/-- What happens in a run. Timeouts are whole seconds. -/
inductive Event where
  /-- The settings cannot be read. -/
  | invalidSettings (error : SettingsError)
  /-- A deployment is going to be checked. -/
  | checking (url : String) (timeout : Nat)
  /-- The question is going to be asked. -/
  | asking (url : String) (timeout : Nat)
  /-- The deployment is ready. -/
  | deployed (url : String) (progress : Progress)
  /-- The deployment is not ready. -/
  | notReady (url : String) (error : ProbeError)
deriving DecidableEq, Repr

namespace Event

/-- How much an event matters. -/
def severity : Event → Severity
  | .invalidSettings _ => .error
  | .checking _ _ => .info
  | .asking _ _ => .debug
  | .deployed _ _ => .info
  | .notReady _ _ => .warn

/-- Where an event comes from. -/
def origin : Event → Origin
  | .invalidSettings _ | .checking _ _ => .command
  | .asking _ _ | .deployed _ _ | .notReady _ _ => .probe

/-- What an event says. -/
def message : Event → String
  | .invalidSettings _ => "Invalid probe configuration"
  | .checking _ _ => "Checking subgraph deployment"
  | .asking _ _ => "Querying subgraph _meta"
  | .deployed _ _ => "Subgraph is deployed"
  | .notReady _ _ => "Subgraph is not ready"

/-- The text of the latest block, which need not be known. -/
def blockText : Option Nat → String
  | none => "None"
  | some block => "Some(" ++ toString block ++ ")"

/-- What an event shows, by name. The question shows its timeout as a double. -/
def fields : Event → List (String × String)
  | .invalidSettings error => [("error", error.message)]
  | .checking url timeout => [("url", url), ("timeout_secs", toString timeout)]
  | .asking url timeout => [("url", url), ("timeout_secs", Double.text timeout)]
  | .deployed url progress => [("url", url), ("block_number", blockText progress.block)]
  | .notReady url error => [("url", url), ("error", error.message)]

/-- The text of a field, behind what stands in front of it. -/
def fieldText (field : String × String) : String := " " ++ field.1 ++ "=" ++ field.2

/-- The text of an event. -/
def text (event : Event) : String :=
  event.severity.name ++ " " ++ event.origin.name ++ ": " ++ event.message ++
    String.join (event.fields.map fieldText)

end Event

/-! ## Lines -/

/-- A line without the carriage return that ends it, if one does. -/
def dropReturn (line : List Char) : List Char :=
  if line.getLast? = some '\r' then line.dropLast else line

/-- The lines of a text. A carriage return in front of the end of a line belongs to it. -/
def textLines (text : String) : List String :=
  let lines := text.toList.splitOn '\n'
  (lines.dropLast.map dropReturn ++ lines.getLast?.toList).map String.ofList

/-- The lines that a filter leaves of a log. -/
def logLines (filter : LogFilter) (events : List Event) : List String :=
  (events.filter fun event => filter.admits event.severity).flatMap fun event =>
    textLines event.text

end Readiness
