import Readiness.Command
import Readiness.Http.Wire
import Std.Async.DNS
import Std.Async.TCP
import Std.Async.Timer
import Std.Time

/-! # The program

What the command decides is decided elsewhere; here it meets the environment, the network,
the clock and the log.
-/

namespace Readiness.Program

open Std Std.Async

/-! ## The log -/

/-- The time, to the microsecond. -/
def timestamp : IO String := do
  let now := Time.DateTime.ofTimestamp (← Time.Timestamp.now) .UTC
  return now.format "uuuu-MM-dd'T'HH:mm:ss.SSSSSS'Z'"

/-- What makes the names of severities equally wide. -/
def padding (severity : Severity) : String :=
  String.ofList (List.replicate (5 - severity.name.length) ' ')

/-- Writes the events that a filter lets through. -/
def write (filter : LogFilter) (events : List Event) : IO Unit := do
  for event in events.filter fun event => filter.admits event.severity do
    IO.eprintln ((← timestamp) ++ " " ++ padding event.severity ++ event.text)

/-! ## The network -/

/-- Where a socket connects to. -/
def socketAddress (port : UInt16) : Net.IPAddr → Net.SocketAddress
  | .v4 address => .v4 ⟨address, port⟩
  | .v6 address => .v6 ⟨address, port⟩

/-- Reads from a connection until the reply is there. A connection that breaks has ended. -/
partial def receive (connection : TCP.Socket.Client) (bytes : List UInt8) : Async Http.Reply := do
  let chunk ← try connection.recv? 65536 catch _ => pure none
  match chunk with
  | some chunk =>
    let bytes := bytes ++ chunk.toList
    match Http.Reply.ofBytes? false bytes with
    | some reply => return reply
    | none => receive connection bytes
  | none => return (Http.Reply.ofBytes? true bytes).getD .closed

/-- Sends a request to one address, and reads the reply even if sending broke off. -/
def exchange (request : Http.Request) (address : Net.SocketAddress) : Async Http.Reply := do
  let connection ← TCP.Socket.Client.mk
  connection.connect address
  try connection.send (ByteArray.mk request.bytes.toArray) catch _ => pure ()
  receive connection []

/-- Sends a request to the first address of a list that can be reached. -/
def exchangeAny (request : Http.Request) : List Net.SocketAddress → Async Http.Reply
  | [] => return .refused
  | address :: addresses => do
    try
      exchange request address
    catch _ =>
      exchangeAny request addresses

/-- The name of the server of a URL, as it is looked up. -/
def serverName (url : Url) : String :=
  match url.authority.host with
  | .ipv6 address => String.ofList address.text
  | host => String.ofList host.text

/-- Sends a request. -/
def send (request : Http.Request) : Async Http.Reply := do
  try
    let port := request.url.authority.port.getD 80
    let found ← DNS.getAddrInfo (serverName request.url) (toString port.toNat)
    exchangeAny request (found.toList.map (socketAddress port))
  catch _ =>
    return .refused

/-- Runs a call. -/
partial def run (call : Http.Call) : Async (Except Http.Fault Http.Response) := do
  match call.receive (← send call.request) with
  | .ended result => return result
  | .continued next => run next

/-! ## The clock -/

/-- The longest time that is waited for, in milliseconds. -/
def longestWait : Nat := 1 <<< 62

/-- Runs a call for as long as it may take. -/
def runWithin (timeout : Span) (call : Http.Call) : Async (Except Http.Fault Http.Response) :=
  let wait := timeout.total / 1000000
  if wait < longestWait then
    Async.race (run call) do
      sleep (.ofNat wait)
      return .error .timeout
  else
    run call

/-- Checks a deployment. -/
def check (settings : Settings) : IO (Except ProbeError Progress) :=
  match Probe.call settings with
  | .error failure => return Probe.judge settings (.error (.failure failure))
  | .ok call => do return Probe.judge settings (← Async.block (runWithin settings.timeout call))

/-! ## The environment -/

/-- Reads the environment: as it is where the system shows it, and otherwise those variables
that the command knows. -/
def environment : IO Environment := do
  try
    let block ← IO.FS.readBinFile "/proc/self/environ"
    return .ofBlock block.toList
  catch _ =>
    let keys := Environment.filterKey ::
      [Variable.port, .deployment, .host, .timeout].map Variable.key
    let values ← keys.mapM fun key => return (key, (← IO.getEnv key).map Text.toBytes)
    return fun key => (values.lookup key).join

end Readiness.Program

open Readiness

/-- Reads the settings, checks the deployment once, and tells the outcome. -/
def main : IO UInt32 := do
  let environment ← Program.environment
  let write := Program.write environment.filter
  match environment.settings with
  | .error error =>
    write [.invalidSettings error]
    return Command.Exit.invalidSettings.code.toUInt32
  | .ok settings =>
    write (Command.opening settings)
    let result ← Program.check settings
    write [Command.closing settings result]
    return (Command.Exit.ofResult result).code.toUInt32
