import Readiness.Http.Message
import Readiness.Url.Target

namespace Readiness.Http

/-! # Calls

A call is one request and those that redirects make of it. It takes one reply at a time:
each either ends the call or makes the next request. What the replies are is not decided
here, so the same call can be run against a script and against a network.
-/

/-- A call under way: the URL it began with, the request that waits for a reply, and how
often the call was sent elsewhere. -/
structure Call where
  origin : Url
  request : Request
  redirects : Nat
deriving DecidableEq, Repr

/-- What a reply does to a call. -/
inductive Step where
  | ended (result : Except Fault Response)
  | continued (call : Call)

namespace Call

variable [Url.Idna]

/-- How often a call may be sent elsewhere. -/
def maxRedirects : Nat := 10

/-- A call that brings something to an address. Credentials in the address are not part of
its URL, and only plain HTTP is spoken. -/
def post (address contentType body : String) : Except Failure Call :=
  match Url.read? address.toList with
  | none => .error .unreadable
  | some url =>
    let url := url.withoutCredentials
    if url.scheme = .http ∧ url.isSendable then
      .ok ⟨url, .post url.withoutFragment contentType body, 0⟩
    else
      .error (.unsupported url.text)

/-- Where a response sends a call, if it does. -/
def target? (call : Call) (response : Response) : Option Url.Target :=
  if response.status.isRedirect then
    response.location?.bind fun location => call.request.url.resolve? location.toList
  else
    none

/-- A call that is sent elsewhere. A server that would have to be reached in secret cannot
be reached. -/
def redirect (call : Call) (status : Status) (target : Url.Target) : Step :=
  -- a call that was sent elsewhere too often does not look where it should go next
  if call.redirects = maxRedirects then .ended (.error (.failure (.lastRedirect call.request.url)))
  else
    match target with
    | .foreign name => .ended (.error (.failure (.unsupported name)))
    | .address url =>
      match url.scheme with
      | .http => .continued ⟨call.origin, call.request.redirected status url, call.redirects + 1⟩
      | .https => .ended (.error (.failure (.lost call.origin)))
      | _ => .ended (.error (.failure (.unsupported target.text)))

/-- What a reply does to a call. -/
def receive (call : Call) : Reply → Step
  | .refused | .closed | .garbled => .ended (.error (.failure (.lost call.origin)))
  | .silent => .ended (.error .timeout)
  | .response response =>
    match call.target? response with
    | none => .ended (.ok response)
    | some target => call.redirect response.status target

/-! ## Calls against a script -/

/-- What became of a call: its result, the requests that were read, and the replies that
were not used. -/
structure Outcome where
  result : Except Fault Response
  requests : List Request
  rest : List Reply

/-- Runs a call against replies, one for each request. When they run out, requests are
refused. -/
def run (call : Call) : List Reply → Outcome
  | [] => ⟨.error (.failure (.lost call.origin)), [], []⟩
  | reply :: replies =>
    let read := if reply.isRead then [call.request] else []
    match call.receive reply with
    | .ended result => ⟨result, read, replies⟩
    | .continued next =>
      let outcome := next.run replies
      { outcome with requests := read ++ outcome.requests }

end Call
end Readiness.Http
