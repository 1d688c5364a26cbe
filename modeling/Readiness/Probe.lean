import Readiness.Answer
import Readiness.Http.Call
import Readiness.Settings

namespace Readiness

/-! # Probes

A probe asks an endpoint for the latest block of a deployment and judges the answer. All
that can go wrong on the way is an error of the probe; the verdict folds every error into
"not deployed".
-/

/-- The error that a fault of a call is, when the call may take this long. -/
def ProbeError.ofFault (timeout : Span) : Http.Fault → ProbeError
  | .timeout => .timeout timeout
  | .failure failure => .unreachable failure.message

namespace Probe

/-- The question, byte for byte. -/
def question : String := "\x7b\"query\": \"\x7b_meta \x7bblock \x7bnumber\x7d\x7d\x7d\"\x7d"

/-- What the question is written in. -/
def contentType : String := "application/json; charset=utf-8"

variable [Url.Idna]

/-- The call that asks the question. -/
def call (settings : Settings) : Except Http.Failure Http.Call :=
  Http.Call.post settings.url contentType question

/-- What the result of a call says. The body is looked at only if the request succeeded. -/
def judge (settings : Settings) (result : Except Http.Fault Http.Response) :
    Except ProbeError Progress := do
  let response ← result.mapError (.ofFault settings.timeout)
  if response.status.isSuccess then
    Answer.evaluate (← response.content.mapError (.ofFault settings.timeout))
  else
    .error (.httpStatus response.status)

/-- One check: what it says, the requests that were read, and the replies that were not
used. -/
structure Check where
  result : Except ProbeError Progress
  requests : List Http.Request
  rest : List Http.Reply

/-- Whether a check found the deployment ready. -/
def Check.isDeployed (check : Check) : Bool := check.result.toBool

/-- Checks a deployment against replies. -/
def check (settings : Settings) (replies : List Http.Reply) : Check :=
  match call settings with
  | .error failure => ⟨.error (.ofFault settings.timeout (.failure failure)), [], replies⟩
  | .ok call =>
    let outcome := call.run replies
    ⟨judge settings outcome.result, outcome.requests, outcome.rest⟩

/-- Checks one after the other, each with the replies that the ones before it left. -/
def checks (settings : Settings) : Nat → List Http.Reply → List Check
  | 0, _ => []
  | count + 1, replies =>
    let first := check settings replies
    first :: checks settings count first.rest

end Probe
end Readiness
