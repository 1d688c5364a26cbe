import Readiness.Http.Status
import Readiness.Span
import Readiness.Text.Quoted

namespace Readiness

/-! # Why a probe found no readiness -/

/-- What stands between a probe and the answer "ready". -/
inductive ProbeError where
  /-- No client for requests could be set up. -/
  | client (reason : String)
  /-- No response came back. -/
  | unreachable (reason : String)
  /-- No response came back in this time. -/
  | timeout (after : Span)
  /-- The response was not a success. -/
  | httpStatus (status : Http.Status)
  /-- The body of the response is not JSON. -/
  | invalidJson (reason : String)
  /-- The body is JSON, but not an object. -/
  | unexpectedShape
  /-- The object has no data; the endpoint may have said why. -/
  | noData (errors : List String)
deriving DecidableEq, Repr

/-- The words for an error. -/
def ProbeError.message : ProbeError → String
  | .client reason => "failed to build HTTP client: " ++ reason
  | .unreachable reason => "GraphQL endpoint unreachable: " ++ reason
  | .timeout after => "GraphQL request timed out after " ++ after.text
  | .httpStatus status => "GraphQL endpoint returned HTTP " ++ status.text
  | .invalidJson reason => "response is not valid JSON: " ++ reason
  | .unexpectedShape => "response is not a JSON object"
  | .noData errors => "response has no data (errors: " ++ Text.quotedList errors ++ ")"

end Readiness
