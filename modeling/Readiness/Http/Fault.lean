import Readiness.Url.Basic

namespace Readiness.Http

/-! # Why a call brings no response -/

/-- What ends a call, other than the time it takes. -/
inductive Failure where
  /-- The address is no URL. -/
  | unreadable
  /-- No request can be made to the address. -/
  | unsupported (address : List Char)
  /-- The request, or the response to it, is lost. A call is known by its first URL. -/
  | lost (origin : Url)
  /-- The server sends the call elsewhere once too often. -/
  | lastRedirect (url : Url)
  /-- The body of the response is not all there. -/
  | brokenBody
deriving DecidableEq, Repr

/-- The words for a failure. -/
def Failure.message : Failure → String
  | .unreadable => "builder error"
  | .unsupported address => "builder error for url (" ++ String.ofList address ++ ")"
  | .lost origin => "error sending request for url (" ++ String.ofList origin.text ++ ")"
  | .lastRedirect url => "error following redirect for url (" ++ String.ofList url.text ++ ")"
  | .brokenBody => "error decoding response body"

/-- What ends a call without a response. -/
inductive Fault where
  | timeout
  | failure (failure : Failure)
deriving DecidableEq, Repr, Inhabited

end Readiness.Http
