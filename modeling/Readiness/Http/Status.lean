namespace Readiness.Http

/-! # Status codes -/

/-- A status code has three digits. -/
structure Status where
  code : Nat
  three_digits : 100 ≤ code ∧ code < 1000
deriving DecidableEq, Repr

namespace Status

/-- The status with this code, if there is one. -/
def ofNat? (code : Nat) : Option Status :=
  if h : 100 ≤ code ∧ code < 1000 then some ⟨code, h⟩ else none

/-- Whether a response with this status answers its request. Behind any other the response
is still to come. -/
def isFinal (status : Status) : Bool := status.code == 101 || decide (200 ≤ status.code)

/-- Whether the request was answered as asked. -/
def isSuccess (status : Status) : Bool := status.code / 100 == 2

/-- Whether a response with this status never has a body. -/
def isBodiless (status : Status) : Bool := status.code == 204 || status.code == 304

/-- Whether a response with this status sends its reader elsewhere. -/
def isRedirect (status : Status) : Bool := [301, 302, 303, 307, 308].contains status.code

/-- Whether a request is repeated as it was when it is sent elsewhere. -/
def repeatsRequest (status : Status) : Bool := status.code == 307 || status.code == 308

/-- The names of the registered codes. -/
def reason? (status : Status) : Option String :=
  match status.code with
  | 100 => some "Continue"
  | 101 => some "Switching Protocols"
  | 102 => some "Processing"
  | 103 => some "Early Hints"
  | 200 => some "OK"
  | 201 => some "Created"
  | 202 => some "Accepted"
  | 203 => some "Non Authoritative Information"
  | 204 => some "No Content"
  | 205 => some "Reset Content"
  | 206 => some "Partial Content"
  | 207 => some "Multi-Status"
  | 208 => some "Already Reported"
  | 226 => some "IM Used"
  | 300 => some "Multiple Choices"
  | 301 => some "Moved Permanently"
  | 302 => some "Found"
  | 303 => some "See Other"
  | 304 => some "Not Modified"
  | 305 => some "Use Proxy"
  | 307 => some "Temporary Redirect"
  | 308 => some "Permanent Redirect"
  | 400 => some "Bad Request"
  | 401 => some "Unauthorized"
  | 402 => some "Payment Required"
  | 403 => some "Forbidden"
  | 404 => some "Not Found"
  | 405 => some "Method Not Allowed"
  | 406 => some "Not Acceptable"
  | 407 => some "Proxy Authentication Required"
  | 408 => some "Request Timeout"
  | 409 => some "Conflict"
  | 410 => some "Gone"
  | 411 => some "Length Required"
  | 412 => some "Precondition Failed"
  | 413 => some "Payload Too Large"
  | 414 => some "URI Too Long"
  | 415 => some "Unsupported Media Type"
  | 416 => some "Range Not Satisfiable"
  | 417 => some "Expectation Failed"
  | 418 => some "I'm a teapot"
  | 421 => some "Misdirected Request"
  | 422 => some "Unprocessable Entity"
  | 423 => some "Locked"
  | 424 => some "Failed Dependency"
  | 425 => some "Too Early"
  | 426 => some "Upgrade Required"
  | 428 => some "Precondition Required"
  | 429 => some "Too Many Requests"
  | 431 => some "Request Header Fields Too Large"
  | 451 => some "Unavailable For Legal Reasons"
  | 500 => some "Internal Server Error"
  | 501 => some "Not Implemented"
  | 502 => some "Bad Gateway"
  | 503 => some "Service Unavailable"
  | 504 => some "Gateway Timeout"
  | 505 => some "HTTP Version Not Supported"
  | 506 => some "Variant Also Negotiates"
  | 507 => some "Insufficient Storage"
  | 508 => some "Loop Detected"
  | 510 => some "Not Extended"
  | 511 => some "Network Authentication Required"
  | _ => none

/-- The code with its name. -/
def text (status : Status) : String :=
  toString status.code ++ " " ++ status.reason?.getD "<unknown status code>"

end Status
end Readiness.Http
