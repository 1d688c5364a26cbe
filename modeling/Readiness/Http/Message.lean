import Readiness.Http.Fault
import Readiness.Http.Status

namespace Readiness.Http

/-! # Requests and responses -/

/-- What is asked of a server. -/
inductive Method where
  | get
  | post
deriving DecidableEq, Repr

/-- The name of a method. -/
def Method.name : Method → String
  | .get => "GET"
  | .post => "POST"

/-! ## Requests -/

/-- A request. -/
structure Request where
  method : Method
  url : Url
  contentType : Option String
  body : String
deriving DecidableEq, Repr

namespace Request

/-- A request that asks for what is there. -/
def get (url : Url) : Request := ⟨.get, url, none, ""⟩

/-- A request that brings something. -/
def post (url : Url) (contentType body : String) : Request := ⟨.post, url, some contentType, body⟩

/-- The request that is made when another is sent elsewhere. Unless the status asks to
repeat it, only the question what is there is left of it. -/
def redirected (request : Request) (status : Status) (url : Url) : Request :=
  if status.repeatsRequest then { request with url := url.withoutFragment }
  else .get url.withoutFragment

end Request

/-! ## Responses -/

/-- How much of a body arrives. -/
inductive Delivery where
  /-- All of it. -/
  | complete
  /-- A part, and then the connection ends. -/
  | cut
  /-- A part, and then nothing. -/
  | stalled
deriving DecidableEq, Repr

/-- What a server says to a request. Its body may still be on its way. -/
structure Message where
  status : Status
  headers : List (String × String)
  body : List UInt8
  delivery : Delivery
deriving DecidableEq, Repr

/-- A response: what answers a request. -/
structure Response extends Message where
  final : status.isFinal = true
deriving DecidableEq, Repr

/-- Whether the name of a header may hold a character. -/
def isHeaderNameChar (c : Char) : Bool :=
  c.isAlphanum || ['!', '#', '$', '%', '&', '\'', '*', '+', '-', '.', '^', '_', '`', '|',
    '~'].contains c

/-- Whether the value of a header may hold a character. -/
def isHeaderValueChar (c : Char) : Bool := c == '\t' || (' ' ≤ c && c != '\x7f')

/-- Whether a header is made as headers have to be. -/
def isHeader (header : String × String) : Bool :=
  !header.1.isEmpty && header.1.toList.all isHeaderNameChar &&
    header.2.toList.all isHeaderValueChar

/-- Whether two names of headers are the same: their case does not count. -/
def sameHeader (a b : String) : Bool := a.toList.map Char.toLower == b.toList.map Char.toLower

/-- Where a response sends its reader: the first header that says so. -/
def Response.location? (response : Response) : Option String :=
  (response.headers.find? fun header => sameHeader header.1 "location").map (·.2)

/-- The body of a response, once all of it has arrived. Some responses have none. -/
def Response.content (response : Response) : Except Fault (List UInt8) :=
  if response.status.isBodiless then .ok []
  else
    match response.delivery with
    | .complete => .ok response.body
    | .cut => .error (.failure .brokenBody)
    | .stalled => .error .timeout

/-! ## Replies -/

/-- What becomes of a request. -/
inductive Reply where
  /-- The connection ends before the request is read. -/
  | refused
  /-- The connection ends without a response. -/
  | closed
  /-- What comes back is no response. -/
  | garbled
  /-- Nothing comes back. -/
  | silent
  /-- A response comes back. -/
  | response (response : Response)
deriving DecidableEq, Repr

/-- The reply that a message is, if none follows it: one with a header that is none cannot be
read, and one that does not answer the request is passed over. -/
def Reply.ofResponse (message : Message) : Reply :=
  if message.headers.all isHeader then
    if h : message.status.isFinal = true then .response ⟨message, h⟩
    else if message.delivery = .stalled then .silent
    else .closed
  else .garbled

/-- Whether the request has been read. -/
def Reply.isRead : Reply → Bool
  | .refused => false
  | .closed | .garbled | .silent | .response _ => true

end Readiness.Http
