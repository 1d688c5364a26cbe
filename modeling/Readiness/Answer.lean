import Readiness.Json.Reader
import Readiness.ProbeError

namespace Readiness

/-! # The answer to the question

The endpoint is asked for the latest block of a deployment. An answer that carries any data
at all says that the deployment is ready; the number of the block is only told along.
-/

/-- What a ready deployment told about itself: the latest block, when the answer says it. -/
structure Progress where
  block : Option Nat := none
deriving DecidableEq, Repr

namespace Answer

/-- The keys on the way from the data to the number of the block. -/
def blockPath : List String := ["_meta", "block", "number"]

/-- The message of one reported error: an object with a message, or a list of nothing but
the message. -/
def message? : Json → Option String
  | .object members =>
    match Json.lastMember "message" members with
    | some (.string text) => some text
    | _ => none
  | .array [.string text] => some text
  | _ => none

/-- The messages of reported errors. They are kept only if every one of them is understood. -/
def messages (errors : Option Json) : List String :=
  match errors with
  | some (.array items) => (items.mapM message?).getD []
  | _ => []

/-- The verdict on a document. -/
def judge (document : Json) : Except ProbeError Progress :=
  match document with
  | .object members =>
    match Json.lastMember "data" members with
    | none | some .null => .error (.noData (messages (Json.lastMember "errors" members)))
    | some data => .ok ⟨(data.at? blockPath).bind Json.natural?⟩
  | _ => .error .unexpectedShape

/-- The verdict on the body of a response. -/
def evaluate (body : List UInt8) : Except ProbeError Progress :=
  match Json.read body with
  | .error fault => .error (.invalidJson fault.message)
  | .ok document => judge document

end Answer
end Readiness
