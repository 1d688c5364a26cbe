import Readiness.Http.Message
import Readiness.Number.Decimal
import Readiness.Text.Blank
import Readiness.Text.Hex
import Readiness.Text.Utf8

namespace Readiness.Http

/-! # Messages as bytes

A message is a head of lines, an empty line, and a body. How long a body is, the head says;
if it does not, the body ends with the connection.
-/

/-! ## Writing requests -/

/-- What a request asks for on its server. -/
def Request.target (request : Request) : List Char :=
  request.url.path.text ++ Url.marked '?' request.url.query

/-- The server of a request. -/
def Request.server (request : Request) : List Char :=
  { request.url.authority with credentials := none }.text

/-- The lines of the head of a request. The connection is used once. -/
def Request.head (request : Request) : List String :=
  [request.method.name ++ " " ++ String.ofList request.target ++ " HTTP/1.1",
    "Host: " ++ String.ofList request.server, "Accept: */*", "Connection: close"] ++
    (request.contentType.map fun contentType => "Content-Type: " ++ contentType).toList ++
    (if request.method = .post then
      ["Content-Length: " ++ toString (Text.toBytes request.body).length] else [])

/-- The bytes of a request. -/
def Request.bytes (request : Request) : List UInt8 :=
  Text.toBytes (String.join (request.head.map (· ++ "\r\n")) ++ "\r\n" ++ request.body)

/-! ## Reading heads -/

namespace Reply

/-- What stands in front of the first empty line, and what stands behind it. -/
def splitHead? : List UInt8 → Option (List UInt8 × List UInt8)
  | 13 :: 10 :: 13 :: 10 :: rest => some ([], rest)
  | b :: bytes => (splitHead? bytes).map fun (head, rest) => (b :: head, rest)
  | [] => none

theorem length_lt_of_splitHead? {bytes head rest : List UInt8}
    (h : splitHead? bytes = some (head, rest)) : rest.length < bytes.length := by
  induction bytes using splitHead?.induct generalizing head with
  | case1 bytes =>
    cases h
    simp only [List.length_cons]
    omega
  | case2 b bytes hmore ih =>
    rw [splitHead?, Option.map_eq_some_iff] at h
    · obtain ⟨⟨front, back⟩, hbytes, heq⟩ := h
      cases heq
      exact Nat.lt_succ_of_lt (ih hbytes)
    · exact hmore
  | case3 => cases h

/-- What every response begins with. -/
def mark : List Char := ['H', 'T', 'T', 'P', '/', '1', '.']

/-- The status in the first line of a response: the mark, a digit, and three digits. -/
def status? (line : List Char) : Option Status := do
  let version := line.drop mark.length
  if mark.isPrefixOf line && (version.drop 1).head? == some ' ' then
    Status.ofNat? (← (Decimal.readDigits 999 0 ((version.drop 2).take 3)).toOption)
  else
    none

/-- The name and the value in a line. -/
def header? (line : List Char) : Option (String × String) :=
  match line.span (· != ':') with
  | (name, _ :: value) => some (String.ofList name, String.ofList (Text.trim value))
  | (_, []) => none

/-- The status and the headers in a head. -/
def head? (head : List UInt8) : Option (Status × List (String × String)) :=
  match ((head.map Char.ofUInt8).filter (· != '\r')).splitOn '\n' with
  | [] => none
  | first :: lines => do return (← status? first, ← lines.mapM header?)

/-- The value of a header. -/
def value? (headers : List (String × String)) (name : String) : Option String :=
  (headers.find? fun header => sameHeader header.1 name).map (·.2)

/-! ## Reading bodies -/

/-- A body so far, and whether it is all there. -/
structure Received where
  body : List UInt8
  whole : Bool

/-- A chunk behind the line with its length, and what stands behind it. -/
def chunk? (bytes : List UInt8) : Option (List UInt8 × List UInt8) :=
  let digits := (bytes.map Char.ofUInt8).takeWhile fun c => (Text.hexDigit? c).isSome
  let size := digits.foldl (fun n c => 16 * n + (Text.hexDigit? c).getD 0) 0
  let behind := (bytes.dropWhile (· != 10)).drop 1
  if digits.isEmpty || behind.length < size + 2 then none
  else some (behind.take size, behind.drop (size + 2))

theorem length_lt_of_chunk? {bytes data rest : List UInt8} (h : chunk? bytes = some (data, rest)) :
    rest.length < bytes.length := by
  simp only [chunk?] at h
  split at h
  · simp at h
  · rename_i hlong
    obtain ⟨-, rfl⟩ := by simpa using h
    have hdrop := (List.dropWhile_suffix (l := bytes) (· != 10)).length_le
    simp only [Bool.or_eq_true, decide_eq_true_eq, not_or, Nat.not_lt, List.length_drop] at hlong ⊢
    omega

/-- The body that chunks make up. An empty chunk ends it. -/
def chunks (bytes : List UInt8) : Received :=
  match h : chunk? bytes with
  | none => ⟨[], false⟩
  | some ([], _) => ⟨[], true⟩
  | some (data, rest) =>
    have : rest.length < bytes.length := length_lt_of_chunk? h
    let later := chunks rest
    { later with body := data ++ later.body }
termination_by bytes.length

/-- The longest body that can be announced. -/
def maxLength : Nat := 18446744073709551615

/-- The length that a value announces. -/
def length? (value : String) : Option Nat := (Decimal.read maxLength value.toList).toOption

/-- The body of a response, as its headers announce it. -/
def body (headers : List (String × String)) (ended : Bool) (bytes : List UInt8) : Received :=
  if (value? headers "transfer-encoding").any (sameHeader · "chunked") then chunks bytes
  else
    match (value? headers "content-length").bind length? with
    | some length => ⟨bytes.take length, decide (length ≤ bytes.length)⟩
    | none => ⟨bytes, ended⟩

/-! ## Reading replies -/

/-- The reply that bytes are, unless more have to come; `ended` says that none will. What does
not answer the request is a head alone, and is passed over. The body is only waited for if
the request succeeded. -/
def ofBytes? (ended : Bool) (bytes : List UInt8) : Option Reply :=
  match h : splitHead? bytes with
  | none =>
    if ended && bytes.isEmpty then some .closed
    else if ended || (bytes.map Char.ofUInt8).take mark.length != mark.take bytes.length then
      some .garbled
    else none
  | some (head, rest) =>
    match head? head with
    | none => some .garbled
    | some (status, headers) =>
      if !status.isFinal && headers.all isHeader then
        have : rest.length < bytes.length := length_lt_of_splitHead? h
        ofBytes? ended rest
      else if status.isSuccess && !status.isBodiless then
        let read := body headers ended rest
        if read.whole then some (.ofResponse ⟨status, headers, read.body, .complete⟩)
        else if ended then some (.ofResponse ⟨status, headers, read.body, .cut⟩)
        else none
      else
        some (.ofResponse ⟨status, headers, [], .stalled⟩)
termination_by bytes.length

end Reply
end Readiness.Http
