import Readiness.Json.Numeral

namespace Readiness

/-! # JSON documents

A document keeps its numerals as they were read and its members in the order of the
text, repeated keys included. Looking up a key finds its last member.
-/

/-- A JSON value. -/
inductive Json where
  | null
  | bool (value : Bool)
  | number (numeral : Numeral)
  | string (text : String)
  | array (items : List Json)
  | object (members : List (String × Json))

namespace Json

/-- The value of the last member with this key. -/
def lastMember (key : String) (members : List (String × Json)) : Option Json :=
  members.reverse.lookup key

/-- The value under a key of an object; nothing for any other value. -/
def get? (json : Json) (key : String) : Option Json :=
  match json with
  | .object members => lastMember key members
  | _ => none

/-- The value at the end of a path of keys, through objects only. -/
def at? (json : Json) : List String → Option Json
  | [] => some json
  | key :: path => (json.get? key).bind fun inner => inner.at? path

/-- The natural number of 64 bits that the value is, if it is one. -/
def natural? : Json → Option Nat
  | .number numeral => numeral.natural?
  | _ => none

end Json
end Readiness
