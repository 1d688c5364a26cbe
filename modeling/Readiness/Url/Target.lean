import Readiness.Url.Reader

namespace Readiness.Url

/-! # Where a reference leads

A response may send its reader elsewhere. What it says is read from the URL that was asked:
it may begin anew, keep the server, keep the path, or only change the query.
-/

/-- What a reference leads to: an address on a server, or a name of some other kind. -/
inductive Target where
  | address (url : Url)
  | foreign (name : List Char)
deriving DecidableEq, Repr

/-- The text that tells a target, without a fragment. -/
def Target.text : Target → List Char
  | .address url => url.withoutFragment.told
  | .foreign name => name

variable [Idna]

/-- Follows a reference without a scheme from a URL. Two separators begin a server, one
begins a path; otherwise the path goes on from the directory of the URL. -/
def relative? (base : Url) (text : List Char) (reference : Reference) : Option Url :=
  let onServer (path : Path) : Url := ofParts base.scheme base.authority path reference
  match text.span base.scheme.isSeparator with
  | ([], []) =>
    if reference.query.isSome then some (onServer base.path)
    else some { onServer base.path with query := base.query }
  | ([], _) => some (onServer (Path.follow base.path.dropLast (segments base.scheme text)))
  | ([_], path) => some (onServer (Path.follow [] (segments base.scheme path)))
  -- a third slash behind two of them leaves the server without a name
  | ('/' :: '/' :: more, place) => readPlace? base.scheme (more ++ place) reference
  | (_, place) => readPlace? base.scheme place reference

/-- Reads a name of some other kind: what stands behind a scheme that is not special. -/
def readForeign? (scheme : Scheme) (text : List Char) (reference : Reference) :
    Option (List Char) :=
  match scheme, reference.query, reference.fragment with
  | .other name, none, none => some (name ++ ':' :: encode controlSet text)
  | _, _, _ => none

/-- Whether a request can be made to a target, or at least be named. A name of another kind
is taken for that of a server, so it has to be made like one. -/
def Target.isNamed : Target → Bool
  | .address url => url.isSendable
  | .foreign name => ServerName.isValid name && decide (name.length ≤ maxLength)

/-- The target of a reference that is read from a URL, if there is one that a request can
name. A scheme of its own begins anew, unless it is the scheme of the URL and no server
follows. -/
def resolve? (base : Url) (text : List Char) : Option Target :=
  let reference := Reference.ofText text
  let found : Option Target :=
    match Scheme.split? reference.body with
    | none => (relative? base reference.body reference).map .address
    | some (scheme, rest) =>
      -- `http:x` in an `http` URL is `x`
      if scheme = base.scheme ∧ (rest.takeWhile scheme.isSeparator).length < 2 then
        (relative? base rest reference).map .address
      else
        ((readBehind? scheme rest reference).map .address).or
          ((readForeign? scheme rest reference).map .foreign)
  found.filter Target.isNamed

end Readiness.Url
