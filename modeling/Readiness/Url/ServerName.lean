namespace Readiness.Url.ServerName

/-! # Names of servers in requests

A request names a server in one stretch: credentials up to the last `@`, a name or an
address in brackets, and a port behind a colon. Only the marks are looked at here, not what
they set apart: colons count from the last `@` or bracket on, where at most one of them may
stand, and something encoded has to be closed off by one of the two.
-/

/-- Whether a character may stand anywhere in the name of a server. -/
def isPlain (c : Char) : Bool :=
  c.isAlphanum || ['!', '$', '&', '\'', '(', ')', '*', '+', ',', '-', '.', ';', '=', '_',
    '~'].contains c

/-- How many colons may follow each other without a mark that sets them apart: those of an
address in brackets, and that of a port. -/
def maxColons : Nat := 8

/-- What has been read of a name: the colons and whether something encoded stood there, both
since the last mark, and the brackets. -/
structure State where
  colons : Nat
  encoded : Bool
  opened : Bool
  closed : Bool
deriving DecidableEq, Repr

namespace State

/-- Nothing has been read. -/
def start : State := ⟨0, false, false, false⟩

/-- The state behind a mark that sets apart what stands in front of it. -/
def settled (state : State) : State := { state with colons := 0, encoded := false }

/-- The state behind one more character, if it may stand there. -/
def push? (state : State) (c : Char) : Option State :=
  if isPlain c then some state
  else
    match c with
    | ':' =>
      if state.colons < maxColons then some { state with colons := state.colons + 1 } else none
    | '%' => some { state with encoded := true }
    | '@' => some state.settled
    | '[' => if state.encoded || state.opened then none else some { state with opened := true }
    | ']' =>
      if state.opened && !state.closed then some { state.settled with closed := true } else none
    | _ => none

/-- Whether a name may end here. -/
def isComplete (state : State) : Bool :=
  state.opened == state.closed && decide (state.colons ≤ 1) && !state.encoded

end State

/-- Whether a text can name a server in a request. -/
def isValid (name : List Char) : Bool :=
  !name.isEmpty && name.getLast? != some '@' &&
    (name.foldlM State.push? State.start).any State.isComplete

end Readiness.Url.ServerName
