import Readiness.Url.Encoding

namespace Readiness.Url

/-! # Paths

A path is its segments. A segment that is one dot stands for nothing, and one that is two
dots takes back the segment before it; a dot may also be written as `%2e`. A path never
climbs above its root, nor above a segment that names a drive.
-/

/-- The segments of a path in order, encoded. -/
abbrev Path := List (List Char)

namespace Path

/-- A segment with every encoded dot written out. -/
def plainDots : List Char → List Char
  | '%' :: '2' :: 'e' :: text => '.' :: plainDots text
  | '%' :: '2' :: 'E' :: text => '.' :: plainDots text
  | c :: text => c :: plainDots text
  | [] => []

/-- Whether a segment stands for nothing. -/
def isHere (segment : List Char) : Bool := plainDots segment == ['.']

/-- Whether a segment takes back the one before it. -/
def isUp (segment : List Char) : Bool := plainDots segment == ['.', '.']

/-- Whether a segment names a drive: a letter and a colon or a bar. -/
def isDrive : List Char → Bool
  | [letter, mark] => letter.isAlpha && (mark == ':' || mark == '|')
  | _ => false

/-- A trail, which lists segments from the last one back, without its last segment. -/
def climb : Path → Path
  | [] => []
  | segment :: trail => if isDrive segment then segment :: trail else trail

/-- A trail after one more segment. -/
def step (trail : Path) (segment : List Char) : Path :=
  if isHere segment then trail
  else if isUp segment then climb trail
  else encode pathSet segment :: trail

/-- The path that leads from a directory along the segments of a text. If the last of
them leaves no segment of its own, the path ends at a directory. -/
def follow (directory : Path) (segments : List (List Char)) : Path :=
  -- the trail grows at its head, so the segment to take back is at hand
  let trail := segments.foldl step directory.reverse
  let ended := (segments.getLast?.map fun last => isHere last || isUp last).getD false
  (if ended then [] :: trail else trail).reverse

/-- Whether the way from a trail along segments enters a drive at the root. -/
def entersDrive (trail : Path) : List (List Char) → Bool
  | [] => false
  | segment :: segments =>
    (trail.isEmpty && isDrive segment) || entersDrive (step trail segment) segments

/-- A path without the empty segments in front of it. -/
def trimmed (path : Path) : Path :=
  match path.dropWhile List.isEmpty with
  | [] => [[]]
  | segment :: path => segment :: path

/-- The text of a path: every segment behind a slash. -/
def text (path : Path) : List Char := path.flatMap ('/' :: ·)

end Path
end Readiness.Url
