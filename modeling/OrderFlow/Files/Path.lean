import OrderFlow.Text.Blank

/-! Paths as they are written: names separated by slashes. Joining and shortening work on the text
alone and never ask whether something exists. -/
namespace OrderFlow

/-- The text of a path. -/
abbrev Path := String

namespace Path

/-- The names of a path between its slashes. The first is empty for a path from the root. -/
def pieces (p : Path) : List (List Char) := Text.pieces '/' p.toList

def isRooted (p : Path) : Bool := p.toList.head? == some '/'

/-- May a path lead anywhere? It is then not too long, and holds no zero character. -/
def isUsable (p : Path) : Bool := p.utf8ByteSize < 4096 && !p.toList.contains '\x00'

/-- Names that are too long belong to nothing. -/
def isName (n : String) : Bool := n.utf8ByteSize ≤ 255

/-- The path to `q` from `p`. A path from the root stays itself. -/
def join (p q : Path) : Path :=
  if q.isRooted || p.isEmpty then q
  else if p.toList.getLast? == some '/' then p ++ q
  else p ++ "/" ++ q

/-- Drops what leads nowhere at the end of a path, given from the end: empty names and single
dots, but not the first name. -/
def settled : List (List Char) → List (List Char)
  | [] => []
  | [first] => [first]
  | n :: rest => if n = [] ∨ n = ['.'] then settled rest else n :: rest

/-- The text of a path given by its names from the end. -/
def ofReversed : List (List Char) → Path
  | [] => ""
  | [[]] => "/"
  | ns => String.ofList (Text.joined ['/'] ns.reverse)

/-- The path without its last name. The root and the empty path have none. -/
def parent? (p : Path) : Option Path :=
  match settled p.pieces.reverse with
  | [] => none
  | [[]] => none
  | [_] => some ""
  | _ :: rest => some (ofReversed (settled rest))

/-- The path itself, its parent, the parent of that, and so on, at most `n` of them. -/
def ancestors (p : Path) : Nat → List Path
  | 0 => []
  | n + 1 => p :: (parent? p).elim [] fun q => ancestors q n

/-- Has a file name something before a last `.json`? -/
def isJsonName (name : String) : Bool :=
  let cs := name.toList.reverse
  cs.take 5 == "nosj.".toList && !(cs.drop 5).isEmpty

example : join "data" "x" = "data/x" ∧ join "data/" "x" = "data/x" ∧ join "" "x" = "x" ∧
    join "a" "/x" = "/x" ∧ join "data" "" = "data/" := by decide +kernel
example : parent? "a/b/c/" = some "a/b" ∧ parent? "a" = some "" ∧ parent? "" = none ∧
    parent? "/a" = some "/" ∧ parent? "/" = none ∧ parent? "./a" = some "." ∧
    parent? "." = some "" ∧ parent? "a/b/../c" = some "a/b/.." := by decide +kernel
example : isJsonName "x.tar.json" ∧ ¬ isJsonName ".json" ∧ ¬ isJsonName "A.JSON" := by
  decide +kernel

end Path
end OrderFlow
