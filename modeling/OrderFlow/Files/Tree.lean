import OrderFlow.Files.Path

/-! A tree of directories and files, as a finite map from places to what stands there. -/
namespace OrderFlow

/-- What a file holds, kept the way it was written. -/
inductive Content where
  | text (s : String)
  | bytes (b : ByteArray)

namespace Content

/-- The content as text, if it is. -/
def text? : Content → Option String
  | .text s => some s
  | .bytes b => String.fromUTF8? b

def toBytes : Content → ByteArray
  | .text s => s.toUTF8
  | .bytes b => b

end Content

/-- The names that lead to a place from the root, innermost first. -/
abbrev Place := List String

inductive Entry where
  | directory
  | file (content : Content)

/-- Everything that exists besides the root, and where relative paths start. -/
structure FileTree where
  entries : List (Place × Entry)
  start : Place

namespace FileTree

def empty : FileTree := ⟨[], []⟩

/-- What stands at a place. -/
def at? (t : FileTree) (p : Place) : Option Entry :=
  if p.isEmpty then some .directory else t.entries.lookup p

def isDirectoryAt (t : FileTree) (p : Place) : Bool :=
  match t.at? p with
  | some .directory => true
  | _ => false

/-- Where some names lead from a place; each step has to start in a directory. -/
def follow (t : FileTree) (p : Place) : List (List Char) → Option Place
  | [] => some p
  | n :: rest =>
    if !t.isDirectoryAt p then none
    else if n = [] ∨ n = ['.'] then t.follow p rest
    else if n = ['.', '.'] then t.follow p.tail rest
    else t.follow (String.ofList n :: p) rest

/-- Where the names of a path start from. -/
def origin (t : FileTree) (p : Path) : Place := if p.isRooted then [] else t.start

/-- Where a path leads. The empty path leads nowhere. -/
def place? (t : FileTree) (p : Path) : Option Place :=
  if p.isEmpty || !p.isUsable then none else t.follow (t.origin p) p.pieces

def get? (t : FileTree) (p : Path) : Option Entry := (t.place? p).bind t.at?

def exists? (t : FileTree) (p : Path) : Bool := (t.get? p).isSome

def isDirectory (t : FileTree) (p : Path) : Bool :=
  match t.get? p with
  | some .directory => true
  | _ => false

def isFile (t : FileTree) (p : Path) : Bool :=
  match t.get? p with
  | some (.file _) => true
  | _ => false

/-- The content of a file. -/
def content? (t : FileTree) (p : Path) : Option Content :=
  match t.get? p with
  | some (.file c) => some c
  | _ => none

/-- The text of a file that holds text. -/
def text? (t : FileTree) (p : Path) : Option String := (t.content? p).bind Content.text?

/-- The name of a place directly inside another. -/
def childName? (directory : Place) : Place → Option String
  | [] => none
  | n :: rest => if rest = directory then some n else none

/-- The names directly inside a directory, in order. -/
def names (t : FileTree) (p : Path) : List String :=
  match t.place? p with
  | none => []
  | some d => (t.entries.filterMap fun e => childName? d e.1).mergeSort fun a b => !(b < a)

def setAt (p : Place) (e : Entry) : List (Place × Entry) → List (Place × Entry)
  | [] => [(p, e)]
  | (q, f) :: rest => if q = p then (p, e) :: rest else (q, f) :: setAt p e rest

/-- Puts an entry at a place. -/
def put (t : FileTree) (p : Place) (e : Entry) : FileTree := { t with entries := setAt p e t.entries }

/-- Writes a file into a directory that exists; a directory is not replaced. -/
def write? (t : FileTree) (p : Path) (c : Content) : Option FileTree := do
  let place ← t.place? p
  match place with
  | [] => none
  | name :: directory =>
    if Path.isName name && t.isDirectoryAt directory && !t.isDirectoryAt place then
      return t.put place (.file c)
    else none

/-- Makes the directories that some names lead through, where they are missing. Those before one
that cannot be made stay, and the answer is then false. -/
def make (t : FileTree) (p : Place) : List (List Char) → Bool × FileTree
  | [] => (true, t)
  | n :: rest =>
    if n = [] ∨ n = ['.'] then t.make p rest
    else if n = ['.', '.'] then t.make p.tail rest
    else
      let name := String.ofList n
      match t.at? (name :: p) with
      | none =>
        if Path.isName name then (t.put (name :: p) .directory).make (name :: p) rest else (false, t)
      | some .directory => t.make (name :: p) rest
      | some (.file _) => (false, t)

/-- Makes a directory with all directories above it, as far as that goes. -/
def makeDirectories (t : FileTree) (p : Path) : Bool × FileTree :=
  if p.isUsable then t.make (t.origin p) p.pieces else (false, t)

/-- Removes a file. -/
def remove? (t : FileTree) (p : Path) : Option FileTree :=
  if t.isFile p then
    (t.place? p).map fun place => { t with entries := t.entries.filter (·.1 != place) }
  else none

/-- The places of all files. -/
def files (t : FileTree) : List Place :=
  t.entries.filterMap fun e => match e.2 with
    | .file _ => some e.1
    | .directory => none

@[simp] theorem at?_root (t : FileTree) : t.at? [] = some .directory := rfl

theorem lookup_setAt (p q : Place) (e : Entry) (es : List (Place × Entry)) :
    (setAt p e es).lookup q = if q = p then some e else es.lookup q := by
  induction es with
  | nil =>
    by_cases h : q = p
    · simp [setAt, h]
    · simp [setAt, h, List.lookup_cons, beq_eq_false_iff_ne.2 h]
  | cons head rest ih =>
    obtain ⟨r, f⟩ := head
    by_cases hr : r = p
    · subst hr
      by_cases h : q = r
      · simp [setAt, h]
      · simp [setAt, h, List.lookup_cons, beq_eq_false_iff_ne.2 h]
    · by_cases h : q = r
      · subst h
        simp [setAt, hr]
      · simp [setAt, hr, List.lookup_cons, beq_eq_false_iff_ne.2 h, ih]

/-- A put entry is found at its place, and nothing else changes. -/
theorem at?_put {t : FileTree} {p : Place} (hp : p ≠ []) (e : Entry) (q : Place) :
    (t.put p e).at? q = if q = p then some e else t.at? q := by
  by_cases hq : q = []
  · subst hq
    simp [hp.symm]
  · simp [at?, put, hq, lookup_setAt]

end FileTree
end OrderFlow
