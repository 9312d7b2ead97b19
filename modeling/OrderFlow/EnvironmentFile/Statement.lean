import OrderFlow.EnvironmentFile.Value

/-! A file of assignments, `NAME=value`, each on a line of its own. A value with quotes may go on
over several lines. Lines that hold nothing, or only a comment, are passed over. -/
namespace OrderFlow.EnvironmentFile
open Settings (Environment)

/-- Where a statement stands. A mark after a single blank opens a comment. -/
inductive Scan where
  | start
  | plain
  | blank
  | comment
  | quoted (quote : Char)
  | escaped (quote : Option Char)
  deriving DecidableEq

namespace Scan

/-- Outside quotes. -/
def ofChar (c : Char) : Scan :=
  if c = '\\' then escaped none
  else if c = '"' ∨ c = '\'' then quoted c
  else plain

def step : Scan → Char → Scan
  | start, c => if c = '#' then comment else if Text.isBlank c then start else ofChar c
  | plain, c => if Text.isBlank c && c != '\r' then blank else ofChar c
  | blank, c => if c = '#' then comment else ofChar c
  | comment, _ => comment
  | quoted q, c => if c = '\\' then escaped (some q) else if c = q then plain else quoted q
  | escaped none, _ => plain
  | escaped (some q), _ => quoted q

/-- Does a line feed here end the statement? -/
def endsLine : Scan → Bool
  | quoted _ | escaped (some _) => false
  | _ => true

/-- May the text end here? -/
def endsText : Scan → Bool
  | start | plain | comment => true
  | _ => false

end Scan

/-- The statements of a text without their comments. A last one that is not finished is left
out. -/
def statements : Scan → List Char → List (List Char)
  | s, [] => if s.endsText then [[]] else []
  | s, c :: r =>
    if c = '\n' && s.endsLine then [] :: statements .start r
    else
      let next := s.step c
      match statements next r with
      | [] => []
      | line :: rest => (if next = .comment then line else c :: line) :: rest

def isNameStart (c : Char) : Bool := c.isAlpha || c == '_'

def isNameChar (c : Char) : Bool := c.isAlphanum || c == '_' || c == '.'

/-- A name and what follows it. -/
def name? (cs : List Char) : Option (String × List Char) :=
  match cs with
  | c :: _ =>
    if isNameStart c then some (String.ofList (cs.takeWhile isNameChar), cs.dropWhile isNameChar)
    else none
  | [] => none

def skipBlank (cs : List Char) : List Char := cs.dropWhile Text.isBlank

/-- What follows an equals sign after blanks. -/
def afterEquals? (cs : List Char) : Option (List Char) :=
  match skipBlank cs with
  | '=' :: r => some (skipBlank r)
  | _ => none

/-- A name before an equals sign and what follows that. The word `export` may stand in front. -/
def target? (cs : List Char) : Option (String × List Char) := do
  let (name, rest) ← name? cs
  match afterEquals? rest with
  | some value => return (name, value)
  | none =>
    if name = "export" then
      let (name, rest) ← name? (skipBlank rest)
      return (name, ← afterEquals? rest)
    else none

/-- Is there nothing, or a comment? -/
def isVoid (cs : List Char) : Bool :=
  match cs with
  | [] => true
  | c :: _ => c = '#'

/-- The assignment that a trimmed statement makes. -/
def assignment? (env : Environment) (cs : List Char) : Option (String × String) := do
  let (name, value) ← target? cs
  if isVoid value then return (name, "") else return (name, ← value? env value)

/-- A variable keeps a value that it has. -/
def assign (env : Environment) (name value : String) : Environment :=
  fun n => (env n).or (if n = name then some value else none)

/-- Can a variable that is not set take a value? -/
def isUsable (value : String) : Bool := !value.toList.contains '\x00'

/-- The environment after statements, as far as they can be read. -/
def extend (env : Environment) : List (List Char) → Outcome Environment
  | [] => .ok env
  | line :: rest =>
    let cs := Text.trimmed line
    if isVoid cs then extend env rest
    else
      match assignment? env cs with
      | some (name, value) =>
        if (env name).isSome || isUsable value then extend (assign env name value) rest
        else fail (.unusableVariable name)
      | none => .ok env

def withoutByteOrderMark : List Char → List Char
  | '\uFEFF' :: r => r
  | cs => cs

/-- The environment with the variables that a file adds. -/
def load (env : Environment) (text : String) : Outcome Environment :=
  extend env (statements .start (withoutByteOrderMark text.toList))

end OrderFlow.EnvironmentFile
