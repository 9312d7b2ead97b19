import OrderFlow.Settings.Environment
import OrderFlow.Text.Alphanumeric

/-! The value of an assignment. Single quotes keep their text as it is; double quotes keep blanks;
a backslash keeps one of a few characters. Outside single quotes `$NAME` and a name in braces after
`$` stand for the value of a variable, or nothing where it is not set. A blank ends the value, and
only a comment may follow. -/
namespace OrderFlow.EnvironmentFile
open Settings (Environment)

/-- What the next character of a value is part of. `quoted` tells whether double quotes are open,
and a name holds the characters read of it. -/
inductive Part where
  | plain (quoted : Bool)
  | single
  | escape (quoted : Bool)
  | name (quoted : Bool) (read : List Char)
  | braces (quoted : Bool) (read : List Char)
  | tail
  | comment

namespace Part

/-- The value of a variable. -/
def named (env : Environment) (name : List Char) : List Char :=
  ((env (String.ofList name)).getD "").toList

/-- The character that stands for itself, or a line feed for `n`, after a backslash. -/
def escaped? (c : Char) : Option Char :=
  if c = 'n' then some '\n'
  else if c = '\\' ∨ c = '\'' ∨ c = '"' ∨ c = '$' ∨ c = ' ' then some c
  else none

/-- Reads a character: what comes next, and what it adds to the value. Right after a name every
character but a dollar is kept as it is. -/
def step? (env : Environment) : Part → Char → Option (Part × List Char)
  | plain quoted, c =>
    if c = '$' then some (name quoted [], [])
    else if c = '\\' then some (escape quoted, [])
    else if c = '"' then some (plain !quoted, [])
    else if quoted then some (plain quoted, [c])
    else if c = '\'' then some (single, [])
    else if c = ' ' ∨ c = '\t' then some (tail, [])
    else some (plain quoted, [c])
  | single, c => some (if c = '\'' then (plain false, []) else (single, [c]))
  | escape quoted, c => (escaped? c).map fun d => (plain quoted, [d])
  | name quoted read, c =>
    if Text.isAlphanumeric c then some (name quoted (read ++ [c]), [])
    else if c = '{' ∧ read = [] then some (braces quoted [], [])
    else if c = '$' then some (name quoted [], named env read)
    else some (plain quoted, named env read ++ [c])
  | braces quoted read, c =>
    if c = '}' then some (plain quoted, named env read)
    else some (braces quoted (read ++ [c]), [])
  | tail, c =>
    if c = ' ' ∨ c = '\t' then some (tail, [])
    else if c = '#' then some (comment, [])
    else none
  | comment, _ => some (comment, [])

/-- What the end of a value adds to it; none where quotes or braces are open. -/
def finish? (env : Environment) : Part → Option (List Char)
  | plain false | escape false | tail | comment => some []
  | name false read => some (named env read)
  | _ => none

end Part

/-- The value that characters write, from a part on. -/
def valueFrom? (env : Environment) : Part → List Char → Option (List Char)
  | p, [] => p.finish? env
  | p, c :: r => do
    let (next, written) ← p.step? env c
    return written ++ (← valueFrom? env next r)

/-- The value that characters write. -/
def value? (env : Environment) (cs : List Char) : Option String :=
  (valueFrom? env (.plain false) cs).map String.ofList

end OrderFlow.EnvironmentFile
