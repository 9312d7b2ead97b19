import OrderFlow.Json.Number

/-! Reading JSON text. `parse?` keeps the members of objects as written; `document?` also sorts
them, and refuses what has no value or is nested too deeply. -/
namespace OrderFlow.Json
open OrderFlow.Text

def isSpace (c : Char) : Bool := c = ' ' || c = '\n' || c = '\t' || c = '\r'

def skipBlank (cs : List Char) : List Char := cs.dropWhile isSpace

def hex4? (a b c d : Char) : Option Nat := do
  let a ← hexValue? a
  let b ← hexValue? b
  let c ← hexValue? c
  let d ← hexValue? d
  return ((a * 16 + b) * 16 + c) * 16 + d

/-- The character after a backslash that stands for itself or a control character. -/
def escaped? : Char → Option Char
  | '"' => some '"'
  | '\\' => some '\\'
  | '/' => some '/'
  | 'b' => some '\x08'
  | 'f' => some '\x0c'
  | 'n' => some '\n'
  | 'r' => some '\r'
  | 't' => some '\t'
  | _ => none

/-- Characters read so far, or none after half a surrogate pair. -/
abbrev Content := Option (List Char)

def Content.push (c : Char) (r : Content × List Char) : Content × List Char :=
  (r.1.map (c :: ·), r.2)

def isHighSurrogate (n : Nat) : Bool := 0xD800 ≤ n && n ≤ 0xDBFF

def isLowSurrogate (n : Nat) : Bool := 0xDC00 ≤ n && n ≤ 0xDFFF

/-- Reads a string after its opening quote. -/
def stringBody : List Char → Option (Content × List Char)
  | [] => none
  | '"' :: r => some (some [], r)
  | '\\' :: 'u' :: a :: b :: c :: d :: '\\' :: 'u' :: e :: f :: g :: h :: r => do
    let high ← hex4? a b c d
    if isHighSurrogate high then
      let low ← hex4? e f g h
      let tail ← stringBody r
      if isLowSurrogate low then
        return Content.push (Char.ofNat (0x10000 + (high - 0xD800) * 0x400 + (low - 0xDC00))) tail
      else return (none, tail.2)
    else
      let tail ← stringBody ('\\' :: 'u' :: e :: f :: g :: h :: r)
      if isLowSurrogate high then return (none, tail.2)
      else return Content.push (Char.ofNat high) tail
  | '\\' :: 'u' :: a :: b :: c :: d :: r => do
    let n ← hex4? a b c d
    let tail ← stringBody r
    if isHighSurrogate n || isLowSurrogate n then return (none, tail.2)
    else return Content.push (Char.ofNat n) tail
  | '\\' :: c :: r => do
    let c ← escaped? c
    let tail ← stringBody r
    return Content.push c tail
  | c :: r => do
    if c.toNat < 32 || c = '\\' then none
    else
      let tail ← stringBody r
      return Content.push c tail

def stringOf : Content → Json
  | some cs => .string (String.ofList cs)
  | none => .unreadable

/-- An object, which cannot be read where one of its keys cannot. -/
def objectOf (ms : List (Content × Json)) : Json :=
  match ms.mapM fun m => m.1.map fun key => (String.ofList key, m.2) with
  | some ms => .object ms
  | none => .unreadable

def literal? : List Char → Option (Json × List Char)
  | 't' :: 'r' :: 'u' :: 'e' :: r => some (.bool true, r)
  | 'f' :: 'a' :: 'l' :: 's' :: 'e' :: r => some (.bool false, r)
  | 'n' :: 'u' :: 'l' :: 'l' :: r => some (.null, r)
  | _ => none

mutual

/-- Reads a value from the front of a text. Each step below takes at least one character, so the
length of the text is fuel enough. -/
def value (fuel : Nat) (cs : List Char) : Option (Json × List Char) :=
  match fuel with
  | 0 => none
  | fuel + 1 =>
    match skipBlank cs with
    | '"' :: r => (stringBody r).map fun (content, rest) => (stringOf content, rest)
    | '[' :: r =>
      match skipBlank r with
      | ']' :: rest => some (.array [], rest)
      | r => (items fuel r).map fun (js, rest) => (.array js, rest)
    | '{' :: r =>
      match skipBlank r with
      | '}' :: rest => some (.object [], rest)
      | r => (members fuel r).map fun (ms, rest) => (objectOf ms, rest)
    | c :: r => if c = '-' || isDigit c then number (c :: r) else literal? (c :: r)
    | [] => none

/-- Reads the items of an array up to its closing bracket. -/
def items (fuel : Nat) (cs : List Char) : Option (List Json × List Char) :=
  match fuel with
  | 0 => none
  | fuel + 1 => do
    let (j, r) ← value fuel cs
    match skipBlank r with
    | ']' :: rest => return ([j], rest)
    | ',' :: r =>
      let (js, rest) ← items fuel r
      return (j :: js, rest)
    | _ => none

/-- Reads the members of an object up to its closing brace. -/
def members (fuel : Nat) (cs : List Char) : Option (List (Content × Json) × List Char) :=
  match fuel with
  | 0 => none
  | fuel + 1 => do
    match skipBlank cs with
    | '"' :: r =>
      let (key, r) ← stringBody r
      match skipBlank r with
      | ':' :: r =>
        let (j, r) ← value fuel r
        match skipBlank r with
        | '}' :: rest => return ([(key, j)], rest)
        | ',' :: r =>
          let (ms, rest) ← members fuel r
          return ((key, j) :: ms, rest)
        | _ => none
      | _ => none
    | _ => none

end

/-- The value that a text writes, members as written. -/
def parse? (s : String) : Option Json := do
  let cs := s.toList
  let (j, rest) ← value (2 * cs.length + 2) cs
  if (skipBlank rest).isEmpty then some j else none

/-- The value that a text writes, with sorted members and at most 127 levels of nesting. -/
def document? (s : String) : Option Json := do
  let j ← parse? s
  if j.depth ≤ 127 then j.normal else none

end OrderFlow.Json
