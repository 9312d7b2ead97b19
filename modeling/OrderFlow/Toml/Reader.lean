import OrderFlow.Binary.Reader
import OrderFlow.Toml.Moment
import OrderFlow.Toml.Value

/-! Reading TOML text: comments, dotted and quoted keys, the four kinds of strings, numbers, dates
and times, booleans, arrays, inline tables and table headers. Arrays of tables are refused. -/
namespace OrderFlow.Toml
open OrderFlow.Text

def isBlank (c : Char) : Bool := c = ' ' || c = '\t'

def skipBlank (cs : List Char) : List Char := cs.dropWhile isBlank

/-- Characters that may stand in comments and strings as they are. -/
def isPlain (c : Char) : Bool := c = '\t' || (32 ≤ c.toNat && c.toNat != 127)

def isBareKey (c : Char) : Bool :=
  isDigit c || ('a' ≤ c && c ≤ 'z') || ('A' ≤ c && c ≤ 'Z') || c = '_' || c = '-'

/-- A newline, with or without a carriage return before it. -/
def newline? : List Char → Option (List Char)
  | '\n' :: r => some r
  | '\r' :: '\n' :: r => some r
  | _ => none

/-- Skips a comment up to the end of its line. -/
def skipComment (cs : List Char) : List Char :=
  match cs with
  | '#' :: r => r.dropWhile isPlain
  | r => r

/-- Skips blanks and a comment, then the end of the line or of the text. -/
def endOfLine? (cs : List Char) : Option (List Char) :=
  match skipComment (skipBlank cs) with
  | [] => some []
  | r => newline? r

/-- Skips blanks, comments and newlines. -/
def skipLines : Nat → List Char → List Char
  | 0, cs => cs
  | fuel + 1, cs =>
    let r := skipComment (skipBlank cs)
    match newline? r with
    | some r => skipLines fuel r
    | none => r

def digitOfBase? (base : Nat) (c : Char) : Option Nat :=
  let n :=
    if isDigit c then some (digitValue c)
    else if 'a' ≤ c ∧ c ≤ 'f' then some (c.toNat - 87)
    else if 'A' ≤ c ∧ c ≤ 'F' then some (c.toNat - 55)
    else none
  n.filter (· < base)

def valueInBase? (base : Nat) (cs : List Char) : Option Nat :=
  if cs.isEmpty then none
  else cs.foldlM (fun n c => (digitOfBase? base c).map fun d => n * base + d) 0

/-- A character by its code point, if it is one. -/
def charOf? (n : Nat) : Option Char := if n.isValidChar then some (Char.ofNat n) else none

/-- Takes a fixed number of hexadecimal digits as a character. -/
def codePoint? (width : Nat) (cs : List Char) : Option (Char × List Char) := do
  let ds := cs.take width
  if ds.length ≠ width then none
  else
    let c ← charOf? (← valueInBase? 16 ds)
    return (c, cs.drop width)

/-- The character of an escape after its backslash. -/
def escape? : List Char → Option (Char × List Char)
  | 'b' :: r => some ('\x08', r)
  | 't' :: r => some ('\t', r)
  | 'n' :: r => some ('\n', r)
  | 'f' :: r => some ('\x0c', r)
  | 'r' :: r => some ('\r', r)
  | 'e' :: r => some ('\x1b', r)
  | '"' :: r => some ('"', r)
  | '\\' :: r => some ('\\', r)
  | 'x' :: r => codePoint? 2 r
  | 'u' :: r => codePoint? 4 r
  | 'U' :: r => codePoint? 8 r
  | _ => none

/-- A string in double quotes, after the opening one. -/
def basic : Nat → List Char → Option (List Char × List Char)
  | 0, _ => none
  | fuel + 1, cs =>
    match cs with
    | '"' :: r => some ([], r)
    | '\\' :: r => do
      let (c, r) ← escape? r
      let (rest, r) ← basic fuel r
      return (c :: rest, r)
    | c :: r =>
      if isPlain c then (basic fuel r).map fun (rest, r) => (c :: rest, r) else none
    | [] => none

/-- A string in single quotes, after the opening one. -/
def literal (cs : List Char) : Option (List Char × List Char) :=
  let body := cs.takeWhile fun c => isPlain c && c != '\''
  match cs.dropWhile fun c => isPlain c && c != '\'' with
  | '\'' :: r => some (body, r)
  | _ => none

/-- Skips blanks and newlines after a backslash that ends a line. -/
def skipFolded : List Char → List Char
  | '\r' :: '\n' :: r => skipFolded r
  | c :: r => if c = '\n' || isBlank c then skipFolded r else c :: r
  | [] => []

/-- A string over several lines, after its three opening quotes; `raw` leaves escapes alone. The
ends of its lines stay as written. Up to two quotes may stand before the three closing ones. -/
def multiline (quote : Char) (raw : Bool) : Nat → List Char → Option (List Char × List Char)
  | 0, _ => none
  | fuel + 1, cs =>
    let close := cs.takeWhile (· = quote)
    if 3 ≤ close.length then
      let extra := min (close.length - 3) 2
      some (List.replicate extra quote, cs.drop (extra + 3))
    else
      match cs with
      | '\\' :: r =>
        if raw then (multiline quote raw fuel r).map fun (rest, r) => ('\\' :: rest, r)
        else if (newline? (skipBlank r)).isSome then multiline quote raw fuel (skipFolded r)
        else do
          let (c, r) ← escape? r
          let (rest, r) ← multiline quote raw fuel r
          return (c :: rest, r)
      | '\r' :: '\n' :: r =>
        (multiline quote raw fuel r).map fun (rest, r) => ('\r' :: '\n' :: rest, r)
      | c :: r =>
        if c = '\n' || isPlain c then
          (multiline quote raw fuel r).map fun (rest, r) => (c :: rest, r)
        else none
      | [] => none

/-- A string over several lines; a newline right after the opening quotes is left out. -/
def multilineFrom (quote : Char) (raw : Bool) (cs : List Char) : Option (List Char × List Char) :=
  let r := (newline? cs).getD cs
  multiline quote raw (r.length + 1) r

def string? : List Char → Option (List Char × List Char)
  | '"' :: '"' :: '"' :: r => multilineFrom '"' false r
  | '\'' :: '\'' :: '\'' :: r => multilineFrom '\'' true r
  | '"' :: r => basic (r.length + 1) r
  | '\'' :: r => literal r
  | _ => none

/-- One part of a key. -/
def keyPart (cs : List Char) : Option (String × List Char) :=
  match cs with
  | '"' :: r => (basic (r.length + 1) r).map fun (k, r) => (String.ofList k, r)
  | '\'' :: r => (literal r).map fun (k, r) => (String.ofList k, r)
  | _ =>
    let k := cs.takeWhile isBareKey
    if k.isEmpty then none else some (String.ofList k, cs.dropWhile isBareKey)

/-- A key of at most `depth` parts joined by points, blanks around it skipped. -/
def keyWithin : Nat → List Char → Option (List String × List Char)
  | 0, _ => none
  | depth + 1, cs => do
    let (k, r) ← keyPart (skipBlank cs)
    match skipBlank r with
    | '.' :: r =>
      let (ks, r) ← keyWithin depth r
      return (k :: ks, r)
    | r => return ([k], r)

/-- The most parts of a key, and the deepest nesting of arrays and inline tables. -/
def maxDepth : Nat := 80

def key (cs : List Char) : Option (List String × List Char) := keyWithin maxDepth cs

/-- Digits with single underscores between them, the underscores taken out. -/
def digitRun? (isD : Char → Bool) : List Char → Option (List Char)
  | [] => none
  | [c] => if isD c then some [c] else none
  | c :: '_' :: r => if isD c then (digitRun? isD r).map (c :: ·) else none
  | c :: r => if isD c then (digitRun? isD r).map (c :: ·) else none

/-- Decimal digits without a leading zero. -/
def wholeRun? (cs : List Char) : Option (List Char) :=
  (digitRun? isDigit cs).filter fun ds => ds.length = 1 || ds.head? != some '0'

def signedInt (negative : Bool) (n : Nat) : Value := .integer (if negative then -n else n)

def isExponent (c : Char) : Bool := c = 'e' || c = 'E'

/-- The digits of a fraction after its point. -/
def fraction? : List Char → Option (List Char)
  | '.' :: r => digitRun? isDigit r
  | [] => some []
  | _ => none

/-- The value of an exponent with its mark. -/
def exponent? : List Char → Option Int
  | [] => some 0
  | _ :: r =>
    let (negative, ds) := takeSign r
    (digitRun? isDigit ds).map fun ds =>
      if negative then -(digitsValue ds : Int) else digitsValue ds

/-- A number with a fraction or an exponent; one too large for a double is unusable. -/
def floatOf? (negative : Bool) (cs : List Char) : Option Value := do
  let mantissa := cs.takeWhile fun c => !isExponent c
  let whole ← wholeRun? (mantissa.takeWhile (· != '.'))
  let fraction ← fraction? (mantissa.dropWhile (· != '.'))
  let e ← exponent? (cs.dropWhile fun c => !isExponent c)
  let x := Binary.ofScaled negative (digitsValue (whole ++ fraction)) (e - fraction.length)
  return if Binary.isFinite x then .float x else .unusable

/-- A whole number in a base other than ten, after the mark of the base. -/
def based? (base : Nat) (cs : List Char) : Option Value :=
  if cs.isEmpty then some .unusable
  else do
    let ds ← digitRun? (fun c => (digitOfBase? base c).isSome) cs
    return .integer (← valueInBase? base ds)

/-- A word that is not quoted: a boolean, a date or time, or a number. -/
def word? (cs : List Char) : Option Value :=
  match String.ofList cs with
  | "true" => some (.boolean true)
  | "false" => some (.boolean false)
  | _ =>
    match cs with
    | '0' :: 'x' :: r => based? 16 r
    | '0' :: 'o' :: r => based? 8 r
    | '0' :: 'b' :: r => based? 2 r
    | _ =>
      let (negative, r) := takeSign cs
      match String.ofList r with
      | "inf" => some (.float (Binary.infinity negative))
      | "nan" => some (.float Binary.nan)
      | _ =>
        if isMoment cs then some .unusable
        else if r.any fun c => c = '.' || isExponent c then floatOf? negative r
        else (wholeRun? r).map fun ds => signedInt negative (digitsValue ds)

def isWord (c : Char) : Bool := isBareKey c || c = '.' || c = '+' || c = ':'

/-- The word at the front of a text, with what follows it. A date takes the time of day after a
single space with it. -/
def takeWord (cs : List Char) : List Char × List Char :=
  let word := cs.takeWhile isWord
  match cs.dropWhile isWord with
  | ' ' :: r =>
    if afterDate? word = some [] && (r.head?.any isDigit) then
      (word ++ ' ' :: r.takeWhile isWord, r.dropWhile isWord)
    else (word, ' ' :: r)
  | r => (word, r)

mutual

/-- A value at the front of a text, its arrays and inline tables nested at most `depth` deep. -/
def value (depth fuel : Nat) (cs : List Char) : Option (Value × List Char) :=
  match fuel with
  | 0 => none
  | fuel + 1 =>
    match cs with
    | '[' :: r =>
      if depth = 0 then none
      else (items (depth - 1) fuel (skipLines r.length r)).map fun (vs, r) => (.array vs, r)
    | '\x7b' :: r =>
      if depth = 0 then none
      else (pairs (depth - 1) fuel [] (skipLines r.length r)).map fun (es, r) =>
        (.table .closed es, r)
    | c :: r =>
      if c = '"' || c = '\'' then
        (string? (c :: r)).map fun (s, r) => (.string (String.ofList s), r)
      else
        let (word, r) := takeWord (c :: r)
        (word? word).map fun v => (v, r)
    | [] => none

/-- The items of an array up to its closing bracket. -/
def items (depth fuel : Nat) (cs : List Char) : Option (List Value × List Char) :=
  match fuel with
  | 0 => none
  | fuel + 1 =>
    match cs with
    | ']' :: r => some ([], r)
    | cs => do
      let (v, r) ← value depth fuel cs
      match skipLines r.length r with
      | ']' :: r => return ([v], r)
      | ',' :: r =>
        let (vs, r) ← items depth fuel (skipLines r.length r)
        return (v :: vs, r)
      | _ => none

/-- The entries of an inline table up to its closing brace, after some read before. -/
def pairs (depth fuel : Nat) (es : Entries) (cs : List Char) : Option (Entries × List Char) :=
  match fuel with
  | 0 => none
  | fuel + 1 =>
    match cs with
    | '\x7d' :: r => some (es, r)
    | cs => do
      let (k, r) ← key cs
      match skipLines r.length r with
      | '=' :: r =>
        let (v, r) ← value depth fuel (skipLines r.length r)
        let es ← insert k v es
        match skipLines r.length r with
        | '\x7d' :: r => return (es, r)
        | ',' :: r => pairs depth fuel es (skipLines r.length r)
        | _ => none
      | _ => none

end

/-- The entries of a text, line by line, under the header last seen. -/
def lines : Nat → List String → Entries → List Char → Option Entries
  | 0, _, _, _ => none
  | fuel + 1, path, es, cs =>
    match skipLines cs.length cs with
    | [] => some es
    | '[' :: r => do
      let (k, r) ← key r
      match r with
      | ']' :: r => lines fuel k (← openTable k es) (← endOfLine? r)
      | _ => none
    | cs => do
      let (k, r) ← key cs
      match r with
      | '=' :: r =>
        let (v, r) ← value maxDepth (r.length + 1) (skipBlank r)
        lines fuel path (← insertUnder path k v es) (← endOfLine? r)
      | _ => none

/-- The entries of a TOML document; a byte order mark before it is skipped. -/
def document? (s : String) : Option Entries :=
  match s.toList with
  | '\ufeff' :: cs => lines (cs.length + 1) [] [] cs
  | cs => lines (cs.length + 1) [] [] cs

end OrderFlow.Toml
