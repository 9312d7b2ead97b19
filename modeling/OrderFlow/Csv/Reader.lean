import OrderFlow.Csv.Row

/-! Reading comma-separated values. Lines end with a newline, a carriage return or both; blank
lines are skipped, and a field that starts with a quote runs to the next single quote. -/
namespace OrderFlow.Csv

/-- Where in a record the reader is. -/
inductive Place where
  /-- Before a record. -/
  | between
  | fieldStart
  | plain
  | quoted
  /-- After a quote inside a quoted field. -/
  | quote
  deriving DecidableEq, Repr

/-- The record being read, its fields and the characters of the last field from the end. -/
structure Pending where
  place : Place
  fields : List (List Char)
  chars : List Char

def Pending.start : Pending := ⟨.between, [], []⟩

def isLineEnd (c : Char) : Bool := c = '\n' || c = '\r'

namespace Pending

/-- The fields, with the last one closed. -/
def closed (p : Pending) : List (List Char) := (p.chars.reverse :: p.fields).reverse

def put (p : Pending) (place : Place) (c : Char) : Pending := { p with place, chars := c :: p.chars }

def nextField (p : Pending) : Pending := ⟨.fieldStart, p.chars.reverse :: p.fields, []⟩

/-- A character outside quotes that is no line end. -/
def unquoted (p : Pending) (c : Char) : Pending :=
  if c = ',' then p.nextField else p.put .plain c

/-- Takes one character; a finished record is given out. -/
def step (p : Pending) (c : Char) : Option (List (List Char)) × Pending :=
  match p.place with
  | .between =>
    if isLineEnd c then (none, p)
    else if c = '"' then (none, { p with place := .quoted })
    else (none, p.unquoted c)
  | .fieldStart =>
    if isLineEnd c then (some p.closed, start)
    else if c = '"' then (none, { p with place := .quoted })
    else (none, p.unquoted c)
  | .plain => if isLineEnd c then (some p.closed, start) else (none, p.unquoted c)
  | .quoted => if c = '"' then (none, { p with place := .quote }) else (none, p.put .quoted c)
  | .quote =>
    if c = '"' then (none, p.put .quoted c)
    else if isLineEnd c then (some p.closed, start)
    else (none, p.unquoted c)

/-- The records of the rest of a text. -/
def records (p : Pending) : List Char → List (List (List Char))
  | [] => if p.place = .between then [] else [p.closed]
  | c :: rest =>
    let (done, next) := p.step c
    done.toList ++ records next rest

end Pending

/-- The records of a text, without a byte order mark before it. -/
def records (cs : List Char) : List (List (List Char)) :=
  Pending.start.records (match cs with
    | '\ufeff' :: rest => rest
    | cs => cs)

/-- The header of a table and its rows, if every row is as wide as the header. -/
def table? (cs : List Char) : Option (List (List Char) × List (List (List Char))) :=
  match records cs with
  | [] => some ([], [])
  | header :: rows => if rows.all (·.length == header.length) then some (header, rows) else none

example : records "a,\"b\"\"c\",\r\n\r\nd".toList =
    [[['a'], ['b', '"', 'c'], []], [['d']]] := by decide +kernel

end OrderFlow.Csv
