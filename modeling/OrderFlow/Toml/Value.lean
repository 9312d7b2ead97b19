/-! TOML values and tables. A table remembers how it came about, because that decides whether more
may be added to it. -/
namespace OrderFlow.Toml

/-- How a table came about. -/
inductive Origin where
  /-- Named only as the parent of a header. -/
  | implied
  | header
  /-- Named by a dotted key. -/
  | dotted
  /-- Written in braces; nothing may be added. -/
  | closed
  deriving DecidableEq, Repr

inductive Value where
  /-- Written as the format asks but without a value that can be used: a date or a time, a number
  beyond the range of doubles, a base with no digits after it. -/
  | unusable
  | string (text : String)
  | integer (value : Int)
  | float (value : Float)
  | boolean (value : Bool)
  | array (items : List Value)
  | table (origin : Origin) (entries : List (String × Value))

/-- Keys with their values, in the order written. -/
abbrev Entries := List (String × Value)

/-- Replaces the value under a key that is there. -/
def replace (key : String) (v : Value) (es : Entries) : Entries :=
  es.map fun e => if e.1 = key then (key, v) else e

/-- Adds a value under a dotted key. Tables on the way must themselves stem from dotted keys, and
no key may be set twice. -/
def insert : List String → Value → Entries → Option Entries
  | [], _, _ => none
  | [key], v, es =>
    match es.lookup key with
    | none => some (es ++ [(key, v)])
    | some _ => none
  | key :: path, v, es =>
    match es.lookup key with
    | none => (insert path v []).map fun inner => es ++ [(key, .table .dotted inner)]
    | some (.table .dotted inner) =>
      (insert path v inner).map fun inner => replace key (.table .dotted inner) es
    | some _ => none

/-- Opens the table of a header. It may have been implied before, but not opened. -/
def openTable : List String → Entries → Option Entries
  | [], _ => none
  | [key], es =>
    match es.lookup key with
    | none => some (es ++ [(key, .table .header [])])
    | some (.table .implied inner) => some (replace key (.table .header inner) es)
    | some _ => none
  | key :: path, es =>
    match es.lookup key with
    | none => (openTable path []).map fun inner => es ++ [(key, .table .implied inner)]
    | some (.table .closed _) => none
    | some (.table origin inner) =>
      (openTable path inner).map fun inner => replace key (.table origin inner) es
    | some _ => none

/-- Adds a value under a dotted key inside the table of a header. -/
def insertUnder (path : List String) (key : List String) (v : Value) (es : Entries) :
    Option Entries :=
  match path with
  | [] => insert key v es
  | k :: rest =>
    match es.lookup k with
    | some (.table origin inner) =>
      (insertUnder rest key v inner).map fun inner => replace k (.table origin inner) es
    | _ => none

end OrderFlow.Toml
