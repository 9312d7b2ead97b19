import OrderFlow.Binary.Layout

/-! JSON values. Whole numbers and doubles are told apart as they were written, and an object
keeps its members in a list. -/
namespace OrderFlow

inductive Json where
  | null
  | bool (value : Bool)
  /-- A whole number from `-2^63` to `2^64 - 1`. -/
  | integer (value : Int)
  | float (value : Float)
  | string (value : String)
  | array (items : List Json)
  | object (members : List (String × Json))
  /-- Well-formed text without a value: a number out of range, or half a surrogate pair in a
  string or a key. -/
  | unreadable

namespace Json

abbrev Members := List (String × Json)

def isNull : Json → Bool
  | .null => true
  | _ => false

def asArray? : Json → Option (List Json)
  | .array items => some items
  | _ => none

def asObject? : Json → Option Members
  | .object members => some members
  | _ => none

def asString? : Json → Option String
  | .string s => some s
  | _ => none

def asBool? : Json → Option Bool
  | .bool b => some b
  | _ => none

/-- A whole number within the given bounds. -/
def asInteger? (low high : Int) : Json → Option Int
  | .integer i => if low ≤ i ∧ i ≤ high then some i else none
  | _ => none

def asInt64? : Json → Option Int := asInteger? (-2 ^ 63) (2 ^ 63 - 1)

def asNat64? (j : Json) : Option Nat := (asInteger? 0 (2 ^ 64 - 1) j).map Int.toNat

def asFloat? : Json → Option Float
  | .integer i => some (Binary.ofInt i)
  | .float x => some x
  | _ => none

/-- The value under a key. -/
def get? (members : Members) (key : String) : Option Json := members.lookup key

/-- Sets the value under a key in a list sorted by key. -/
def put (key : String) (value : Json) : Members → Members
  | [] => [(key, value)]
  | (k, v) :: rest =>
    if key < k then (key, value) :: (k, v) :: rest
    else if key = k then (key, value) :: rest
    else (k, v) :: put key value rest

mutual

/-- The nesting of arrays and objects. -/
def depth : Json → Nat
  | .array items => depthOfItems items + 1
  | .object members => depthOfMembers members + 1
  | _ => 0

def depthOfItems : List Json → Nat
  | [] => 0
  | j :: rest => max (depth j) (depthOfItems rest)

def depthOfMembers : List (String × Json) → Nat
  | [] => 0
  | (_, j) :: rest => max (depth j) (depthOfMembers rest)

end

mutual

/-- The value with the members of every object sorted by key, the last of equal keys kept.
There is none if any part is unreadable. -/
def normal : Json → Option Json
  | .array items => (normalItems items).map .array
  | .object members => (normalMembers members []).map .object
  | .unreadable => none
  | j => some j

def normalItems : List Json → Option (List Json)
  | [] => some []
  | j :: rest => do
    let j ← normal j
    let rest ← normalItems rest
    return j :: rest

def normalMembers : List (String × Json) → Members → Option Members
  | [], sorted => some sorted
  | (k, j) :: rest, sorted => do
    let j ← normal j
    normalMembers rest (put k j sorted)

end

/-- The fields of a record by name. An object may hold them in any order, with other members
between them but none twice; an array holds them in the order of the names. -/
def fields? (names : List String) : Json → Option (List (Option Json))
  | .object members =>
    if names.all fun n => (members.filter (·.1 == n)).length ≤ 1 then
      some (names.map (get? members))
    else none
  | .array items =>
    if items.length ≤ names.length then
      some (items.map some ++ List.replicate (names.length - items.length) none)
    else none
  | _ => none

end Json
end OrderFlow
