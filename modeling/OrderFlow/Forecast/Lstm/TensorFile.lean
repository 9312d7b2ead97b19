import OrderFlow.Document.Records
import OrderFlow.Json.Printer
import OrderFlow.Json.Reader

/-! Tensors in bytes: the length of a header, the header in JSON with the type, the shape and the
place of every tensor, then the numbers, least byte first. -/
namespace OrderFlow

/-- A named tensor, its numbers in single precision. -/
structure Tensor where
  name : String
  shape : List Nat
  values : List Float32

namespace TensorFile

/-- The `n` lowest bytes of a number, least first. -/
def lowBytes : Nat → Nat → List UInt8
  | 0, _ => []
  | n + 1, x => (x % 256).toUInt8 :: lowBytes n (x / 256)

/-- The number that bytes write, least first. -/
def number : List UInt8 → Nat
  | [] => 0
  | b :: rest => b.toNat + 256 * number rest

def floatBytes (x : Float32) : List UInt8 := lowBytes 4 x.toBits.toNat

def float (bs : List UInt8) : Float32 := Float32.ofBits (number bs).toUInt32

/-- What the header says of a tensor that starts at a byte. -/
def entry (start : Nat) (t : Tensor) : String × Json :=
  let nats (ns : List Nat) : Json := .array (ns.map fun (n : Nat) => .integer n)
  (t.name, .object [("dtype", .string "F32"), ("shape", nats t.shape),
    ("data_offsets", nats [start, start + 4 * t.values.length])])

def entries (start : Nat) : List Tensor → List (String × Json)
  | [] => []
  | t :: rest => entry start t :: entries (start + 4 * t.values.length) rest

/-- The header, filled with blanks to a multiple of eight bytes. -/
def header (ts : List Tensor) : List UInt8 :=
  let bytes := (Json.object (entries 0 ts)).toText.toUTF8.toList
  bytes ++ List.replicate ((8 - bytes.length % 8) % 8) 32

/-- The bytes of some tensors. -/
def bytes (ts : List Tensor) : ByteArray :=
  let head := header ts
  ⟨(lowBytes 8 head.length ++ head ++ ts.flatMap fun t => t.values.flatMap floatBytes).toArray⟩

/-- The size in bytes of one element of each type. -/
def elementSizes : List (String × Nat) :=
  [("BOOL", 1), ("U8", 1), ("I8", 1), ("F8_E5M2", 1), ("F8_E4M3", 1), ("I16", 2), ("U16", 2),
    ("F16", 2), ("BF16", 2), ("I32", 4), ("U32", 4), ("F32", 4), ("F64", 8), ("I64", 8),
    ("U64", 8)]

/-- What a header says of a tensor. -/
structure Info where
  name : String
  elementType : String
  elementSize : Nat
  shape : List Nat
  first : Nat
  last : Nat

def nats? (j : Json) : Option (List Nat) := do (← j.asArray?).mapM Json.asNat64?

/-- The name of a type, which may also be the only key of an object, over null. -/
def elementType? : Json → Option String
  | .string name => some name
  | .object [(name, .null)] => some name
  | _ => none

def info? (name : String) (j : Json) : Option Info := do
  match ← j.fields? ["dtype", "shape", "data_offsets"] with
  | [type, shape, place] =>
    let type ← elementType? (← type)
    let size ← elementSizes.lookup type
    match ← nats? (← place) with
    | [first, last] => return ⟨name, type, size, ← nats? (← shape), first, last⟩
    | _ => none
  | _ => none

/-- Notes on the file: an object of texts, or null. -/
def areNotes : Json → Bool
  | .null => true
  | .object ms => ms.all fun m => m.2.asString?.isSome
  | _ => false

/-- Keeps the last of those with one name. -/
def lastNamed : List Info → List Info
  | [] => []
  | i :: rest => if rest.any (·.name == i.name) then lastNamed rest else i :: lastNamed rest

/-- Everything that a header says of tensors; all of it has to be readable. -/
def infos? (header : Json) : Option (List Info) := do
  let members ← header.asObject?
  let (notes, tensors) := members.partition (·.1 == "__metadata__")
  if 127 < header.depth || 1 < notes.length || notes.any (fun m => !areNotes m.2) ||
      tensors.any fun m => m.2.normal.isNone then none
  else return lastNamed (← tensors.mapM fun m => info? m.1 m.2)

/-- The product of some numbers, if every step of it has at most 64 bits. -/
def product? (ns : List Nat) : Option Nat :=
  ns.foldlM (fun n m => if n * m < 2 ^ 64 then some (n * m) else none) 1

/-- The bytes that a tensor takes. -/
def Info.length? (i : Info) : Option Nat := product? (i.shape ++ [i.elementSize])

/-- Do tensors follow each other without gaps, each as long as its shape asks, up to an end? -/
def areAdjacent (finish start : Nat) : List Info → Bool
  | [] => start == finish
  | i :: rest =>
    i.first == start && i.first ≤ i.last && i.length? == some (i.last - i.first) &&
      areAdjacent finish i.last rest

/-- The order of places: by where they begin, then by where they end. -/
def Info.le (a b : Info) : Bool := a.first < b.first || (a.first == b.first && a.last ≤ b.last)

/-- Splits bytes into numbers of four. -/
def floats : List UInt8 → List Float32
  | a :: b :: c :: d :: rest => float [a, b, c, d] :: floats rest
  | _ => []

/-- The tensors of single precision in some bytes, if the bytes hold tensors and nothing else. -/
def ofBytes? (file : ByteArray) : Option (List Tensor) := do
  if file.size < 8 then none
  let length := number (file.extract 0 8).toList
  if 100000000 < length || file.size < 8 + length then none
  let text ← String.fromUTF8? (file.extract 8 (8 + length))
  let infos := (← infos? (← Json.parse? text)).mergeSort Info.le
  let data := file.extract (8 + length) file.size
  if areAdjacent data.size 0 infos then
    return (infos.filter (·.elementType == "F32")).map fun i =>
      ⟨i.name, i.shape, floats (data.extract i.first i.last).toList⟩
  else none

end TensorFile
end OrderFlow
