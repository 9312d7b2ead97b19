import OrderFlow.Binary.Layout
import OrderFlow.Binary.Reader
import OrderFlow.Csv.Reader
import OrderFlow.Files.Tree
import OrderFlow.Forecast.Epoch
import OrderFlow.Text.Digits

/-! Training histories as tables: a header, then one row per epoch. A missing value is an empty
field, and no epochs are no text at all. -/
namespace OrderFlow.History
open Text

/-- Doubles keep a `.0` when whole, and take a bare exponent below `10^-5` and from `10^16` on. -/
def lossLayout : Binary.Layout where
  positional := some (-5, 16)
  wholeMark := ".0"
  exponentMark := ""
  tieUp := false
  nan := "NaN"
  infinity := "inf"

def columns : List String := ["epoch", "train_loss", "val_loss", "val_mae"]

def optionalText (x : Option Float) : String := x.elim "" lossLayout.text

def fields (s : EpochStats) : List String :=
  [natText s.epoch, lossLayout.text s.trainLoss, optionalText s.valLoss, optionalText s.valError]

/-- The table of a history. -/
def text (history : List EpochStats) : String :=
  if history.isEmpty then ""
  else String.join (Csv.row columns :: history.map fun s => Csv.row (fields s))

/-- Digits of a base read on from a number. -/
def digitsIn? (base : Nat) (value : Char → Option Nat) : Nat → List Char → Option Nat
  | n, [] => some n
  | n, c :: rest => do digitsIn? base value (n * base + (← value c)) rest

def decimalValue? (c : Char) : Option Nat := if isDigit c then some (digitValue c) else none

/-- A number below `2^64` with an optional plus. -/
def wordIn? (base : Nat) (value : Char → Option Nat) (cs : List Char) : Option Nat :=
  let ds := match cs with
    | '+' :: rest => rest
    | cs => cs
  if ds.isEmpty then none else (digitsIn? base value 0 ds).filter (· < 2 ^ 64)

/-- The number of an epoch, in decimal or after `0x` in hexadecimal. -/
def epoch? : List Char → Option Nat
  | '0' :: 'x' :: rest => wordIn? 16 hexValue? rest
  | cs => wordIn? 10 decimalValue? cs

def loss? (cs : List Char) : Option Float := Binary.ofText? (String.ofList cs)

def optionalLoss? (cs : List Char) : Option (Option Float) :=
  if cs.isEmpty then some none else (loss? cs).map some

/-- The field under a column, if the header has it. -/
def field? (header row : List (List Char)) (column : String) : Option (List Char) :=
  (header.zip row).lookup column.toList

/-- Reads a row under a header. The last two columns may be missing. -/
def ofRow? (header row : List (List Char)) : Option EpochStats := do
  let field := field? header row
  let optional (column : String) := (field column).elim (some none) optionalLoss?
  return {
    epoch := ← epoch? (← field "epoch")
    trainLoss := ← loss? (← field "train_loss")
    valLoss := ← optional "val_loss"
    valError := ← optional "val_mae" }

/-- Is a column of ours named twice? -/
def repeats (header : List (List Char)) : Bool :=
  columns.any fun c => 1 < header.count c.toList

/-- The history that a table holds. -/
def ofText? (s : String) : Option (List EpochStats) := do
  let (header, rows) ← Csv.table? s.toList
  if !rows.isEmpty && repeats header then none
  rows.mapM (ofRow? header)

/-- The history in a file. One that is not text is read only as far as its first record, and has
no other. -/
def ofContent? (c : Content) : Option (List EpochStats) :=
  match c.text? with
  | some s => ofText? s
  | none => do
    let (_, rows) ← Csv.table? (c.toBytes.toList.map fun b => Char.ofNat b.toNat)
    if rows.isEmpty then some [] else none

/-- The history that an entry stands for. A directory has none. -/
def ofEntry? : Entry → Option (List EpochStats)
  | .directory => some []
  | .file c => ofContent? c

end OrderFlow.History
