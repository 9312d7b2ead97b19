import OrderFlow.Document.Scalar
import OrderFlow.Market.Depth

/-! Book summaries in market documents: ready summaries per interval, or snapshots of a book. -/
namespace OrderFlow.Document
open Json

def summaryTimeKeys : List String := ["openTime", "timestamp", "time", "ts"]

def snapshotTimeKeys : List String := ["timestamp", "time", "ts", "openTime"]

/-- A ready summary; missing numbers count as zero. -/
def summary? (j : Json) : Option DepthRecord := do
  let ms ← j.asObject?
  let time ← (← firstPresent? ms summaryTimeKeys).looseInteger?
  let field (key : String) : Float := ((get? ms key).bind looseFloat?).getD 0.0
  return ⟨time, {
    bidLiquidity := field "bidLiquidity"
    askLiquidity := field "askLiquidity"
    imbalance := field "orderbookImbalance"
    spread := field "spread"
    midPrice := field "mid_price" }⟩

/-- A level as a pair of price and quantity, or as an object with both. -/
def level? : Json → Option Depth.Level
  | .array (price :: quantity :: _) => do return (← price.looseFloat?, ← quantity.looseFloat?)
  | .object ms => do
    return (← (← get? ms "price").looseFloat?, ← (← get? ms "qty").looseFloat?)
  | _ => none

/-- The levels up to the first that cannot be read. -/
def levels : List Json → List Depth.Level
  | [] => []
  | j :: rest =>
    match level? j with
    | some l => l :: levels rest
    | none => []

/-- One side of a book: the list in the snapshot itself unless empty, else the nested one. -/
def side (ms : Members) (nested : Option Members) (key : String) : List Depth.Level :=
  let own := ((get? ms key).bind asArray?).filter (!·.isEmpty)
  let list := own.or ((nested.bind (get? · key)).bind asArray?)
  (list.map levels).getD []

/-- The book inside a snapshot, under `depth`, or where that key is missing under `orderbook`. -/
def nestedBook? (ms : Members) : Option Members :=
  ((get? ms "depth").or (get? ms "orderbook")).bind asObject?

/-- A snapshot of a book with its time. -/
def snapshot? (j : Json) : Option DepthRecord := do
  let ms ← j.asObject?
  let time ← (← firstPresent? ms snapshotTimeKeys).looseInteger?
  let nested := nestedBook? ms
  let depth ← Depth.ofLevels? (side ms nested "bids") (side ms nested "asks")
  return ⟨time, depth⟩

/-- An array whose first element has both sides of a book. -/
def looksLikeBooks (items : List Json) : Bool :=
  match items.head?.bind asObject? with
  | some ms => (get? ms "bids").isSome && (get? ms "asks").isSome
  | none => false

/-- The book summaries of one document: its `candles`, else its `tickMarkers`, else every array
that holds books. -/
def booksOf (j : Json) : List DepthRecord :=
  match j.asObject? with
  | none => []
  | some ms =>
    match (get? ms "candles").bind asArray?, (get? ms "tickMarkers").bind asArray? with
    | some items, _ => items.filterMap summary?
    | none, some items => items.filterMap snapshot?
    | none, none =>
      ms.flatMap fun (_, value) =>
        match value with
        | .array items => if looksLikeBooks items then items.filterMap snapshot? else []
        | _ => []

def books (docs : List Json) : List DepthRecord := docs.flatMap booksOf

end OrderFlow.Document
