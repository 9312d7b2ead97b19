import OrderFlow.Binary.Basic

/-! Summaries of order books. -/
namespace OrderFlow

/-- The liquidity near the top of a book. -/
structure Depth where
  bidLiquidity : Float
  askLiquidity : Float
  imbalance : Float
  spread : Float
  midPrice : Float

namespace Depth

/-- No book was seen. -/
def absent : Depth := ⟨0.0, 0.0, 0.0, 0.0, 0.0⟩

instance : Inhabited Depth := ⟨absent⟩

def toList (d : Depth) : List Float :=
  [d.bidLiquidity, d.askLiquidity, d.imbalance, d.spread, d.midPrice]

/-- A price with the quantity offered at it. -/
abbrev Level := Float × Float

/-- How many levels of each side are summed. -/
def levels : Nat := 10

/-- The quantities of the best levels added up, starting from minus zero. -/
def liquidity (side : List Level) : Float :=
  (side.take levels).foldl (fun sum level => sum + level.2) (-0.0)

/-- The summary of a book with the best level of each side first; none if a side is empty. -/
def ofLevels? (bids asks : List Level) : Option Depth := do
  let bestBid ← bids.head?
  let bestAsk ← asks.head?
  let bid := liquidity bids
  let ask := liquidity asks
  return {
    bidLiquidity := bid
    askLiquidity := ask
    imbalance := (bid - ask) / (bid + ask + 1e-12)
    spread := bestAsk.1 - bestBid.1
    midPrice := (bestAsk.1 + bestBid.1) / 2.0 }

end Depth

/-- A summary seen at some time. -/
structure DepthRecord where
  time : Int
  depth : Depth

end OrderFlow
