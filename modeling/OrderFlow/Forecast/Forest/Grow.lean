import OrderFlow.Forecast.Forest.Basic
import OrderFlow.Random
import OrderFlow.Settings.Basic

/-! Growing regression forests. Each tree sees the samples as often as they are drawn, and each
split is the best one among some columns drawn for it. -/
namespace OrderFlow
open Column (Row)

/-- A sample with how often it was drawn. -/
structure DrawnSample where
  row : Array Float
  target : Float
  times : Nat

namespace DrawnSample

def count (ss : List DrawnSample) : Nat := ss.foldl (fun n s => n + s.times) 0

def total (ss : List DrawnSample) : Float :=
  ss.foldl (fun sum s => sum + Binary.nearest false s.times 1 * s.target) 0.0

def mean (ss : List DrawnSample) : Float := total ss / Binary.nearest false (count ss) 1

/-- The number of samples times the square of their mean. -/
def weight (count : Nat) (total : Float) : Float :=
  let n := Binary.nearest false count 1
  let mean := total / n
  n * mean * mean

end DrawnSample

/-- A way to divide samples in two, with what it gains. -/
structure Split where
  column : Nat
  threshold : Float
  gain : Float

namespace Split
open DrawnSample

/-- The better of two splits, the first if they gain the same. -/
def better (a : Option Split) (b : Split) : Option Split :=
  match a with
  | none => some b
  | some s => some (if s.gain < b.gain then b else s)

/-- The best split between two neighbouring values of a column, given the samples in order of
it and those already below. -/
def scan (column n : Nat) (sum parent : Float) (best : Option Split) (last : Float) (below : Nat)
    (belowSum : Float) : List DrawnSample → Option Split
  | [] => best
  | s :: rest =>
    let x := s.row.getD column 0.0
    let best :=
      if x == last then best
      else better best ⟨column, (x + last) / 2.0,
        weight below belowSum + weight (n - below) (sum - belowSum) - parent⟩
    scan column n sum parent best x (below + s.times)
      (belowSum + Binary.nearest false s.times 1 * s.target) rest

/-- The best split on a column, if it is better than another. -/
def onColumn (ss : List DrawnSample) (best : Option Split) (column : Nat) : Option Split :=
  let value (s : DrawnSample) := s.row.getD column 0.0
  match ss.mergeSort fun a b => value a ≤ value b with
  | [] => best
  | s :: rest =>
    let n := count ss
    let sum := total ss
    scan column n sum (weight n sum) best (value s) s.times
      (Binary.nearest false s.times 1 * s.target) rest

end Split

/-- A tree while it grows. -/
inductive Growth where
  | leaf (output : Float)
  | branch (output : Float) (split : Split) (below above : Growth)

namespace Growth
open DrawnSample

def size : Growth → Nat
  | leaf _ => 1
  | branch _ _ below above => below.size + above.size + 1

def depth : Growth → Nat
  | leaf _ => 0
  | branch _ _ below above => max below.depth above.depth + 1

/-- The nodes of a tree numbered from `first`, each before its children. -/
def nodes (first : Nat) : Growth → List TreeNode
  | leaf output => [⟨output, 0, none, none, none, none⟩]
  | branch output s below above =>
    ⟨output, s.column, some s.threshold, some s.gain, some (first + 1),
      some (first + 1 + below.size)⟩ ::
      (below.nodes (first + 1) ++ above.nodes (first + 1 + below.size))

def toTree (bounds : TreeBounds) (g : Growth) : RegressionTree :=
  ⟨(g.nodes 0).toArray, some bounds, g.depth⟩

/-- Splits samples at most `depth` times, over `tried` columns each. -/
def grow (columns tried minSplit : Nat) (ss : List DrawnSample) :
    Nat → Random → Growth × Random
  | 0, r => (leaf (mean ss), r)
  | depth + 1, r =>
    if count ss < minSplit then (leaf (mean ss), r)
    else
      let (order, r) := r.shuffled (List.range columns)
      match (order.take tried).foldl (Split.onColumn ss) none with
      | none => (leaf (mean ss), r)
      | some s =>
        let (low, high) := ss.partition fun d => d.row.getD s.column 0.0 ≤ s.threshold
        if low.isEmpty || high.isEmpty then (leaf (mean ss), r)
        else
          let (below, r) := grow columns tried minSplit low depth r
          let (above, r) := grow columns tried minSplit high depth r
          (branch (mean ss) s below above, r)

end Growth

namespace Forest

/-- How often each of `n` samples comes up in `n` draws. -/
def draws (n : Nat) (r : Random) : Array Nat × Random :=
  let (picks, r) := Random.many (Random.below n) n r
  (picks.foldl (fun counts i => counts.modify i (· + 1)) (Array.replicate n 0), r)

/-- The bounds of the trees of a forest. -/
def treeBounds (settings : ForestSettings) : TreeBounds :=
  ⟨some settings.maxDepth, 1, settings.minSplit, some 0, .best⟩

/-- A tree over samples as often as they are drawn. -/
def growTree (settings : ForestSettings) (rows : List (Array Float)) (targets : List Float)
    (r : Random) : RegressionTree × Random :=
  let columns := rows.head?.elim 0 Array.size
  let (times, r) := draws rows.length r
  let drawn := ((rows.zip targets).zip times.toList).filterMap fun ((row, target), n) =>
    if n = 0 then none else some ⟨row, target, n⟩
  let (g, r) := Growth.grow columns (max 1 columns.sqrt) settings.minSplit drawn settings.maxDepth r
  (g.toTree (treeBounds settings), r)

def fit (settings : ForestSettings) (rows : List (Array Float)) (r : Random)
    (targets : List Float) : Forest × Random :=
  let (trees, r) := Random.many (growTree settings rows targets) settings.trees r
  (⟨some trees⟩, r)

end Forest
end OrderFlow
