import OrderFlow.Failure
import OrderFlow.Feature.Column

/-! Forests of regression trees. The nodes of a tree are numbered from its root; a row walks from
node to node until it comes to one without children. -/
namespace OrderFlow
open Column (Row)

structure TreeNode where
  output : Float
  /-- The column that is compared with the threshold. -/
  column : Nat
  threshold : Option Float
  /-- How much the split gained when the tree was grown. -/
  gain : Option Float
  /-- The node for rows at or below the threshold. -/
  below : Option Nat
  above : Option Nat

/-- How a split is chosen among those of a column. -/
inductive Splitter where
  | random
  | best
  deriving DecidableEq, Repr

/-- The bounds within which a tree was grown. -/
structure TreeBounds where
  maxDepth : Option Nat
  /-- The fewest samples of a node without children. -/
  minLeaf : Nat
  /-- The fewest samples of a node that is split. -/
  minSplit : Nat
  seed : Option Nat
  splitter : Splitter
  deriving DecidableEq, Repr

structure RegressionTree where
  nodes : Array TreeNode
  bounds : Option TreeBounds
  depth : Nat

namespace RegressionTree

/-- Is a value at or below a threshold? None is where either is not a number. -/
def isBelow (x : Float) (threshold : Option Float) : Bool := threshold.any (x ≤ ·)

/-- The output that a row comes to from a node in at most `steps` nodes. -/
def walk (t : RegressionTree) (row : Row) : Nat → Nat → Option Float
  | 0, _ => none
  | steps + 1, i => do
    let node ← t.nodes[i]?
    if node.below.isNone && node.above.isNone then return node.output
    else
      let x ← row[node.column]?
      let child ← if isBelow x node.threshold then node.below else node.above
      t.walk row steps child

/-- The output of a tree for a row. A walk that ends sees no node twice. -/
def predict? (t : RegressionTree) (row : Row) : Option Float := t.walk row t.nodes.size 0

end RegressionTree

/-- The trees for one target; none before they are grown. -/
structure Forest where
  trees : Option (List RegressionTree)

namespace Forest

/-- The mean of the trees. Without trees it is not a number. -/
def predict? (f : Forest) (row : Row) : Option Float := do
  let trees ← f.trees
  let outputs ← trees.mapM (·.predict? row)
  return outputs.foldl (· + ·) 0.0 / Binary.nearest false trees.length 1

end Forest

/-- One forest for each target. -/
structure ForestModel where
  forests : List Forest

/-- The targets forecast from a window, its rows laid side by side. -/
def ForestModel.predict (m : ForestModel) (window : List Row) : Outcome Row :=
  let row := window.flatten
  if row.isEmpty then fail (.forest "Matrix creation failed")
  else
    match m.forests.mapM (·.predict? row) with
    | some outputs => .ok outputs
    | none => fail .incompleteForest

end OrderFlow
