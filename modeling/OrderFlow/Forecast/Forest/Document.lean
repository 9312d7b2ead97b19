import OrderFlow.Document.Records
import OrderFlow.Forecast.Forest.Basic

/-! The JSON form of forests. -/
namespace OrderFlow
open Json

/-- The fields of a record by name, all of them given where it is an array. -/
def Json.allFields? (names : List String) (j : Json) : Option (List (Option Json)) :=
  match j with
  | .array items => if items.length = names.length then some (items.map some) else none
  | _ => j.fields? names

namespace TreeNode

def fieldNames : List String :=
  ["output", "split_feature", "split_value", "split_score", "true_child", "false_child"]

def toJson (n : TreeNode) : Json :=
  let float (x : Option Float) : Json := x.elim .null .float
  let node (i : Option Nat) : Json := i.elim .null fun i => .integer i
  .object (fieldNames.zip [
    .float n.output, .integer n.column, float n.threshold, float n.gain, node n.below,
    node n.above])

def ofJson? (j : Json) : Option TreeNode := do
  match ← j.allFields? fieldNames with
  | [output, column, threshold, gain, below, above] =>
    return {
      output := ← (← output).asFloat?
      column := ← (← column).asNat64?
      threshold := ← optional? asFloat? threshold
      gain := ← optional? asFloat? gain
      below := ← optional? asNat64? below
      above := ← optional? asNat64? above }
  | _ => none

end TreeNode

namespace Splitter

def name : Splitter → String
  | random => "Random"
  | best => "Best"

def ofName? : String → Option Splitter
  | "Random" => some random
  | "Best" => some best
  | _ => none

/-- A splitter by its name, which may also be the only key of an object with null under it. -/
def ofJson? : Json → Option Splitter
  | .string s => ofName? s
  | .object [(s, .null)] => ofName? s
  | _ => none

theorem ofName?_name (s : Splitter) : ofName? s.name = some s := by cases s <;> rfl

end Splitter

namespace TreeBounds

def fieldNames : List String :=
  ["max_depth", "min_samples_leaf", "min_samples_split", "seed", "splitter"]

def toJson (b : TreeBounds) : Json :=
  let count (n : Option Nat) : Json := n.elim .null fun n => .integer n
  .object (fieldNames.zip [
    count b.maxDepth, .integer b.minLeaf, .integer b.minSplit, count b.seed,
    .string b.splitter.name])

def asNat16? (j : Json) : Option Nat := j.asNat64?.filter (· < 2 ^ 16)

/-- Reads a field that has a value where it is left out. -/
def orDefault {α : Type} (missing : α) (read : Json → Option α) : Option Json → Option α
  | none => some missing
  | some j => read j

/-- Any of the fields may be left out. -/
def ofJson? (j : Json) : Option TreeBounds := do
  match ← j.fields? fieldNames with
  | [depth, leaf, split, seed, splitter] =>
    return {
      maxDepth := ← optional? asNat16? depth
      minLeaf := ← orDefault 0 asNat64? leaf
      minSplit := ← orDefault 0 asNat64? split
      seed := ← optional? asNat64? seed
      splitter := ← orDefault .best Splitter.ofJson? splitter }
  | _ => none

end TreeBounds

namespace RegressionTree

/-- Besides nodes, bounds and depth a tree has four marks, which are null. -/
def fieldNames : List String :=
  ["nodes", "parameters", "depth", "_phantom_tx", "_phantom_ty", "_phantom_x", "_phantom_y"]

def toJson (t : RegressionTree) : Json :=
  .object (fieldNames.zip [
    .array (t.nodes.toList.map TreeNode.toJson), t.bounds.elim .null TreeBounds.toJson,
    .integer t.depth, .null, .null, .null, .null])

def ofJson? (j : Json) : Option RegressionTree := do
  match ← j.allFields? fieldNames with
  | [nodes, bounds, depth, some .null, some .null, some .null, some .null] =>
    let nodes ← (← (← nodes).asArray?).mapM TreeNode.ofJson?
    let bounds ← optional? TreeBounds.ofJson? bounds
    return ⟨nodes.toArray, bounds, ← TreeBounds.asNat16? (← depth)⟩
  | _ => none

end RegressionTree

namespace Forest

def toJson (f : Forest) : Json :=
  let trees : Json := f.trees.elim .null fun ts => .array (ts.map RegressionTree.toJson)
  .object [("forest_regressor", .object [("trees", trees), ("samples", .null)])]

/-- Which samples each tree saw; only its form is checked. -/
def samples? (j : Json) : Option Unit := do
  let rows ← (← j.asArray?).mapM asArray?
  if rows.all (·.all fun b => b.asBool?.isSome) then return () else none

def trees? (j : Json) : Option (List RegressionTree) := do (← j.asArray?).mapM RegressionTree.ofJson?

/-- The trees of a forest that may be null. -/
def grown? (j : Json) : Option (Option (List RegressionTree)) := do
  match ← j.allFields? ["trees", "samples"] with
  | [trees, samples] =>
    let _ ← optional? samples? samples
    optional? trees? trees
  | _ => none

def ofJson? (j : Json) : Option Forest := do
  match ← j.allFields? ["forest_regressor"] with
  | [forest] => return ⟨(← optional? grown? forest).join⟩
  | _ => none

end Forest

namespace ForestModel

def toJson (m : ForestModel) : Json :=
  .object [("forests", .array (m.forests.map Forest.toJson))]

def ofJson? (j : Json) : Option ForestModel := do
  match ← j.allFields? ["forests"] with
  | [forests] => return ⟨← (← (← forests).asArray?).mapM Forest.ofJson?⟩
  | _ => none

end ForestModel
end OrderFlow
