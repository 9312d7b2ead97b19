import Mathlib.Data.List.Basic
import OrderFlow.Proofs.Feature.Matrix
import OrderFlow.Proofs.Files.Writing
import OrderFlow.Proofs.Forecast.ForestDocuments
import OrderFlow.Proofs.Forecast.Reloading

/-! Forests whose trees only branch to later nodes forecast from every window of their shape, as they
are and as they are read back. -/
namespace OrderFlow
open Column (Row)

namespace RegressionTree
variable {t : RegressionTree} {row : Row} {width steps i : Nat}

/-- Does a node end a walk, or branch on a column to nodes after it? -/
def isStep (size width i : Nat) (n : TreeNode) : Bool :=
  (n.below.isNone && n.above.isNone) ||
    (n.column < width && n.below.any (fun j => i < j && j < size) &&
      n.above.any fun j => i < j && j < size)

/-- Does every walk of a row of some width through the tree end? -/
def isSound (width : Nat) (t : RegressionTree) : Bool :=
  0 < t.nodes.size && t.nodes.toList.zipIdx.all fun (n,i) => isStep t.nodes.size width i n

@[simp] lemma isSound_reread (width : Nat) (t : RegressionTree) :
    t.reread.isSound width = t.isSound width := by
  rw [isSound, isSound, reread, Array.size_map, Array.toList_map, List.zipIdx_map, List.all_map]
  rfl

lemma isStep_of_isSound {n : TreeNode} (h : t.isSound width = true)
    (hn : t.nodes[i]? = some n) : isStep t.nodes.size width i n = true := by
  rw [isSound, Bool.and_eq_true, List.all_eq_true] at h
  refine h.2 (n,i) (List.mem_zipIdx_iff_getElem?.mpr ?_)
  rwa [Array.getElem?_toList]

/-- Each step goes to a later node, so a walk ends within as many steps as there are nodes. -/
theorem isSome_walk (h : t.isSound width = true) (hrow : row.length = width)
    (hi : i < t.nodes.size) (hsteps : t.nodes.size ≤ i + steps) :
    (t.walk row steps i).isSome = true := by
  induction steps generalizing i with
  | zero => omega
  | succ steps ih =>
    obtain ⟨n,hn⟩ : ∃ n, t.nodes[i]? = some n := ⟨_,Array.getElem?_eq_getElem hi⟩
    have hstep := isStep_of_isSound h hn
    have hchild : ∀ child : Option Nat, child.any (fun j => i < j && j < t.nodes.size) = true →
        (child.bind fun j => t.walk row steps j).isSome = true := by
      intro child hchild
      obtain ⟨j,rfl,hj⟩ := (Option.any_eq_true _ _).mp hchild
      rw [Bool.and_eq_true, decide_eq_true_eq, decide_eq_true_eq] at hj
      exact ih hj.2 (by omega)
    rw [walk, hn]
    simp only [Option.bind_eq_bind, Option.bind_some]
    split
    case isTrue => rfl
    case isFalse hinner =>
      rw [isStep, Bool.or_eq_true, or_iff_right hinner, Bool.and_eq_true, Bool.and_eq_true,
        decide_eq_true_eq] at hstep
      obtain ⟨⟨hcolumn,hbelow⟩,habove⟩ := hstep
      rw [List.getElem?_eq_getElem (hrow ▸ hcolumn), Option.bind_some]
      split
      · exact hchild _ hbelow
      · exact hchild _ habove

lemma isSome_predict? (h : t.isSound width = true) (hrow : row.length = width) :
    (t.predict? row).isSome = true := by
  have hroot := h
  rw [isSound, Bool.and_eq_true, decide_eq_true_eq] at hroot
  exact isSome_walk h hrow hroot.1 (by omega)

end RegressionTree

namespace Forest
variable {f : Forest} {row : Row} {width : Nat}

/-- Are there trees, and does every walk of a row of some width through them end? -/
def isSound (width : Nat) (f : Forest) : Bool := f.trees.any (·.all (·.isSound width))

@[simp] lemma isSound_reread (width : Nat) (f : Forest) :
    f.reread.isSound width = f.isSound width := by
  cases hf : f.trees with
  | none => simp [isSound, reread, hf]
  | some ts => simp [isSound, reread, hf, Function.comp_def]

lemma isSome_predict? (h : f.isSound width = true) (hrow : row.length = width) :
    (f.predict? row).isSome = true := by
  obtain ⟨ts,hts,hall⟩ := (Option.any_eq_true _ _).mp h
  rw [List.all_eq_true] at hall
  obtain ⟨outputs,houtputs⟩ : ∃ outputs, ts.mapM (·.predict? row) = some outputs :=
    exists_mapM_eq_some fun t ht => RegressionTree.isSome_predict? (hall t ht) hrow
  rw [predict?, hts]
  simp [houtputs]

end Forest

namespace ForestModel
variable {m : ForestModel} {window : List Row} {width features targets : Nat}
  {metadata : ModelMetadata} {p : Path} {t t' : FileTree}

def isSound (width : Nat) (m : ForestModel) : Bool := m.forests.all (·.isSound width)

@[simp] lemma isSound_reread (width : Nat) (m : ForestModel) :
    m.reread.isSound width = m.isSound width := by
  simp [isSound, reread, Function.comp_def]

/-- A sound model forecasts one value for each of its forests. -/
theorem exists_predict (h : m.isSound width = true) (hwidth : window.flatten.length = width)
    (hpos : 0 < width) :
    ∃ values, m.predict window = .ok values ∧ values.length = m.forests.length := by
  rw [isSound, List.all_eq_true] at h
  obtain ⟨values,hvalues⟩ : ∃ values, m.forests.mapM (·.predict? window.flatten) = some values :=
    exists_mapM_eq_some fun f hf => Forest.isSome_predict? (h f hf) hwidth
  refine ⟨values,?_,(mapM_eq_some_iff.mp hvalues).length_eq.symm⟩
  have hne : window.flatten.isEmpty = false := by
    rw [List.isEmpty_eq_false_iff, ← List.length_pos_iff, hwidth]
    exact hpos
  rw [predict, hne, hvalues]
  rfl

lemma succeeds_save_iff :
    Storing.Succeeds (m.save p) t () t' ↔ Storing.Succeeds (JsonFile.write p m.toJson) t () t' := by
  have hresult : Storing.result (m.save p) t =
      ((Storing.result (JsonFile.write p m.toJson) t).1.mapError fun f =>
        .ofCause (.forest f.message),(Storing.result (JsonFile.write p m.toJson) t).2) := rfl
  rw [Storing.Succeeds, Storing.Succeeds, hresult, Prod.mk.injEq, mapError_eq_ok_iff, Prod.ext_iff]

/-- A model of numbers that can be written is read again from where it was saved. -/
theorem load_of_save (hwritable : m.isWritable = true) (h : Storing.Succeeds (m.save p) t () t') :
    load t' p = .ok m.reread := by
  have hfound := (JsonFile.writes_of_write (succeeds_save_iff.mp h)).found
  rw [load, if_pos (by rw [FileTree.exists?, hfound]; rfl)]
  refine JsonFile.read_of_found hfound ?_
  rw [Json.parse?_toIndentedText (fits_toJson hwritable), Option.bind_some,
    ofJson?_reread hwritable]

/-- A sound model of numbers that can be written serves the windows it is sound for. -/
theorem serves_of_isSound (hkind : metadata.kind = .forest) (hwritable : m.isWritable = true)
    (hsound : m.isSound (metadata.lookback * features) = true)
    (hpos : 0 < metadata.lookback * features) (hcount : m.forests.length = targets) :
    (Forecaster.forest m).Serves metadata features targets := by
  intro p t t' hsave
  refine ⟨.forest m.reread,?_,fun window hlength hrows => ?_⟩
  · rw [Forecaster.load, hkind]
    dsimp only
    rw [load_of_save hwritable hsave]
    rfl
  · have hwidth : window.flatten.length = metadata.lookback * features := by
      rw [Column.length_flatten hrows, hlength]
    obtain ⟨values,hvalues,hcounted⟩ :=
      exists_predict ((isSound_reread ..).trans hsound) hwidth hpos
    exact ⟨values,hvalues,hcounted.trans (by rw [reread, List.length_map, hcount])⟩

end ForestModel

namespace Forecaster
variable {model : Forecaster} {metadata : ModelMetadata} {features targets : Nat}

/-- Is the model a forest of this many targets that serves windows of this many numbers? -/
def isServing (width targets : Nat) : Forecaster → Bool
  | forest m => m.isWritable && m.isSound width && m.forests.length == targets
  | lstm _ => false

lemma serves_of_isServing (hkind : metadata.kind = .forest)
    (hpos : 0 < metadata.lookback * features)
    (h : model.isServing (metadata.lookback * features) targets = true) :
    model.Serves metadata features targets := by
  cases model with
  | lstm => cases h
  | forest m =>
    rw [isServing, Bool.and_eq_true, Bool.and_eq_true, beq_iff_eq] at h
    exact ForestModel.serves_of_isSound hkind h.1.1 h.1.2 hpos h.2

end Forecaster
end OrderFlow
