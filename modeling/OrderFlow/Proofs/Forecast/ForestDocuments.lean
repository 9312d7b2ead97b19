import OrderFlow.Forecast.Forest.Document
import OrderFlow.Proofs.Json.Records

/-! Forests are read back from the JSON text they are written as, with the nodes and the branches
they had, and with each number as its digits are read. -/
namespace OrderFlow
open Json

namespace Json
variable {names : List String} {values : List Json} {x : Option Float} {n : Option Nat}

lemma allFields?_reread (h : names.Nodup) (hlength : names.length = values.length) :
    allFields? names (reread (.object (names.zip values))) =
      some (values.map fun j => some (reread j)) := by
  rw [← fields?_reread h hlength]
  rfl

lemma optional?_of_some {α : Type} {read : Json → Option α} {j : Json} {a : α}
    (hnull : read .null = none) (h : read j = some a) :
    optional? read (some j) = some (some a) := by
  cases j with
  | null => simp [hnull] at h
  | _ => simp [optional?, h]

lemma optional?_asFloat?_reread (h : x.all Binary.isFinite = true) :
    optional? asFloat? (some (reread (x.elim .null .float))) = some (x.map rereadDouble) := by
  cases x with
  | none => rfl
  | some x => exact optional?_of_some rfl (asFloat?_reread h)

lemma optional?_asNat64?_reread (h : n.all (· < wordSize) = true) :
    optional? asNat64? (some (reread (n.elim .null fun i => .integer i))) = some n := by
  cases n with
  | none => rfl
  | some n => exact optional?_of_some rfl (asNat64?_reread (of_decide_eq_true h))

lemma fits_elim_integer (h : n.all (· < wordSize) = true) :
    fits (n.elim .null fun i => .integer i) = true := by
  cases n with
  | none => rfl
  | some n =>
    have hn : n < wordSize := of_decide_eq_true h
    rw [wordSize] at hn
    simp [fits]
    omega

end Json

namespace TreeNode
variable {n : TreeNode}

/-- Can all numbers of a node be written? -/
def isWritable (n : TreeNode) : Bool :=
  Binary.isFinite n.output && n.column < wordSize && n.threshold.all Binary.isFinite &&
    n.gain.all Binary.isFinite && n.below.all (· < wordSize) && n.above.all (· < wordSize)

/-- The node that is read from the text of one. -/
def reread (n : TreeNode) : TreeNode :=
  { n with
    output := rereadDouble n.output
    threshold := n.threshold.map rereadDouble
    gain := n.gain.map rereadDouble }

lemma fits_toJson (h : n.isWritable = true) : fits n.toJson = true := by
  simp only [isWritable, Bool.and_eq_true, decide_eq_true_eq] at h
  obtain ⟨⟨⟨⟨⟨-,hcolumn⟩,-⟩,-⟩,hbelow⟩,habove⟩ := h
  rw [wordSize] at hcolumn
  have hfloat : ∀ x : Option Float, fits (x.elim .null .float) = true := fun x => by cases x <;> rfl
  rw [toJson, fits]
  refine fitsMembers_zip ?_
  simp only [List.all_cons, List.all_nil, hfloat, fits_elim_integer hbelow,
    fits_elim_integer habove]
  simp [fits]
  omega

theorem ofJson?_reread (h : n.isWritable = true) :
    ofJson? (Json.reread n.toJson) = some n.reread := by
  simp only [isWritable, Bool.and_eq_true, decide_eq_true_eq] at h
  obtain ⟨⟨⟨⟨⟨houtput,hcolumn⟩,hthreshold⟩,hgain⟩,hbelow⟩,habove⟩ := h
  have hfields : allFields? fieldNames (Json.reread n.toJson) =
      some [some (Json.reread (.float n.output)),some (Json.reread (.integer n.column)),
        some (Json.reread (n.threshold.elim .null .float)),
        some (Json.reread (n.gain.elim .null .float)),
        some (Json.reread (n.below.elim .null fun i => .integer i)),
        some (Json.reread (n.above.elim .null fun i => .integer i))] :=
    allFields?_reread (by decide) rfl
  rw [ofJson?, hfields]
  dsimp only [Option.bind_eq_bind, Option.bind_some]
  rw [asFloat?_reread houtput, asNat64?_reread hcolumn, optional?_asFloat?_reread hthreshold,
    optional?_asFloat?_reread hgain, optional?_asNat64?_reread hbelow,
    optional?_asNat64?_reread habove]
  rfl

end TreeNode

namespace TreeBounds
variable {b : TreeBounds} {i : Nat} {n : Option Nat}

def isWritable (b : TreeBounds) : Bool :=
  b.maxDepth.all (· < 2 ^ 16) && b.minLeaf < wordSize && b.minSplit < wordSize &&
    b.seed.all (· < wordSize)

lemma lt_wordSize (h : i < 2 ^ 16) : i < wordSize := by
  rw [wordSize]
  omega

lemma all_lt_wordSize (h : n.all (· < 2 ^ 16) = true) : n.all (· < wordSize) = true := by
  cases n with
  | none => rfl
  | some i => exact decide_eq_true (lt_wordSize (of_decide_eq_true h))

lemma asNat16?_reread (h : i < 2 ^ 16) : asNat16? (Json.reread (.integer i)) = some i := by
  rw [asNat16?, asNat64?_reread (lt_wordSize h), Option.filter_some, if_pos (decide_eq_true h)]

lemma optional?_asNat16?_reread (h : n.all (· < 2 ^ 16) = true) :
    optional? asNat16? (some (Json.reread (n.elim .null fun i => .integer i))) = some n := by
  cases n with
  | none => rfl
  | some n => exact optional?_of_some rfl (asNat16?_reread (of_decide_eq_true h))

lemma fits_toJson (h : b.isWritable = true) : fits b.toJson = true := by
  simp only [isWritable, Bool.and_eq_true, decide_eq_true_eq] at h
  obtain ⟨⟨⟨hdepth,hleaf⟩,hsplit⟩,hseed⟩ := h
  rw [wordSize] at hleaf hsplit
  rw [toJson, fits]
  refine fitsMembers_zip ?_
  simp only [List.all_cons, List.all_nil, fits_elim_integer (all_lt_wordSize hdepth),
    fits_elim_integer hseed]
  simp [fits]
  omega

/-- Bounds are read back as they were. -/
theorem ofJson?_reread (h : b.isWritable = true) :
    ofJson? (Json.reread b.toJson) = some b := by
  simp only [isWritable, Bool.and_eq_true, decide_eq_true_eq] at h
  obtain ⟨⟨⟨hdepth,hleaf⟩,hsplit⟩,hseed⟩ := h
  have hsplitter : Splitter.ofJson? (Json.reread (.string b.splitter.name)) = some b.splitter :=
    Splitter.ofName?_name b.splitter
  have hfields : (Json.reread b.toJson).fields? fieldNames =
      some [some (Json.reread (b.maxDepth.elim .null fun i => .integer i)),
        some (Json.reread (.integer b.minLeaf)),some (Json.reread (.integer b.minSplit)),
        some (Json.reread (b.seed.elim .null fun i => .integer i)),
        some (Json.reread (.string b.splitter.name))] :=
    fields?_reread (by decide) rfl
  rw [ofJson?, hfields]
  dsimp only [Option.bind_eq_bind, Option.bind_some, orDefault]
  rw [optional?_asNat16?_reread hdepth, asNat64?_reread hleaf, asNat64?_reread hsplit,
    optional?_asNat64?_reread hseed, hsplitter]
  rfl

end TreeBounds

namespace RegressionTree
variable {t : RegressionTree}

def isWritable (t : RegressionTree) : Bool :=
  t.nodes.toList.all TreeNode.isWritable && t.bounds.all TreeBounds.isWritable && t.depth < 2 ^ 16

/-- The tree that is read from the text of one. -/
def reread (t : RegressionTree) : RegressionTree := { t with nodes := t.nodes.map TreeNode.reread }

lemma fits_toJson (h : t.isWritable = true) : fits t.toJson = true := by
  simp only [isWritable, Bool.and_eq_true, decide_eq_true_eq, List.all_eq_true] at h
  obtain ⟨⟨hnodes,hbounds⟩,hdepth⟩ := h
  have hitems : fits (.array (t.nodes.toList.map TreeNode.toJson)) = true := by
    rw [fits, fitsItems_eq, List.all_map, List.all_eq_true]
    intro n hn
    rw [Function.comp_apply, TreeNode.fits_toJson (hnodes n hn)]
  have hbounds : fits (t.bounds.elim .null TreeBounds.toJson) = true := by
    cases hb : t.bounds with
    | none => rfl
    | some b => exact TreeBounds.fits_toJson (by simpa [hb] using hbounds)
  rw [toJson, fits]
  refine fitsMembers_zip ?_
  simp only [List.all_cons, List.all_nil, hitems, hbounds]
  simp [fits]
  omega

theorem ofJson?_reread (h : t.isWritable = true) :
    ofJson? (Json.reread t.toJson) = some t.reread := by
  simp only [isWritable, Bool.and_eq_true, decide_eq_true_eq, List.all_eq_true] at h
  obtain ⟨⟨hnodes,hbounds⟩,hdepth⟩ := h
  have hitems : ((t.nodes.toList.map TreeNode.toJson).map Json.reread).mapM TreeNode.ofJson? =
      some (t.nodes.toList.map TreeNode.reread) := by
    rw [List.map_map]
    exact mapM_map_eq_some fun n hn => TreeNode.ofJson?_reread (hnodes n hn)
  have hbounds : optional? TreeBounds.ofJson?
      (some (Json.reread (t.bounds.elim .null TreeBounds.toJson))) = some t.bounds := by
    cases hb : t.bounds with
    | none => rfl
    | some b =>
      exact optional?_of_some rfl (TreeBounds.ofJson?_reread (by simpa [hb] using hbounds))
  have hfields : allFields? fieldNames (Json.reread t.toJson) =
      some [some (.array ((t.nodes.toList.map TreeNode.toJson).map Json.reread)),
        some (Json.reread (t.bounds.elim .null TreeBounds.toJson)),
        some (Json.reread (.integer t.depth)),some .null,some .null,some .null,some .null] := by
    rw [← rereadItems_eq]
    exact allFields?_reread (by decide) rfl
  rw [ofJson?, hfields]
  dsimp only [Option.bind_eq_bind, Option.bind_some, asArray?]
  rw [hitems, hbounds, TreeBounds.asNat16?_reread hdepth]
  dsimp only [Option.bind_some]
  rw [← Array.toList_map]
  rfl

end RegressionTree

namespace Forest
variable {f : Forest}

def isWritable (f : Forest) : Bool := f.trees.all (·.all RegressionTree.isWritable)

/-- The forest that is read from the text of one. -/
def reread (f : Forest) : Forest := ⟨f.trees.map (·.map RegressionTree.reread)⟩

/-- The trees of a forest in its text, null before they are grown. -/
def treesJson (f : Forest) : Json := f.trees.elim .null fun ts => .array (ts.map RegressionTree.toJson)

lemma fits_toJson (h : f.isWritable = true) : fits f.toJson = true := by
  have htrees : fits f.treesJson = true := by
    rw [treesJson]
    cases hf : f.trees with
    | none => rfl
    | some ts =>
      rw [isWritable, hf, Option.all_some, List.all_eq_true] at h
      rw [Option.elim_some, fits, fitsItems_eq, List.all_map, List.all_eq_true]
      exact fun t ht => RegressionTree.fits_toJson (h t ht)
  rw [toJson, ← treesJson]
  simp [fits, fitsMembers, htrees]

theorem ofJson?_reread (h : f.isWritable = true) :
    ofJson? (Json.reread f.toJson) = some f.reread := by
  have htrees : optional? trees? (some (Json.reread f.treesJson)) =
      some (f.trees.map (·.map RegressionTree.reread)) := by
    rw [treesJson]
    cases hf : f.trees with
    | none => rfl
    | some ts =>
      rw [isWritable, hf, Option.all_some, List.all_eq_true] at h
      refine optional?_of_some rfl ?_
      rw [Option.elim_some, Json.reread, rereadItems_eq, List.map_map, trees?]
      exact mapM_map_eq_some fun t ht => RegressionTree.ofJson?_reread (h t ht)
  have hgrown : grown? (Json.reread (.object [("trees",f.treesJson),("samples",.null)])) =
      some (f.trees.map (·.map RegressionTree.reread)) := by
    have hfields : allFields? ["trees","samples"]
        (Json.reread (.object [("trees",f.treesJson),("samples",.null)])) =
          some [some (Json.reread f.treesJson),some .null] :=
      @allFields?_reread ["trees","samples"] [f.treesJson,.null] (by decide) rfl
    rw [grown?, hfields]
    exact htrees
  have hfields : allFields? ["forest_regressor"] (Json.reread f.toJson) =
      some [some (Json.reread (.object [("trees",f.treesJson),("samples",.null)]))] :=
    @allFields?_reread ["forest_regressor"] [.object [("trees",f.treesJson),("samples",.null)]]
      (by decide) rfl
  rw [ofJson?, hfields]
  dsimp only [Option.bind_eq_bind, Option.bind_some]
  rw [optional?_of_some rfl hgrown]
  rfl

end Forest

namespace ForestModel
variable {m : ForestModel}

def isWritable (m : ForestModel) : Bool := m.forests.all Forest.isWritable

/-- The model that is read from the text of one. -/
def reread (m : ForestModel) : ForestModel := ⟨m.forests.map Forest.reread⟩

lemma fits_toJson (h : m.isWritable = true) : fits m.toJson = true := by
  rw [isWritable, List.all_eq_true] at h
  rw [toJson, fits, fitsMembers, fits, fitsItems_eq, List.all_map, fitsMembers, Bool.and_true,
    List.all_eq_true]
  exact fun f hf => Forest.fits_toJson (h f hf)

/-- A model of numbers that can be written is read back with the trees it had. -/
theorem ofJson?_reread (h : m.isWritable = true) :
    ofJson? (Json.reread m.toJson) = some m.reread := by
  rw [isWritable, List.all_eq_true] at h
  have hitems : ((m.forests.map Forest.toJson).map Json.reread).mapM Forest.ofJson? =
      some (m.forests.map Forest.reread) := by
    rw [List.map_map]
    exact mapM_map_eq_some fun f hf => Forest.ofJson?_reread (h f hf)
  have hfields : allFields? ["forests"] (Json.reread m.toJson) =
      some [some (.array ((m.forests.map Forest.toJson).map Json.reread))] := by
    rw [← rereadItems_eq]
    exact @allFields?_reread ["forests"] [.array (m.forests.map Forest.toJson)] (by decide) rfl
  rw [ofJson?, hfields]
  dsimp only [Option.bind_eq_bind, Option.bind_some, asArray?]
  rw [hitems]
  rfl

end ForestModel
end OrderFlow
