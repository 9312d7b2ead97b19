import Mathlib.Tactic.Common
import Mathlib.Tactic.Ring
import OrderFlow.Forecast.Lstm.Store
import OrderFlow.Forecast.Lstm.Training
import OrderFlow.Proofs.Outcome
import OrderFlow.Proofs.Traversal

/-! The shape of a network. A step forward, the sweep back and a step of learning keep every layer
as large as its shape says, for samples of that shape, and weights of a shape are found again among
their tensors. -/
namespace OrderFlow
namespace Lstm
variable {s : Shape} {w w' : Weights} {a b x h c : Signal} {g g' : Grid} {n rows columns : Nat}

namespace Signal

lemma length_add (ha : a.length = n) (hb : b.length = n) : (a.add b).length = n := by
  rw [add, List.length_zipWith, ha, hb, Nat.min_self]

lemma length_sub (ha : a.length = n) (hb : b.length = n) : (a.sub b).length = n := by
  rw [sub, List.length_zipWith, ha, hb, Nat.min_self]

lemma length_mul (ha : a.length = n) (hb : b.length = n) : (a.mul b).length = n := by
  rw [mul, List.length_zipWith, ha, hb, Nat.min_self]

@[simp] lemma length_zero (n : Nat) : (zero n).length = n := List.length_replicate

@[simp] lemma length_scale (k : Float32) (a : Signal) : (scale k a).length = a.length :=
  List.length_map _

end Signal

open Signal

/-- Rows in a number, each of one width. -/
structure IsGrid (rows columns : Nat) (g : Grid) : Prop where
  rows : g.length = rows
  columns : ∀ row ∈ g, row.length = columns

lemma isGrid_replicate (rows columns : Nat) :
    IsGrid rows columns (List.replicate rows (.zero columns)) where
  rows := List.length_replicate
  columns row hrow := by rw [List.eq_of_mem_replicate hrow, length_zero]

lemma IsGrid.zipWith (hg : IsGrid rows columns g) (hg' : IsGrid rows columns g')
    (f : Float32 → Float32 → Float32) :
    IsGrid rows columns (List.zipWith (List.zipWith f) g g') where
  rows := by rw [List.length_zipWith, hg.rows, hg'.rows, Nat.min_self]
  columns row hrow := by
    rw [← List.map_uncurry_zip_eq_zipWith] at hrow
    obtain ⟨p,hp,rfl⟩ := List.mem_map.mp hrow
    obtain ⟨hrow,hrow'⟩ := List.of_mem_zip hp
    change (List.zipWith f p.1 p.2).length = columns
    rw [List.length_zipWith, hg.columns _ hrow, hg'.columns _ hrow', Nat.min_self]

namespace Grid

@[simp] lemma length_apply (g : Grid) (x : Signal) : (g.apply x).length = g.length :=
  List.length_map _

lemma isGrid_outer (ha : a.length = rows) (hb : b.length = columns) :
    IsGrid rows columns (outer a b) where
  rows := by rw [outer, List.length_map, ha]
  columns row hrow := by
    obtain ⟨k,-,rfl⟩ := List.mem_map.mp hrow
    rw [length_scale, hb]

lemma length_applyTransposed (hg : ∀ row ∈ g, row.length = columns) (y : Signal) :
    (applyTransposed columns g y).length = columns := by
  have hfold (pairs : List (Signal × Float32)) (hpairs : ∀ p ∈ pairs, p.1.length = columns)
      (acc : Signal) (hacc : acc.length = columns) :
      (pairs.foldl (fun acc p => acc.add (Signal.scale p.2 p.1)) acc).length = columns := by
    induction pairs generalizing acc with
    | nil => exact hacc
    | cons p rest ih =>
      refine ih (fun q hq => hpairs q (List.mem_cons_of_mem p hq)) _ (length_add hacc ?_)
      rw [length_scale, hpairs p List.mem_cons_self]
  exact hfold _ (fun p hp => hg p.1 (List.of_mem_zip hp).1) _ (length_zero columns)

end Grid

open Grid

/-- Weights of a shape: each layer has its rows and columns. -/
structure Weights.HasShape (s : Shape) (w : Weights) : Prop where
  input : IsGrid (4 * s.hidden) s.features w.input
  recurrent : IsGrid (4 * s.hidden) s.hidden w.recurrent
  inputBias : w.inputBias.length = 4 * s.hidden
  recurrentBias : w.recurrentBias.length = 4 * s.hidden
  dense : IsGrid s.hidden s.hidden w.dense
  denseBias : w.denseBias.length = s.hidden
  head : IsGrid s.targets s.hidden w.head
  headBias : w.headBias.length = s.targets

namespace Weights

lemma hasShape_zero (s : Shape) : (zero s).HasShape s :=
  ⟨isGrid_replicate ..,isGrid_replicate ..,length_zero _,length_zero _,isGrid_replicate ..,
    length_zero _,isGrid_replicate ..,length_zero _⟩

/-- Weights combined number by number keep their shape. -/
theorem HasShape.zip (hw : w.HasShape s) (hw' : w'.HasShape s) (f : Float32 → Float32 → Float32) :
    (w.zip f w').HasShape s := by
  have hbias {n : Nat} {a b : Signal} (ha : a.length = n) (hb : b.length = n) :
      (List.zipWith f a b).length = n := by
    rw [List.length_zipWith, ha, hb, Nat.min_self]
  exact ⟨hw.input.zipWith hw'.input f,hw.recurrent.zipWith hw'.recurrent f,
    hbias hw.inputBias hw'.inputBias,hbias hw.recurrentBias hw'.recurrentBias,
    hw.dense.zipWith hw'.dense f,hbias hw.denseBias hw'.denseBias,hw.head.zipWith hw'.head f,
    hbias hw.headBias hw'.headBias⟩

end Weights

/-- A step forward through cells and inputs in the numbers of a shape. -/
structure Step.HasShape (s : Shape) (d : Step) : Prop where
  input : d.input.length = s.features
  hiddenBefore : d.hiddenBefore.length = s.hidden
  cellBefore : d.cellBefore.length = s.hidden
  inputGate : d.inputGate.length = s.hidden
  forgetGate : d.forgetGate.length = s.hidden
  candidate : d.candidate.length = s.hidden
  outputGate : d.outputGate.length = s.hidden
  cell : d.cell.length = s.hidden

lemma Step.HasShape.length_hidden {d : Step} (hd : d.HasShape s) : d.hidden.length = s.hidden :=
  length_mul hd.outputGate (by rw [List.length_map, hd.cell])

lemma length_quarter {hidden i : Nat} (hi : i < 4) (ha : a.length = 4 * hidden) :
    (quarter hidden i a).length = hidden := by
  have hfits : (i + 1) * hidden ≤ 4 * hidden := Nat.mul_le_mul_right hidden hi
  rw [quarter, List.length_take, List.length_drop, ha]
  rw [Nat.add_mul] at hfits
  omega

/-- A step forward has the shape of its weights. -/
theorem hasShape_step (hw : w.HasShape s) (hh : h.length = s.hidden) (hc : c.length = s.hidden)
    (hx : x.length = s.features) : (step s.hidden w h c x).HasShape s := by
  have hgates : (((w.input.apply x).add w.inputBias).add
      ((w.recurrent.apply h).add w.recurrentBias)).length = 4 * s.hidden :=
    length_add
      (length_add ((length_apply ..).trans hw.input.rows) hw.inputBias)
      (length_add ((length_apply ..).trans hw.recurrent.rows) hw.recurrentBias)
  have hquarter {i : Nat} (hi : i < 4) (f : Float32 → Float32) :
      ((quarter s.hidden i _).map f).length = s.hidden :=
    (List.length_map f).trans (length_quarter hi hgates)
  have hinput := hquarter (i := 0) (by decide) sigmoid
  have hforget := hquarter (i := 1) (by decide) sigmoid
  have hcandidate := hquarter (i := 2) (by decide) Float32.tanh
  have houtput := hquarter (i := 3) (by decide) sigmoid
  exact ⟨hx,hh,hc,hinput,hforget,hcandidate,houtput,
    length_add (length_mul hforget hc) (length_mul hinput hcandidate)⟩

/-- So have the steps over a sequence. -/
theorem hasShape_steps (hw : w.HasShape s) {xs : List Signal}
    (hxs : ∀ x ∈ xs, x.length = s.features) : ∀ d ∈ steps s.hidden w xs, d.HasShape s := by
  refine List.foldlRecOn (motive := fun done : List Step => ∀ d ∈ done, d.HasShape s) xs _
    (by simp) ?_
  -- a step goes on from the one on top, or from zeros where there is none
  intro done hdone x hx d hd
  rcases List.mem_cons.mp hd with rfl | hd
  · cases done with
    | nil => exact hasShape_step hw (length_zero _) (length_zero _) (hxs x hx)
    | cons last rest =>
      have hlast := hdone last List.mem_cons_self
      exact hasShape_step hw hlast.length_hidden hlast.cell (hxs x hx)
  · exact hdone d hd

@[simp] lemma length_steps (hidden : Nat) (w : Weights) (xs : List Signal) :
    (steps hidden w xs).length = xs.length := by
  have hfold (done : List Step) {next : List Step → Signal → Step} :
      (xs.foldl (fun done x => next done x :: done) done).length = done.length + xs.length := by
    induction xs generalizing done with
    | nil => rfl
    | cons x xs ih =>
      rw [List.foldl_cons, ih, List.length_cons, List.length_cons]
      omega
  exact (hfold []).trans (Nat.zero_add _)

lemma length_output (hw : w.HasShape s) (h : Signal) : (output w h).length = s.targets :=
  length_add ((length_apply ..).trans hw.head.rows) hw.headBias

/-- What is asked of a step in the numbers of a shape. -/
structure Demand.HasShape (s : Shape) (d : Demand) : Prop where
  hidden : d.hidden.length = s.hidden
  cell : d.cell.length = s.hidden

lemma length_gateDemand {d : Step} {asked : Demand} (hd : d.HasShape s) (ha : asked.HasShape s) :
    (gateDemand d asked).1.length = 4 * s.hidden ∧ (gateDemand d asked).2.length = s.hidden := by
  have hmap {a : Signal} (ha : a.length = s.hidden) (f : Float32 → Float32) :
      (a.map f).length = s.hidden := by
    rw [List.length_map, ha]
  have hshown := hmap hd.cell Float32.tanh
  have hcell := length_add ha.cell
    (length_mul (length_mul ha.hidden hd.outputGate) (hmap hshown tanhSlope))
  have hinput := length_mul (length_mul hcell hd.candidate) (hmap hd.inputGate sigmoidSlope)
  have hforget := length_mul (length_mul hcell hd.cellBefore) (hmap hd.forgetGate sigmoidSlope)
  have hcandidate := length_mul (length_mul hcell hd.inputGate) (hmap hd.candidate tanhSlope)
  have houtput := length_mul (length_mul ha.hidden hshown) (hmap hd.outputGate sigmoidSlope)
  constructor
  · rw [gateDemand, List.length_append, List.length_append, List.length_append, hinput, hforget,
      hcandidate, houtput]
    omega
  · exact length_mul hcell hd.forgetGate

/-- The sweep back keeps the shape of the gradient. -/
theorem hasShape_sweep (hw : w.HasShape s) {done : List Step} (hdone : ∀ d ∈ done, d.HasShape s)
    {asked : Demand} (ha : asked.HasShape s) {acc : Weights} (hacc : acc.HasShape s) :
    (sweep s.hidden w done asked acc).HasShape s := by
  induction done generalizing asked acc with
  | nil => exact hacc
  | cons d rest ih =>
    have hd := hdone d List.mem_cons_self
    obtain ⟨hgates,hcell⟩ := length_gateDemand hd ha
    refine ih (fun e he => hdone e (List.mem_cons_of_mem d he)) ⟨?_,hcell⟩ ?_
    · exact length_applyTransposed hw.recurrent.columns _
    · exact ⟨hacc.input.zipWith (isGrid_outer hgates hd.input) _,
        hacc.recurrent.zipWith (isGrid_outer hgates hd.hiddenBefore) _,
        length_add hacc.inputBias hgates,length_add hacc.recurrentBias hgates,hacc.dense,
        hacc.denseBias,hacc.head,hacc.headBias⟩

theorem hasShape_gradient (hw : w.HasShape s) {done : List Step} (hdone : ∀ d ∈ done, d.HasShape s)
    {asked : Signal} (ha : done ≠ [] → asked.length = s.targets) :
    (gradient s w done asked).HasShape s := by
  cases done with
  | nil => exact Weights.hasShape_zero s
  | cons last rest =>
    have hlast := (hdone last List.mem_cons_self).length_hidden
    have hasked := ha (List.cons_ne_nil last rest)
    have hbefore : (denseInput w last.hidden).length = s.hidden :=
      length_add ((length_apply ..).trans hw.dense.rows) hw.denseBias
    have hdense : (List.zipWith (fun x d => if 0 ≤ x then d else 0) (denseInput w last.hidden)
        (w.head.applyTransposed s.hidden asked)).length = s.hidden := by
      rw [List.length_zipWith, hbefore, length_applyTransposed hw.head.columns, Nat.min_self]
    have hzero := Weights.hasShape_zero s
    refine hasShape_sweep hw hdone ⟨?_,length_zero _⟩ ?_
    · exact length_applyTransposed hw.dense.columns _
    · exact ⟨hzero.input,hzero.recurrent,hzero.inputBias,hzero.recurrentBias,
        isGrid_outer hdense hlast,hdense,
        isGrid_outer hasked (by rw [List.length_map, hbefore]),hasked⟩

/-- An example with inputs and a target in the numbers of a shape. -/
structure Example.HasShape (s : Shape) (e : Example) : Prop where
  inputs : ∀ x ∈ e.inputs, x.length = s.features
  target : e.target.length = s.targets

/-- What is learned from a batch is a gradient of the shape of the weights. -/
theorem hasShape_learn (hw : w.HasShape s) {batch : List Example}
    (hbatch : ∀ e ∈ batch, e.HasShape s) : (learn s w batch).gradient.HasShape s := by
  refine List.foldlRecOn (motive := fun acc : Learned => acc.gradient.HasShape s) batch _
    (Weights.hasShape_zero s) ?_
  intro acc hacc e he
  refine hacc.zip (hasShape_gradient hw (hasShape_steps hw (hbatch e he).inputs) ?_) _
  intro hne
  cases hdone : steps s.hidden w e.inputs with
  | nil => exact absurd hdone hne
  | cons last rest =>
    rw [List.length_map]
    exact length_sub (length_output hw _) (hbatch e he).target

namespace Momentum

/-- Running means of gradients of a shape. -/
structure HasShape (s : Shape) (m : Momentum) : Prop where
  mean : m.mean.HasShape s
  square : m.square.HasShape s

variable {m : Momentum}

lemma hasShape_start (s : Shape) : (start s).HasShape s :=
  ⟨Weights.hasShape_zero s,Weights.hasShape_zero s⟩

lemma HasShape.update (hm : m.HasShape s) (hw : w.HasShape s) : (m.update w).HasShape s :=
  ⟨hm.mean.zip hw _,hm.square.zip hw _⟩

lemma HasShape.apply (hm : m.HasShape s) (hw : w.HasShape s) (rate : Float) :
    (m.apply rate w).HasShape s :=
  hw.zip (hm.mean.zip hm.square _) _

end Momentum

section Tensors

lemma IsGrid.length_flatten (hg : IsGrid rows columns g) : g.flatten.length = rows * columns := by
  rw [List.length_flatten, List.map_congr_left hg.columns, List.map_const', hg.rows,
    List.sum_replicate_nat]

/-- A grid is its numbers cut into rows again. -/
lemma IsGrid.rowsOf_flatten (hg : IsGrid rows columns g) : rowsOf columns rows g.flatten = g := by
  obtain ⟨rfl,hcolumns⟩ := hg
  induction g with
  | nil => rfl
  | cons row rest ih =>
    obtain ⟨rfl,hrest⟩ := List.forall_mem_cons.mp hcolumns
    rw [List.length_cons, rowsOf, List.flatten_cons, List.take_left, List.drop_left, ih hrest]

/-- Weights of a shape are found again among their tensors. -/
theorem Weights.HasShape.ofTensors?_tensors (hw : w.HasShape s) :
    Weights.ofTensors? s (w.tensors s) = some w := by
  simp [Weights.ofTensors?, Weights.tensors, find?, findGrid?, bias, grid, Option.filter_some,
    hw.inputBias, hw.recurrentBias, hw.denseBias, hw.headBias, hw.input.rows, hw.recurrent.rows,
    hw.dense.rows, hw.head.rows, hw.input.rowsOf_flatten, hw.recurrent.rowsOf_flatten,
    hw.dense.rowsOf_flatten, hw.head.rowsOf_flatten]

end Tensors

end Lstm

namespace LstmModel
open Column (Row)
open Lstm
variable {m : LstmModel} {s : Shape} {p p' : Progress} {settings : LstmSettings}
  {train val : Dataset}

lemma narrow_eq_ok_iff {width : Nat} {row : Row} {x : Signal} :
    narrow width row = .ok x ↔ row.length = width ∧ row.map Float.toFloat32 = x := by
  rw [narrow]
  split_ifs with h <;> simp [h, fail]

lemma hasShape_of_example {sample : Sample} {e : Example} (h : Example.of s sample = .ok e) :
    e.HasShape s := by
  simp only [Example.of, bind_eq_ok_iff, pure_eq_ok_iff] at h
  obtain ⟨inputs,hinputs,target,htarget,rfl⟩ := h
  constructor
  · intro x hx
    obtain ⟨row,-,hrow⟩ := exists_of_forall₂ (mapM_eq_ok_iff.mp hinputs) hx
    obtain ⟨hlength,rfl⟩ := narrow_eq_ok_iff.mp hrow
    exact (List.length_map _).trans hlength
  · obtain ⟨hlength,rfl⟩ := narrow_eq_ok_iff.mp htarget
    exact (List.length_map _).trans hlength

/-- A model whose weights have its shape. -/
def IsShaped (m : LstmModel) : Prop := m.weights.HasShape m.shape

/-- The parameters of a model are the numbers of all its tensors. -/
theorem IsShaped.sum_tensors (h : m.IsShaped) :
    ((m.weights.tensors m.shape).map (·.values.length)).sum = m.parameterCount := by
  have ⟨hinput,hrecurrent,hinputBias,hrecurrentBias,hdense,hdenseBias,hhead,hheadBias⟩ := h
  simp only [Weights.tensors, bias, grid, List.map_cons, List.map_nil, List.sum_cons, List.sum_nil,
    hinput.length_flatten, hrecurrent.length_flatten, hdense.length_flatten, hhead.length_flatten,
    hinputBias, hrecurrentBias, hdenseBias, hheadBias, parameterCount]
  ring

/-- There is an output for every sequence but the empty one. -/
lemma exists_run (m : LstmModel) {xs : List Signal} (hxs : xs ≠ []) :
    ∃ h, m.run xs = .ok (output m.weights h) := by
  rw [run]
  cases hsteps : steps m.shape.hidden m.weights xs with
  | nil =>
    have hlength := length_steps m.shape.hidden m.weights xs
    rw [hsteps] at hlength
    exact absurd (List.length_eq_zero_iff.mp hlength.symm) hxs
  | cons last rest => exact ⟨last.hidden,rfl⟩

/-- A model of a shape forecasts every target from each window of rows with all features. -/
theorem IsShaped.exists_predict (h : m.IsShaped) {window : List Row} (hne : window ≠ [])
    (hwindow : ∀ row ∈ window, row.length = m.shape.features) :
    ∃ values, m.predict window = .ok values ∧ values.length = m.shape.targets := by
  have hinputs : window.mapM (narrow m.shape.features) = .ok (window.map (·.map Float.toFloat32)) :=
    mapM_eq_ok_map fun row hrow => narrow_eq_ok_iff.mpr ⟨hwindow row hrow,rfl⟩
  obtain ⟨last,hrun⟩ := m.exists_run (List.map_eq_nil_iff.not.mpr hne)
  refine ⟨_,bind_eq_ok_iff.mpr ⟨_,hinputs,bind_eq_ok_iff.mpr ⟨_,hrun,rfl⟩⟩,?_⟩
  rw [List.length_map, length_output h]

lemma isGrid_randomGrid (bound : Float) (rows columns : Nat) (r : Random) :
    IsGrid rows columns (randomGrid bound rows columns r).1 where
  rows := Random.length_many ..
  columns := Random.forall_mem_many (P := fun row : Signal => row.length = columns)
    (fun _ => (List.length_map _).trans (Random.length_many ..)) rows r

/-- So is a model to start from. -/
theorem isShaped_random (s : Shape) (r : Random) : (random s r).1.IsShaped := by
  have hzero := Weights.hasShape_zero s
  exact ⟨isGrid_randomGrid ..,isGrid_randomGrid ..,hzero.inputBias,hzero.recurrentBias,
    isGrid_randomGrid ..,hzero.denseBias,isGrid_randomGrid ..,hzero.headBias⟩

/-- A model in training that has a shape, with means of gradients of that shape. -/
structure Progress.HasShape (s : Shape) (p : Progress) : Prop where
  shape : p.model.shape = s
  weights : p.model.weights.HasShape s
  momentum : p.momentum.HasShape s

/-- Learning from a batch keeps the shape. -/
theorem hasShape_learnBatch {rate : Float} {batch : List Sample} (hp : p.HasShape s)
    (h : learnBatch rate p batch = .ok p') : p'.HasShape s := by
  simp only [learnBatch, bind_eq_ok_iff, pure_eq_ok_iff] at h
  obtain ⟨examples,hexamples,rfl⟩ := h
  obtain ⟨rfl,hweights,hmomentum⟩ := hp
  have hbatch : ∀ e ∈ examples, e.HasShape p.model.shape := by
    intro e he
    obtain ⟨sample,-,hsample⟩ := exists_of_forall₂ (mapM_eq_ok_iff.mp hexamples) he
    exact hasShape_of_example hsample
  have hupdate := hmomentum.update (hasShape_learn hweights hbatch)
  exact ⟨rfl,hupdate.apply hweights rate,hupdate⟩

/-- So does learning from batches in turn, also where it breaks off. -/
theorem hasShape_learnBatches (rate : Float) (batches : List (List Sample)) (hp : p.HasShape s) :
    (learnBatches rate batches p).1.HasShape s := by
  induction batches generalizing p with
  | nil => exact hp
  | cons batch rest ih =>
    rw [learnBatches]
    cases h : learnBatch rate p batch with
    | ok p' => exact ih (hasShape_learnBatch hp h)
    | error f => exact hp

lemma hasShape_learnEpochs (settings : LstmSettings) (train val : Dataset) (n epoch : Nat)
    (hp : p.HasShape s) (r : Random) :
    (learnEpochs settings train val n epoch p r).1.shape = s ∧
      (learnEpochs settings train val n epoch p r).1.weights.HasShape s := by
  induction n generalizing epoch p r with
  | zero => exact ⟨hp.shape,hp.weights⟩
  | succ n ih =>
    have hstart : ({ p with losses := 0.0 } : Progress).HasShape s :=
      ⟨hp.shape,hp.weights,hp.momentum⟩
    have hlearned := hasShape_learnBatches settings.learningRate
      (batches (max 1 settings.batchSize) train.size (r.shuffled train.samples).1) hstart
    rw [learnEpochs]
    dsimp only
    split
    · exact ⟨hlearned.shape,hlearned.weights⟩
    · exact ih _ hlearned _

/-- Fitting keeps the shape of a model, whatever the samples and also where it fails. -/
theorem isShaped_fit (h : m.IsShaped) (settings : LstmSettings) (train val : Dataset) (r : Random) :
    (m.fit settings train val r).1.shape = m.shape ∧ (m.fit settings train val r).1.IsShaped := by
  have hstart : Progress.HasShape m.shape ⟨m,.start m.shape,0.0⟩ :=
    ⟨rfl,h,Momentum.hasShape_start m.shape⟩
  rw [fit]
  split_ifs
  · exact ⟨rfl,h⟩
  · exact ⟨rfl,h⟩
  · obtain ⟨hshape,hweights⟩ :=
      hasShape_learnEpochs settings train val settings.epochs 1 hstart r
    exact ⟨hshape,by rwa [IsShaped, hshape]⟩

end LstmModel
end OrderFlow
