import OrderFlow.Proofs.Feature.Matrix
import OrderFlow.Proofs.Feature.RowSamples

/-! The samples of rows and their parts. A cut at any fraction leaves samples whole: what is before
it and what is after it make up the dataset again, in the order of the rows. -/
namespace OrderFlow

/-- A window of `lookback` rows of one width, and a target of another. -/
structure Sample.IsShaped (lookback width height : Nat) (s : Sample) : Prop where
  window : s.window.length = lookback
  row : ∀ row ∈ s.window, row.length = width
  target : s.target.length = height

namespace Dataset
open Column (Row)
variable {lookback width height : Nat} {features targets : List Row} {d : Dataset} {i t : Nat}

/-- A row with a whole lookback behind it and a target that is all numbers. -/
def IsTargetRow (lookback : Nat) (features targets : List Row) (i : Nat) : Prop :=
  lookback ≤ i ∧ i < min features.length targets.length ∧
    ∃ y, targets[i]? = some y ∧ y.all Binary.isFinite = true

/-- The target of a row, with the rows right before it for a window. -/
structure IsRowSample (lookback : Nat) (features targets : List Row) (i : Nat) (s : Sample) :
    Prop where
  window : s.window = before lookback i features
  target : targets[i]? = some s.target

/-- One sample for each row that can be a target, in order. -/
theorem exists_forall₂_ofRows (hlookback : 0 < lookback) (features targets : List Row) :
    ∃ indices : List Nat, indices.Pairwise (· < ·) ∧
      (∀ i, i ∈ indices ↔ IsTargetRow lookback features targets i) ∧
      List.Forall₂ (IsRowSample lookback features targets) indices
        (ofRows lookback features targets).samples := by
  refine ⟨_,?_,fun i => ?_,(forall₂_ofRows hlookback features targets).imp ?_⟩
  · exact List.Pairwise.filter _ List.pairwise_lt_range'
  · rw [List.mem_filter, List.mem_range'_1, Option.any_eq_true, IsTargetRow, ← and_assoc]
    refine and_congr_left fun _ => ?_
    omega
  · rintro i s ⟨-,hwindow,htarget⟩
    exact ⟨hwindow,htarget⟩

/-- Samples of rectangular rows have one shape. -/
lemma isShaped_of_mem_ofRows (hlookback : 0 < lookback)
    (hfeatures : ∀ row ∈ features, row.length = width)
    (htargets : ∀ row ∈ targets, row.length = height) {s : Sample}
    (hs : s ∈ (ofRows lookback features targets).samples) : s.IsShaped lookback width height := by
  obtain ⟨i,hi,hlow,hwindow,htarget⟩ :=
    exists_of_forall₂ (forall₂_ofRows hlookback features targets) hs
  have hrange := (List.mem_filter.mp hi).1
  rw [List.mem_range'_1] at hrange
  refine ⟨?_,fun row hrow => ?_,htargets _ (List.mem_of_getElem? htarget)⟩
  · rw [hwindow]
    exact length_before hlow (by omega)
  · rw [hwindow, before] at hrow
    exact hfeatures row (List.mem_of_mem_take (List.mem_of_mem_drop hrow))

lemma length_of_mem_flattened (h : ∀ s ∈ d.samples, s.IsShaped lookback width height) {row : Row}
    (hrow : row ∈ d.flattened) : row.length = lookback * width := by
  simp only [flattened, windows, List.map_map, List.mem_map, Function.comp_apply] at hrow
  obtain ⟨s,hs,rfl⟩ := hrow
  rw [Column.length_flatten (h s hs).row, (h s hs).window]

/-- There is a column at each place of the targets. -/
lemma exists_targetColumn? (h : ∀ s ∈ d.samples, s.IsShaped lookback width height)
    (ht : t < height) : ∃ values, d.targetColumn? t = some values ∧
      List.Forall₂ (fun y v => y[t]? = some v) d.targets values := by
  obtain ⟨values,hvalues⟩ : ∃ values, d.targetColumn? t = some values := by
    refine exists_mapM_eq_some fun y hy => ?_
    obtain ⟨s,hs,rfl⟩ := List.mem_map.mp hy
    rw [isSome_getElem?, (h s hs).target]
    exact ht
  exact ⟨values,hvalues,mapM_eq_some_iff.mp hvalues⟩

/-- Two datasets that make up another, windows and targets cut at one place. -/
structure IsCut (d : Dataset) (k : Nat) (head tail : Dataset) : Prop where
  windows : head.windows ++ tail.windows = d.windows
  targets : head.targets ++ tail.targets = d.targets
  head_windows : head.windows.length = k
  head_targets : head.targets.length = k

lemma cut_le_size (d : Dataset) (fraction : Float) : d.cut fraction ≤ d.size := Nat.min_le_right ..

/-- Every fraction cuts somewhere. -/
theorem isCut_split (d : Dataset) (fraction : Float) :
    IsCut d (d.cut fraction) (d.split fraction).1 (d.split fraction).2 := by
  have hcut := cut_le_size d fraction
  rw [size] at hcut
  constructor
  · simp [split, windows]
  · simp [split, Dataset.targets]
  · simp [split, windows, hcut]
  · simp [split, Dataset.targets, hcut]

/-- The samples of rectangular rows, cut at any fraction. There is one for each row that can be a
target, in order; those before the cut are the head and the others the tail, window by window and
target by target, and all three have the shape of the rows. -/
theorem split_ofRows (hlookback : 0 < lookback) (hfeatures : ∀ row ∈ features, row.length = width)
    (htargets : ∀ row ∈ targets, row.length = height) (fraction : Float) :
    let d := ofRows lookback features targets
    let parts := d.split fraction
    ∃ earlier later : List Nat, (earlier ++ later).Pairwise (· < ·) ∧
      (∀ i, i ∈ earlier ++ later ↔ IsTargetRow lookback features targets i) ∧
      List.Forall₂ (IsRowSample lookback features targets) (earlier ++ later) d.samples ∧
      List.Forall₂ (IsRowSample lookback features targets) earlier parts.1.samples ∧
      List.Forall₂ (IsRowSample lookback features targets) later parts.2.samples ∧
      d.cut fraction ≤ d.size ∧ IsCut d (d.cut fraction) parts.1 parts.2 ∧
      ∀ part ∈ [d,parts.1,parts.2],
        (∀ s ∈ part.samples, s.IsShaped lookback width height) ∧
        (∀ row ∈ part.flattened, row.length = lookback * width) ∧
        ∀ t < height, ∃ values, part.targetColumn? t = some values ∧
          List.Forall₂ (fun y v => y[t]? = some v) part.targets values := by
  intro d parts
  obtain ⟨indices,hsorted,hmem,hsamples⟩ := exists_forall₂_ofRows hlookback features targets
  have hshaped : ∀ part ∈ [d,parts.1,parts.2], ∀ s ∈ part.samples,
      s.IsShaped lookback width height := by
    have hwhole := fun s => @isShaped_of_mem_ofRows _ _ _ _ _ hlookback hfeatures htargets s
    simp only [List.mem_cons, List.not_mem_nil, or_false]
    rintro part (rfl | rfl | rfl) s hs
    · exact hwhole s hs
    · exact hwhole s (List.mem_of_mem_take hs)
    · exact hwhole s (List.mem_of_mem_drop hs)
  refine ⟨indices.take (d.cut fraction),indices.drop (d.cut fraction),?_,fun i => ?_,?_,
    List.forall₂_take _ hsamples,List.forall₂_drop _ hsamples,cut_le_size d fraction,
    isCut_split d fraction,fun part hpart => ⟨hshaped part hpart,
      fun row hrow => length_of_mem_flattened (hshaped part hpart) hrow,
      fun t ht => exists_targetColumn? (hshaped part hpart) ht⟩⟩
  · rwa [List.take_append_drop]
  · rw [List.take_append_drop, hmem]
  · rwa [List.take_append_drop]

/-- Five rows and four targets, one of them no number. -/
theorem split_ofRows_gapped :
    let d := ofRows 1 [[0.0],[1.0],[2.0],[3.0],[4.0]] [[0.0],[10.0],[Binary.nan],[30.0]]
    ∃ earlier later : List Nat, earlier.length = 1 ∧ later.length = 1 ∧
      (earlier ++ later).Pairwise (· < ·) ∧
      List.Forall₂ (IsRowSample 1 [[0.0],[1.0],[2.0],[3.0],[4.0]] [[0.0],[10.0],[Binary.nan],[30.0]])
        (earlier ++ later) d.samples ∧
      ∃ values, (d.split 0.5).2.targetColumn? 0 = some values := by
  obtain ⟨earlier,later,hsorted,-,hsamples,hhead,htail,-,-,hparts⟩ :=
    @split_ofRows 1 1 1 [[0.0],[1.0],[2.0],[3.0],[4.0]] [[0.0],[10.0],[Binary.nan],[30.0]]
      (by decide) (by simp) (by simp) 0.5
  obtain ⟨-,-,hcolumn⟩ := hparts _ (List.mem_cons_of_mem _ (List.mem_cons_of_mem _
    List.mem_cons_self))
  obtain ⟨values,hvalues,-⟩ := hcolumn 0 (by decide)
  refine ⟨earlier,later,hhead.length_eq.trans ?_,htail.length_eq.trans ?_,hsorted,hsamples,values,
    hvalues⟩
  · decide +kernel
  · decide +kernel

end Dataset
end OrderFlow
