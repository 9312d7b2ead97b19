import Mathlib.Data.List.Sort
import OrderFlow.Power
import OrderFlow.Proofs.Feature.FutureRange
import OrderFlow.Proofs.Feature.Matrix
import OrderFlow.Proofs.Feature.Windows

/-! The samples of excursions: one for each candle that has the whole lookback behind it, the
whole horizon ahead and only numbers, and none of them sees its candle or a later one. -/
namespace OrderFlow.Dataset
variable {columns : List Column} {lookback horizon i : Nat} {candles : List Candle}
  {labels : List (Option FutureRange)} {s : Sample}

/-- The rows of the candles before candle `i`, with its excursions over the whole horizon. -/
structure IsRangeSample (columns : List Column) (lookback horizon : Nat) (candles : List Candle)
    (labels : List (Option FutureRange)) (i : Nat) (s : Sample) : Prop where
  window : Column.matrix? columns (before lookback i candles) = some s.window
  window_length : s.window.length = lookback
  target_length : s.target.length = 2 * horizon
  target : ∃ c r, candles[i]? = some c ∧ labels[i]? = some (some r) ∧ s.target = r.toList ∧
    i + horizon < candles.length ∧
    r.up = (List.range horizon).map (fun k =>
      FutureRange.rise c ((candles.drop (i + 1)).take (k + 1))) ∧
    r.down = (List.range horizon).map fun k =>
      FutureRange.fall c ((candles.drop (i + 1)).take (k + 1))

/-- A candle with a whole lookback, a whole horizon and excursions that are numbers. -/
def IsUsable (lookback horizon : Nat) (labels : List (Option FutureRange)) (i : Nat) : Prop :=
  lookback ≤ i ∧ i + horizon < labels.length ∧
    ∃ r, labels[i]? = some (some r) ∧ r.isFinite = true

theorem IsRangeSample.window_eq {candles' : List Candle} {labels' : List (Option FutureRange)}
    {s' : Sample} (h : IsRangeSample columns lookback horizon candles labels i s)
    (h' : IsRangeSample columns lookback horizon candles' labels' i s')
    (hbefore : candles.take i = candles'.take i) : s.window = s'.window := by
  have hwindow := h.window
  rw [before_congr hbefore, h'.window] at hwindow
  exact (Option.some.inj hwindow).symm

/-- The excursions that a sample is made of. -/
def usable? (horizon : Nat) (label : Option FutureRange) : Option FutureRange :=
  label.filter fun r => r.horizon == horizon && r.isFinite

lemma usable?_eq_some_iff {label : Option FutureRange} {r : FutureRange} :
    usable? horizon label = some r ↔ label = some r ∧ r.horizon = horizon ∧ r.isFinite = true := by
  simp [usable?, Option.filter_eq_some_iff]

/-- The rows before a usable candle and its excursions are a sample. -/
lemma isRangeSample_of_usable {rows : List Column.Row} {r : FutureRange}
    (hrows : Column.matrix? columns candles = some rows) (hlow : lookback ≤ i)
    (hhigh : i + horizon < candles.length)
    (hr : (FutureRange.build horizon candles)[i]? = some (some r)) :
    IsRangeSample columns lookback horizon candles (FutureRange.build horizon candles) i
      ⟨before lookback i rows,r.toList⟩ := by
  have hlength := Column.length_of_matrix? hrows
  obtain ⟨c,hc,rfl⟩ := FutureRange.eq_of_getElem?_build hr
  refine ⟨mapM_before hrows _ _,length_before hlow (by omega),FutureRange.length_toList_ofCandle,
    _,_,hc,hr,rfl,hhigh,?_,?_⟩
  all_goals rw [FutureRange.ofCandle_eq]

lemma ofRanges?_eq (hlookback : 0 < lookback) (hsum : lookback + horizon < wordSize)
    (htwice : 2 * horizon < wordSize) (hlength : labels.length = candles.length)
    {rows : List Column.Row} (hrows : Column.matrix? columns candles = some rows) :
    ofRanges? columns lookback horizon candles labels =
      some { empty lookback columns.length (2 * horizon) with
        samples := (preceded lookback rows (labels.take (candles.length - horizon))).filterMap
          fun (window,label) => (usable? horizon label).map fun r => ⟨window,r.toList⟩ } := by
  rw [ofRanges?]
  simp only [hlength, min_self, List.take_length, hrows, Option.map_some]
  rw [if_neg (by omega)]
  split_ifs with hshort
  · have hnone : (labels.take (candles.length - horizon)).drop lookback = [] := by
      rw [List.drop_eq_nil_iff, List.length_take]
      omega
    simp [preceded, hnone, empty]
  · rfl

/-- The candles that samples are about. -/
def usable (lookback horizon : Nat) (labels : List (Option FutureRange)) : List Nat :=
  (List.range' lookback (labels.length - horizon - lookback)).filter fun i =>
    (usable? horizon labels[i]?.join).isSome

lemma usable_pairwise : (usable lookback horizon labels).Pairwise (· < ·) :=
  List.Pairwise.filter _ List.pairwise_lt_range'

lemma mem_usable :
    i ∈ usable lookback horizon (FutureRange.build horizon candles) ↔
      IsUsable lookback horizon (FutureRange.build horizon candles) i := by
  simp only [usable, List.mem_filter, List.mem_range'_1, Option.isSome_iff_exists,
    usable?_eq_some_iff, Option.join_eq_some_iff, IsUsable]
  constructor
  · rintro ⟨hi,r,hr,-,hfinite⟩
    exact ⟨hi.1,by omega,r,hr,hfinite⟩
  · rintro ⟨hlow,hhigh,r,hr,hfinite⟩
    obtain ⟨c,-,rfl⟩ := FutureRange.eq_of_getElem?_build hr
    exact ⟨⟨hlow,by omega⟩,_,hr,FutureRange.horizon_ofCandle,hfinite⟩

/-- Every usable candle gives one sample, and no other candle does. -/
lemma forall₂_samples {rows : List Column.Row}
    (hrows : Column.matrix? columns candles = some rows) :
    let table := FutureRange.build horizon candles
    List.Forall₂ (IsRangeSample columns lookback horizon candles table)
      (usable lookback horizon table)
      ((preceded lookback rows (table.take (candles.length - horizon))).filterMap
        fun (window,label) => (usable? horizon label).map fun r => ⟨window,r.toList⟩) := by
  intro table
  have htable : table.length = candles.length := FutureRange.length_build
  have hcut : (table.take (candles.length - horizon)).length = table.length - horizon := by
    rw [List.length_take]
    omega
  have henough : (table.take (candles.length - horizon)).length ≤ rows.length := by
    rw [hcut, Column.length_of_matrix? hrows]
    omega
  have hpairs := preceded_before lookback henough
  rw [hcut] at hpairs
  refine forall₂_filter_filterMap hpairs ?_ ?_
  · rintro i ⟨window,label⟩ ⟨hlow,rfl,hlabel⟩ hkept
    obtain ⟨hi,-⟩ := List.getElem?_eq_some_iff.mp hlabel
    rw [List.getElem?_take_of_lt (by omega)] at hlabel
    obtain ⟨r,hr⟩ : ∃ r, usable? horizon label = some r := by
      simpa [hlabel, Option.isSome_iff_exists] using hkept
    obtain ⟨rfl,-,-⟩ := usable?_eq_some_iff.mp hr
    exact ⟨_,by simp [hr],isRangeSample_of_usable hrows hlow (by omega) hlabel⟩
  · rintro i ⟨window,label⟩ ⟨-,-,hlabel⟩ hdropped
    obtain ⟨hi,-⟩ := List.getElem?_eq_some_iff.mp hlabel
    rw [List.getElem?_take_of_lt (by omega)] at hlabel
    simpa [hlabel] using hdropped

/-- The dataset of excursions is complete, and its windows see only the candles before. -/
theorem ofRanges?_complete (hlookback : 0 < lookback) (hsum : lookback + horizon < wordSize)
    (htwice : 2 * horizon < wordSize)
    (hdelta : .delta ∈ columns → ∀ c ∈ candles, c.delta?.isSome)
    (hlabels : FutureRange.build? horizon candles = some labels) :
    ∃ d indices, ofRanges? columns lookback horizon candles labels = some d ∧
      indices.Pairwise (· < ·) ∧ (∀ i, i ∈ indices ↔ IsUsable lookback horizon labels i) ∧
      List.Forall₂ (IsRangeSample columns lookback horizon candles labels) indices d.samples ∧
      ∀ candles' labels' i s s', candles.take i = candles'.take i →
        IsRangeSample columns lookback horizon candles labels i s →
        IsRangeSample columns lookback horizon candles' labels' i s' → s.window = s'.window := by
  obtain ⟨rows,hrows⟩ := Column.exists_matrix? hdelta
  obtain rfl := FutureRange.eq_build_of_build? hlabels
  exact ⟨_,_,ofRanges?_eq hlookback hsum htwice FutureRange.length_build hrows,usable_pairwise,
    fun _ => mem_usable,forall₂_samples hrows,
    fun _ _ _ _ _ hbefore h h' => h.window_eq h' hbefore⟩

/-- One candle a minute, at prices `2`, `3`, `0`, `3` and `4`. Nothing rises or falls relative to
the free one. -/
def patchyCandles : List Candle :=
  [2, 3, 0, 3, 4].zipIdx.map fun (price,k) =>
    let price := (Decimal.of? price 0).getD .zero
    .flat (60000 * k) .oneMinute price price

theorem ofRanges?_complete_patchy :
    ∃ d s t, ofRanges? Column.range 1 1 patchyCandles (FutureRange.build 1 patchyCandles) = some d ∧
      d.samples = [s,t] ∧
      IsRangeSample Column.range 1 1 patchyCandles (FutureRange.build 1 patchyCandles) 1 s ∧
      IsRangeSample Column.range 1 1 patchyCandles (FutureRange.build 1 patchyCandles) 3 t := by
  have husable : usable 1 1 (FutureRange.build 1 patchyCandles) = [1,3] := by decide +kernel
  obtain ⟨d,indices,hd,hsorted,hmem,hsamples,-⟩ :=
    @ofRanges?_complete Column.range 1 1 patchyCandles _ (by decide) (by decide) (by decide)
      (fun _ => by decide +kernel) rfl
  obtain rfl : indices = [1,3] := by
    refine hsorted.eq_of_mem_iff (by decide) fun i => ?_
    rw [hmem, ← husable]
    exact mem_usable.symm
  generalize hs : d.samples = samples at hsamples
  cases hsamples with
  | cons hfirst hrest =>
    cases hrest with
    | cons hsecond hnone =>
      cases hnone
      exact ⟨d,_,_,hd,hs,hfirst,hsecond⟩

/-- A candle whose difference of volumes no decimal holds. -/
def lopsidedCandle : Candle :=
  { Candle.flat 120000 .oneMinute .zero .zero with
    buyVolume := (Decimal.of? (2 ^ 96 - 1) 0).getD .zero
    sellVolume := (Decimal.of? (-1) 0).getD .zero }

/-- A missing difference fails also where no window reads it, and so does a lookback or a horizon
whose sum or double is no word, even where there is no sample to make. -/
theorem ofRanges?_missing :
    (∃ labels, FutureRange.build? 1 (patchyCandles.take 2 ++ [lopsidedCandle]) = some labels ∧
      ofRanges? [.delta] 1 1 (patchyCandles.take 2 ++ [lopsidedCandle]) labels = none) ∧
    (∃ labels, FutureRange.build? 1 patchyCandles = some labels ∧
      ofRanges? Column.range (wordSize - 1) 1 patchyCandles labels = none) ∧
    ∃ labels, FutureRange.build? (wordSize / 2) [] = some labels ∧
      ofRanges? Column.range 1 (wordSize / 2) [] labels = none := by
  refine ⟨⟨_,rfl,?_⟩,⟨_,rfl,?_⟩,_,rfl,?_⟩
  · rw [← Option.isNone_iff_eq_none]
    decide +kernel
  · rw [ofRanges?]
    exact if_pos (.inr (by decide))
  · rw [ofRanges?]
    exact if_pos (.inl (by decide))

end OrderFlow.Dataset
