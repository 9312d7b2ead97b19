import OrderFlow.Proofs.Feature.RowSamples
import OrderFlow.Proofs.Forecast.Serving
import OrderFlow.Proofs.Forecast.TrainingRun
import OrderFlow.Proofs.Positions

/-! Which candles a model sees. Candles with a feature or target that is no number are left out
before windows are cut, so a window is the last of the clean candles, and these are the candles
right before its target, or the last of the series, only where none of them was left out. -/
namespace OrderFlow

namespace Training
open Column (Row row? matrix?)
open Dataset (before)
open ModelStore (lastRows)
variable {α : Type} {keep : α → Bool} {as : List α} {s : Scaler} {columns : List Column}
  {candles : List Candle} {rows xs ys : List Row} {n i k : Nat} {settings : TrainingSettings}
  {p : Prepared}

lemma length_lastRows (h : n ≤ as.length) : (lastRows n as).length = n := by
  simp [lastRows]
  omega

lemma lastRows_take (h : i ≤ as.length) : lastRows n (as.take i) = before n i as := by
  rw [lastRows, before, List.length_take, Nat.min_eq_left h]

lemma lastRows_eq_before (n : Nat) (as : List α) : lastRows n as = before n as.length as := by
  rw [lastRows, before, List.take_length]

/-- The last kept members are those right before a place exactly where all of these are kept. -/
theorem lastRows_filter_eq_iff (hn : n ≤ ((as.take k).filter keep).length) (hk : k ≤ as.length) :
    lastRows n ((as.take k).filter keep) = before n k as ↔
      ∀ a ∈ before n k as, keep a = true := by
  constructor
  · intro h a ha
    rw [← h] at ha
    exact List.of_mem_filter (List.mem_of_mem_drop ha)
  · intro h
    have hle := hn.trans (List.length_filter_le _ _)
    rw [List.length_take] at hle
    have hcut : as.take k = (as.take k).take (k - n) ++ before n k as :=
      (List.take_append_drop ..).symm
    have hlength : (before n k as).length = n := Dataset.length_before (by omega) hk
    rw [hcut, List.filter_append, List.filter_eq_self.mpr h, lastRows, List.length_append, hlength,
      Nat.add_sub_cancel, List.drop_left]

/-- The scaled row of a candle. -/
def scaledRow? (s : Scaler) (columns : List Column) (c : Candle) : Option Row :=
  (row? columns c).bind fun row => (s.transformRow row).toOption

/-- The scaled rows of candles are their rows scaled. -/
lemma mapM_scaledRow?_iff (hrows : matrix? columns candles = some rows) :
    candles.mapM (scaledRow? s columns) = some xs ↔ s.transform rows = .ok xs := by
  rw [matrix?, mapM_eq_some_iff] at hrows
  rw [mapM_eq_some_iff, Scaler.transform_eq_ok_iff]
  constructor
  · intro hxs
    refine (forall₂_comp hrows.flip hxs).imp ?_
    rintro row x ⟨c,hrow,hx⟩
    rw [scaledRow?, show row? columns c = some row from hrow, Option.bind_some] at hx
    exact toOption_eq_some_iff.mp hx
  · intro hxs
    refine (forall₂_comp hrows hxs).imp ?_
    rintro c x ⟨row,hrow,hx⟩
    rw [scaledRow?, hrow, Option.bind_some, toOption_eq_some_iff, hx]

/-- The scaled targets of candle `k`, and the scaled features of the last clean candles before it.
They are those of the candles right before it where no candle was left out. -/
structure IsSample (p : Prepared) (n : Nat) (candles : List Candle) (k : Nat) (s : Sample) :
    Prop where
  target : candles[k]?.bind (scaledRow? p.targetScaler Column.body) = some s.target
  window : (lastRows n ((candles.take k).filter (isClean Column.sequence Column.body))).mapM
    (scaledRow? p.featureScaler Column.sequence) = some s.window
  window_length : s.window.length = n
  adjacent_iff : lastRows n ((candles.take k).filter (isClean Column.sequence Column.body)) =
    before n k candles ↔ ∀ c ∈ before n k candles, isClean Column.sequence Column.body c = true

/-- A clean candle with enough clean candles before it and scaled targets that are numbers. -/
def IsTarget (p : Prepared) (n : Nat) (candles : List Candle) (k : Nat) : Prop :=
  (∃ c, candles[k]? = some c ∧ isClean Column.sequence Column.body c = true) ∧
    n ≤ ((candles.take k).filter (isClean Column.sequence Column.body)).length ∧
    ∃ y, candles[k]?.bind (scaledRow? p.targetScaler Column.body) = some y ∧
      y.all Binary.isFinite = true

lemma getElem?_of_mapM {β : Type} {f : α → Option β} {bs : List β} (h : as.mapM f = some bs)
    (i : Nat) : bs[i]? = as[i]?.bind f := by
  rw [mapM_eq_some_iff] at h
  induction h generalizing i with
  | nil => simp
  | cons hab _ ih =>
    cases i with
    | zero => simpa using hab.symm
    | succ i => simpa using ih i

/-- The scaled rows of a training are those of the clean candles. -/
lemma IsPrepared.scaled {rows : List (Row × Row)} (h : IsPrepared settings candles p rows xs ys) :
    let kept := candles.filter (isClean Column.sequence Column.body)
    kept.mapM (scaledRow? p.featureScaler Column.sequence) = some xs ∧
      kept.mapM (scaledRow? p.targetScaler Column.body) = some ys := by
  obtain ⟨hx,hy⟩ := matrix?_of_cleanRows h.clean
  exact ⟨(mapM_scaledRow?_iff hx).mpr h.features,(mapM_scaledRow?_iff hy).mpr h.targets⟩

/-- A clean candle's scaled targets with the rows before it among the clean ones. -/
lemma isSample_of_kept {kept : List Candle} {s : Sample}
    (hxs : kept.mapM (scaledRow? p.featureScaler Column.sequence) = some xs)
    (hys : kept.mapM (scaledRow? p.targetScaler Column.body) = some ys)
    (hget : candles[k]? = kept[i]?)
    (htake : (candles.take k).filter (isClean Column.sequence Column.body) = kept.take i)
    (hlow : n ≤ i) (hwindow : s.window = before n i xs) (htarget : ys[i]? = some s.target) :
    IsSample p n candles k s := by
  have hlength := (mapM_eq_some_iff.mp hxs).length_eq
  rw [getElem?_of_mapM hys, ← hget] at htarget
  obtain ⟨c,hc,-⟩ := Option.bind_eq_some_iff.mp htarget
  have hk : k < candles.length := (List.getElem?_eq_some_iff.mp hc).1
  have hi : i < kept.length := (List.getElem?_eq_some_iff.mp (hget ▸ hc)).1
  refine ⟨htarget,?_,?_,lastRows_filter_eq_iff ?_ hk.le⟩
  · rw [htake, lastRows_take hi.le, hwindow]
    exact Dataset.mapM_before hxs n i
  · rw [hwindow]
    exact Dataset.length_before hlow (by omega)
  · rw [htake, List.length_take]
    omega

/-- One sample for each candle that can be a target, in order. -/
theorem IsPrepared.forall₂_samples {rows : List (Row × Row)}
    (h : IsPrepared settings candles p rows xs ys) :
    ∃ indices : List Nat, indices.Pairwise (· < ·) ∧
      (∀ k, k ∈ indices ↔ IsTarget p (lookback settings) candles k) ∧
      List.Forall₂ (IsSample p (lookback settings) candles) indices
        (p.train.samples ++ p.val.samples) := by
  obtain ⟨hxs,hys⟩ := h.scaled
  have hpositive : 0 < lookback settings := Nat.lt_of_lt_of_le Nat.one_pos (Nat.le_max_right ..)
  have hsamples := h.samples
  generalize lookback settings = n at *
  generalize hkept : candles.filter (isClean Column.sequence Column.body) = kept at hxs hys
  have hx := (mapM_eq_some_iff.mp hxs).length_eq
  have hy := (mapM_eq_some_iff.mp hys).length_eq
  let isNumbers (k : Nat) : Bool :=
    (candles[k]?.bind (scaledRow? p.targetScaler Column.body)).any (·.all Binary.isFinite)
  let positions := positions (isClean Column.sequence Column.body) candles
  refine ⟨(positions.drop n).filter isNumbers,?_,fun k => ?_,?_⟩
  · exact (positions_pairwise.sublist (List.drop_sublist ..)).filter _
  · rw [List.mem_filter, mem_drop_positions, Option.any_eq_true, and_assoc]
    rfl
  · rw [hsamples]
    have hpositions := List.forall₂_drop n (forall₂_positions (isClean Column.sequence Column.body)
      candles)
    rw [hkept, List.range_eq_range', List.drop_range'] at hpositions
    have hindices := List.rel_filter (p := isNumbers)
      (q := fun i => ys[i]?.any (·.all Binary.isFinite)) (fun k i hki => by
        simp only [isNumbers, getElem?_of_mapM hys, hki.1]) hpositions
    rw [Nat.zero_add, Nat.mul_one] at hindices
    have hrows := Dataset.forall₂_ofRows hpositive xs ys
    rw [← hx, ← hy, min_self] at hrows
    refine (forall₂_comp hindices hrows).imp ?_
    rintro k s ⟨i,⟨hget,htake⟩,hlow,hwindow,htarget⟩
    exact isSample_of_kept hxs hys hget htake hlow hwindow htarget

end Training

namespace ModelStore
open Training
variable {s : ModelStore} {t : FileTree} {series : Series} {metadata : ModelMetadata}
  {body : BodyForecast}

/-- A forecast with the window that the model was given: the scaled features of the last clean
candles, which are the last of the series where none of these was left out. -/
structure IsForecast (s : ModelStore) (t : FileTree) (series : Series) (metadata : ModelMetadata)
    (body : BodyForecast) (columns : List Column) (featureScaler targetScaler : Scaler)
    (model : Forecaster) (window : List Column.Row) : Prop where
  parsed : Column.parseList (Column.joinNames metadata.features) = .ok columns
  scalers : s.loadScalers t series.symbol = .ok (featureScaler,targetScaler)
  loaded : Forecaster.load t (s.path (Artifact.weights metadata.kind) metadata.symbol) metadata
    columns.length targetScaler.width = .ok model
  computed : ∃ rows, cleanRows columns Column.body series.candles = .ok rows
  given : (lastRows metadata.lookback (series.candles.filter (isClean columns Column.body))).mapM
    (scaledRow? featureScaler columns) = some window
  given_length : window.length = metadata.lookback
  adjacent_iff : lastRows metadata.lookback (series.candles.filter (isClean columns Column.body)) =
    lastRows metadata.lookback series.candles ↔
      ∀ c ∈ lastRows metadata.lookback series.candles, isClean columns Column.body c = true
  made : ∃ scaled values, model.predict window = .ok scaled ∧
    targetScaler.inverseRow scaled = .ok values ∧ BodyForecast.ofList? values = some body

/-- The last clean rows are those of the last clean candles. -/
lemma matrix?_lastRows {columns : List Column} {candles : List Candle}
    {rows : List (Column.Row × Column.Row)} (h : cleanRows columns Column.body candles = .ok rows)
    (n : Nat) :
    Column.matrix? columns (lastRows n (candles.filter (isClean columns Column.body))) =
      some (lastRows n (rows.map (·.1))) := by
  rw [lastRows_eq_before, lastRows_eq_before, List.length_map, ← length_cleanRows h]
  exact Dataset.mapM_before (matrix?_of_cleanRows h).1 n rows.length

theorem forecast_eq_ok_iff_isForecast :
    s.forecast t series metadata = .ok body ↔
      ∃ columns featureScaler targetScaler model window,
        IsForecast s t series metadata body columns featureScaler targetScaler model window := by
  rw [forecast_eq_ok_iff]
  constructor
  · rintro ⟨columns,featureScaler,targetScaler,rows,window,model,scaled,values,hcolumns,hscalers,
      hrows,henough,hwindow,hmodel,hscaled,hvalues,hbody⟩
    have hlength := length_cleanRows hrows
    have henoughClean : metadata.lookback ≤ ((series.candles.take series.candles.length).filter
        (isClean columns Column.body)).length := by
      rw [List.take_length]
      omega
    have hgiven := lastRows_filter_eq_iff henoughClean le_rfl
    rw [List.take_length, ← lastRows_eq_before] at hgiven
    refine ⟨columns,featureScaler,targetScaler,model,window,hcolumns,hscalers,hmodel,⟨rows,hrows⟩,
      (mapM_scaledRow?_iff (matrix?_lastRows hrows _)).mpr hwindow,?_,hgiven,scaled,values,hscaled,
      hvalues,hbody⟩
    rw [← (Scaler.transform_eq_ok_iff.mp hwindow).length_eq, length_lastRows]
    simpa using henough
  · rintro ⟨columns,featureScaler,targetScaler,model,window,h⟩
    obtain ⟨rows,hrows⟩ := h.computed
    obtain ⟨scaled,values,hscaled,hvalues,hbody⟩ := h.made
    have hlength := (mapM_eq_some_iff.mp h.given).length_eq
    rw [h.given_length, lastRows, List.length_drop, ← length_cleanRows hrows] at hlength
    exact ⟨columns,featureScaler,targetScaler,rows,window,model,scaled,values,h.parsed,h.scalers,
      hrows,by omega,(mapM_scaledRow?_iff (matrix?_lastRows hrows _)).mp h.given,h.loaded,hscaled,
      hvalues,hbody⟩

/-- What training pairs and what a forecast sees. A sample has the targets of a candle and the
features of the clean candles before it, a forecast those of the last clean candles; both are what
stands right before the candle that is forecast only where no candle was left out there. -/
theorem windows_of_clean_candles (s : ModelStore) (t : FileTree) (series : Series) :
    (∀ (settings : TrainingSettings) (now : Instant) (r : Random) (report : TrainingReport)
        (t' : FileTree),
      Storing.Succeeds (s.train settings now r series) t report t' →
      ∃ (p : Prepared) (model : Forecaster) (indices : List Nat),
        prepare settings series.candles = .ok p ∧
        Forecaster.fit settings p.train p.val r = .ok (model,report.history) ∧
        indices.Pairwise (· < ·) ∧
        (∀ k, k ∈ indices ↔ IsTarget p (lookback settings) series.candles k) ∧
        List.Forall₂ (IsSample p (lookback settings) series.candles) indices
          (p.train.samples ++ p.val.samples)) ∧
    ∀ (metadata : ModelMetadata) (body : BodyForecast),
      s.forecast t series metadata = .ok body ↔
        ∃ columns featureScaler targetScaler model window,
          IsForecast s t series metadata body columns featureScaler targetScaler model window := by
  refine ⟨fun settings now r report t' h => ?_,fun _ _ => forecast_eq_ok_iff_isForecast⟩
  obtain ⟨p,model,_,_,_,_,htraining⟩ := exists_isTraining h
  obtain ⟨rows,xs,ys,hprepared⟩ := exists_isPrepared htraining.prepared
  obtain ⟨indices,hsorted,hmem,hsamples⟩ := hprepared.forall₂_samples
  exact ⟨p,model,indices,htraining.prepared,htraining.fitted,hsorted,hmem,hsamples⟩

/-- One candle a minute at prices from 100 to 112, without a number for the book at 105 and at the
end. -/
def cloudedSeries : Series where
  symbol := "XRPUSDT"
  timeframe := .oneMinute
  candles := (List.range 13).map fun k =>
    let price := (Decimal.of? (100 + k) 0).getD .zero
    let liquidity := if k = 5 ∨ k = 12 then Binary.nan else 0.0
    { Candle.flat (60000 * k) .oneMinute price price with
      depth := { Depth.absent with bidLiquidity := liquidity } }
  fileCount := 1
  tradeCount := 13

/-- Forests of one leaf over windows of one candle. -/
def leafSettings : TrainingSettings :=
  { TrainingSettings.standard with kind := .forest, lookback := 1, forest := ⟨1,0,2⟩ }

lemma exists_train_clouded :
    ∃ report t', Storing.Succeeds ((ModelStore.mk "models").train leafSettings ⟨0,0⟩ (.ofSeed 0)
      cloudedSeries) .empty report t' := by
  have htrains : (Storing.result ((ModelStore.mk "models").train leafSettings ⟨0,0⟩ (.ofSeed 0)
      cloudedSeries) .empty).1.toOption.isSome := by decide +kernel
  rcases hrun : Storing.result ((ModelStore.mk "models").train leafSettings ⟨0,0⟩ (.ofSeed 0)
    cloudedSeries) .empty with ⟨e | report,t'⟩
  · rw [hrun] at htrains
    cases htrains
  · exact ⟨report,t',hrun⟩

theorem windows_of_clean_candles_clouded :
    ∃ report t', Storing.Succeeds
        ((ModelStore.mk "models").train leafSettings ⟨0,0⟩ (.ofSeed 0) cloudedSeries) .empty
        report t' ∧
      ∃ (p : Prepared) (indices : List Nat),
        prepare leafSettings cloudedSeries.candles = .ok p ∧
        List.Forall₂ (IsSample p 1 cloudedSeries.candles) indices
          (p.train.samples ++ p.val.samples) := by
  obtain ⟨report,t',hrun⟩ := exists_train_clouded
  obtain ⟨p,_,indices,hp,-,-,-,hsamples⟩ := (windows_of_clean_candles _ _ _).1 _ _ _ _ _ hrun
  exact ⟨report,t',hrun,p,indices,hp,hsamples⟩

open Dataset (before) in
/-- A sample whose target no candle has with the candle right before it for a window, and a last
clean candle that is not the last. -/
theorem exists_sample_across_gap :
    ∃ p, prepare leafSettings cloudedSeries.candles = .ok p ∧
      (∃ s ∈ p.train.samples ++ p.val.samples, ¬ ∃ k,
        cloudedSeries.candles[k]?.bind (scaledRow? p.targetScaler Column.body) = some s.target ∧
        (before 1 k cloudedSeries.candles).mapM (scaledRow? p.featureScaler Column.sequence) =
          some s.window) ∧
      (lastRows 1 (cloudedSeries.candles.filter (isClean Column.sequence Column.body))).mapM
          (scaledRow? p.featureScaler Column.sequence) ≠
        (lastRows 1 cloudedSeries.candles).mapM (scaledRow? p.featureScaler Column.sequence) := by
  have hevaluated : (prepare leafSettings cloudedSeries.candles).toOption.any (fun p =>
      (p.train.samples ++ p.val.samples)[4]?.any (fun s => (List.range 13).all fun k =>
        cloudedSeries.candles[k]?.bind (scaledRow? p.targetScaler Column.body) ≠ some s.target ∨
        (before 1 k cloudedSeries.candles).mapM (scaledRow? p.featureScaler Column.sequence) ≠
          some s.window) &&
      (lastRows 1 (cloudedSeries.candles.filter (isClean Column.sequence Column.body))).mapM
          (scaledRow? p.featureScaler Column.sequence) ≠
        (lastRows 1 cloudedSeries.candles).mapM
          (scaledRow? p.featureScaler Column.sequence)) := by decide +kernel
  rw [Option.any_eq_true] at hevaluated
  obtain ⟨p,hp,h⟩ := hevaluated
  rw [Bool.and_eq_true, Option.any_eq_true, decide_eq_true_eq] at h
  obtain ⟨⟨s,hs,hmissed⟩,hlast⟩ := h
  refine ⟨p,toOption_eq_some_iff.mp hp,⟨s,List.mem_of_getElem? hs,?_⟩,hlast⟩
  rintro ⟨k,htarget,hwindow⟩
  obtain ⟨c,hc,-⟩ := Option.bind_eq_some_iff.mp htarget
  have hk : k < 13 := (List.getElem?_eq_some_iff.mp hc).1
  have hnot := of_decide_eq_true (List.all_eq_true.mp hmissed k (List.mem_range.mpr hk))
  exact hnot.elim (· htarget) (· hwindow)

end ModelStore
end OrderFlow
