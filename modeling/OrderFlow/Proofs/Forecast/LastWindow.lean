import OrderFlow.Proofs.Feature.RowSamples
import OrderFlow.Proofs.Feature.Scaling
import OrderFlow.Proofs.Forecast.Adjacency

/-! The window of a forecast is a window of a training. Scaled by itself, the end of some rows is
what training would cut before one more row, once all of them are scaled. -/
namespace OrderFlow

namespace Scaler
open Column (Row)
variable {s : Scaler} {rows xs : List Row} {row x : Row}

lemma length_of_transformRow (h : s.transformRow row = .ok x) : row.length = s.width := by
  by_contra hrow
  rw [transformRow, check, if_neg hrow] at h
  cases h

/-- Rows are scaled one by one, so what is left out before scaling may be left out after it. -/
lemma transform_drop (h : s.transform rows = .ok xs) (k : Nat) :
    s.transform (rows.drop k) = .ok (xs.drop k) := by
  rw [transform_eq_ok_iff] at h ⊢
  exact List.forall₂_drop k h

lemma transform_append (h : s.transform rows = .ok xs) (hx : s.transformRow row = .ok x) :
    s.transform (rows ++ [row]) = .ok (xs ++ [x]) := by
  rw [transform_eq_ok_iff] at h ⊢
  exact List.rel_append h (.cons hx .nil)

end Scaler

namespace Dataset
open Column (Row)
variable {lookback n : Nat} {features targets : List Row} {y : Row}

/-- Where the last target is all numbers, the last sample is the one that has it. -/
theorem getLast?_ofRows (hlookback : 0 < lookback) (henough : lookback ≤ n)
    (hfeatures : features.length = n + 1) (htargets : targets.length = n + 1)
    (hlast : targets.getLast? = some y) (hfinite : y.all Binary.isFinite = true) :
    (ofRows lookback features targets).samples.getLast? =
      some ⟨before lookback n features,y⟩ := by
  have hget : targets[n]? = some y := by
    rw [List.getLast?_eq_getElem?, htargets, Nat.add_sub_cancel] at hlast
    exact hlast
  have hindices : List.range' lookback (n + 1 - lookback) =
      List.range' lookback (n - lookback) ++ [n] := by
    rw [Nat.sub_add_comm henough, List.range'_1_concat, Nat.add_sub_cancel' henough]
  have hrows := forall₂_ofRows hlookback features targets
  rw [hfeatures, htargets, min_self, hindices, List.filter_append, List.filter_singleton, hget,
    Option.any_some, hfinite, cond_true, ← List.forall₂_reverse_iff, List.reverse_append,
    List.reverse_singleton, List.singleton_append, List.forall₂_cons_left_iff] at hrows
  obtain ⟨s,rest,⟨-,hwindow,htarget⟩,-,hsamples⟩ := hrows
  rw [hget, Option.some.injEq] at htarget
  rw [List.getLast?_eq_head?_reverse, hsamples, List.head?_cons, htarget, ← hwindow]

end Dataset

namespace ModelStore
open Column (Row)
open Training
variable {scaler : Scaler} {rows xs targets : List Row} {r y : Row} {lookback : Nat}

/-- The end of some rows, scaled, is what training pairs with the row after them. -/
theorem exists_lastWindow (hlookback : 0 < lookback) (henough : lookback ≤ rows.length)
    (haccepted : scaler.transform rows = .ok xs) (hwidth : ∀ row ∈ rows, r.length = row.length)
    (htargets : targets.length = rows.length + 1) (hlast : targets.getLast? = some y)
    (hfinite : y.all Binary.isFinite = true) :
    ∃ window scaled, scaler.transform (lastRows lookback rows) = .ok window ∧
      scaler.transform (rows ++ [r]) = .ok scaled ∧
      (Dataset.ofRows lookback scaled targets).samples.getLast? = some ⟨window,y⟩ := by
  have hscaled := Scaler.transform_eq_ok_iff.mp haccepted
  have hlength := hscaled.length_eq
  obtain ⟨row,hrow⟩ := List.exists_mem_of_length_pos (Nat.lt_of_lt_of_le hlookback henough)
  obtain ⟨x,-,hx⟩ := exists_of_forall₂ hscaled.flip hrow
  have hr : r.length = scaler.width :=
    (hwidth row hrow).trans (Scaler.length_of_transformRow hx)
  have hbefore (last : Row) : Dataset.before lookback rows.length (xs ++ [last]) =
      xs.drop (rows.length - lookback) := by
    rw [Dataset.before, hlength, List.take_left]
  refine ⟨_,_,Scaler.transform_drop haccepted _,
    Scaler.transform_append haccepted (Scaler.transformRow_eq hr),?_⟩
  rw [Dataset.getLast?_ofRows hlookback henough (by simp [hlength]) htargets hlast hfinite, hbefore]

/-- The window that a forecast gives to its model is the last one that training would cut from the
same rows and one more, the one it would pair with the target of that row. -/
theorem forecast_lastWindow (hlookback : 0 < lookback) (henough : lookback ≤ rows.length)
    (haccepted : scaler.transform rows = .ok xs) (hwidth : ∀ row ∈ rows, r.length = row.length)
    (htargets : targets.length = rows.length + 1) (hlast : targets.getLast? = some y)
    (hfinite : y.all Binary.isFinite = true) :
    ∃ window scaled, scaler.transform (lastRows lookback rows) = .ok window ∧
      scaler.transform (rows ++ [r]) = .ok scaled ∧
      (Dataset.ofRows lookback scaled targets).windows.getLast? = some window ∧
      (Dataset.ofRows lookback scaled targets).targets.getLast? = some y ∧
      ∀ (s : ModelStore) (t : FileTree) (series : Series) (metadata : ModelMetadata)
        (columns : List Column) (targetScaler : Scaler) (clean : List (Row × Row))
        (body : BodyForecast),
        metadata.lookback = lookback →
        Column.parseList (Column.joinNames metadata.features) = .ok columns →
        s.loadScalers t series.symbol = .ok (scaler,targetScaler) →
        cleanRows columns Column.body series.candles = .ok clean → clean.map (·.1) = rows →
        (s.forecast t series metadata = .ok body ↔ ∃ model values unscaled,
          Forecaster.load t (s.path (Artifact.weights metadata.kind) metadata.symbol) metadata
            columns.length targetScaler.width = .ok model ∧
          model.predict window = .ok values ∧ targetScaler.inverseRow values = .ok unscaled ∧
          BodyForecast.ofList? unscaled = some body) := by
  obtain ⟨window,scaled,hwindow,hscaled,hsample⟩ :=
    exists_lastWindow hlookback henough haccepted hwidth htargets hlast hfinite
  refine ⟨window,scaled,hwindow,hscaled,?_,?_,?_⟩
  · rw [Dataset.windows, List.getLast?_map, hsample, Option.map_some]
  · rw [Dataset.targets, List.getLast?_map, hsample, Option.map_some]
  · rintro s t series metadata columns targetScaler clean body rfl hcolumns hscalers hclean rfl
    rw [forecast_eq_ok_iff]
    constructor
    · rintro ⟨columns',scaler',targetScaler',clean',window',model,values,unscaled,hcolumns',
        hscalers',hclean',-,hwindow',hmodel,hvalues,hunscaled,hbody⟩
      obtain rfl := Except.ok.inj (hcolumns.symm.trans hcolumns')
      obtain ⟨rfl,rfl⟩ := Prod.mk.inj (Except.ok.inj (hscalers.symm.trans hscalers'))
      obtain rfl := Except.ok.inj (hclean.symm.trans hclean')
      obtain rfl := Except.ok.inj (hwindow.symm.trans hwindow')
      exact ⟨model,values,unscaled,hmodel,hvalues,hunscaled,hbody⟩
    · rintro ⟨model,values,unscaled,hmodel,hvalues,hunscaled,hbody⟩
      rw [List.length_map] at henough
      exact ⟨columns,scaler,targetScaler,clean,window,model,values,unscaled,hcolumns,hscalers,
        hclean,henough,hwindow,hmodel,hvalues,hunscaled,hbody⟩

/-- Three rows, one more far from them, and a target that is no number before the last. -/
theorem forecast_lastWindow_outlying :
    let scaler : Scaler := ⟨["close"],[1.0],[2.0]⟩
    ∃ window scaled, scaler.transform (lastRows 2 [[1.0],[3.0],[5.0]]) = .ok window ∧
      scaler.transform [[1.0],[3.0],[5.0],[1000.0]] = .ok scaled ∧
      (Dataset.ofRows 2 scaled [[0.0],[0.0],[Binary.nan],[7.0]]).windows.getLast? = some window := by
  intro scaler
  obtain ⟨xs,haccepted,-⟩ := @Scaler.exists_transform scaler [[1.0],[3.0],[5.0]]
    (by simp [scaler]) (by simp [scaler, Scaler.width])
  obtain ⟨window,scaled,hwindow,hscaled,hlast,-⟩ :=
    @forecast_lastWindow scaler [[1.0],[3.0],[5.0]] xs [[0.0],[0.0],[Binary.nan],[7.0]] [1000.0]
      [7.0] 2 (by decide) (by decide) haccepted (by simp) (by simp) (by simp) (by decide +kernel)
  exact ⟨window,scaled,hwindow,hscaled,hlast⟩

end ModelStore
end OrderFlow
