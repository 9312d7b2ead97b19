import OrderFlow.Proofs.Forecast.CleanRows
import OrderFlow.Proofs.Outcome

/-! What samples are prepared from: the clean rows, scaled by what is fitted to them, windowed and
cut in two. -/
namespace OrderFlow

namespace Scaler
open Column (Row)
variable {s : Scaler} {columns : List String} {rows xs : List Row}

lemma transform_eq_ok_iff :
    s.transform rows = .ok xs ↔ List.Forall₂ (fun row x => s.transformRow row = .ok x) rows xs :=
  mapM_eq_ok_iff

end Scaler

namespace Training
open Column (Row)
variable {settings : TrainingSettings} {candles : List Candle} {p : Prepared}

/-- The steps of a preparation, with the clean rows and what they are scaled to. -/
structure IsPrepared (settings : TrainingSettings) (candles : List Candle) (p : Prepared)
    (rows : List (Row × Row)) (xs ys : List Row) : Prop where
  clean : cleanRows Column.sequence Column.body candles = .ok rows
  enough : lookback settings + spareRows ≤ rows.length
  featureScaler :
    Scaler.fit (rows.map (·.1)) (Column.sequence.map Column.name) = .ok p.featureScaler
  targetScaler : Scaler.fit (rows.map (·.2)) (Column.body.map Column.name) = .ok p.targetScaler
  features : p.featureScaler.transform (rows.map (·.1)) = .ok xs
  targets : p.targetScaler.transform (rows.map (·.2)) = .ok ys
  sampleCount : (Dataset.ofRows (lookback settings) xs ys).size = p.sampleCount
  split : (Dataset.ofRows (lookback settings) xs ys).split settings.trainSplit = (p.train,p.val)
  trains : p.train.size ≠ 0

theorem exists_isPrepared (h : prepare settings candles = .ok p) :
    ∃ rows xs ys, IsPrepared settings candles p rows xs ys := by
  rw [prepare, bind_eq_ok_iff] at h
  obtain ⟨rows,hrows,h⟩ := h
  rw [guard_eq_ok_iff, guard_eq_ok_iff] at h
  obtain ⟨-,henough,h⟩ := h
  simp only [bind_eq_ok_iff, guard_eq_ok_iff, pure_eq_ok_iff] at h
  obtain ⟨featureScaler,hfeature,targetScaler,htarget,xs,hxs,ys,hys,htrains,rfl⟩ := h
  exact ⟨rows,xs,ys,hrows,Nat.le_of_not_lt henough,hfeature,htarget,hxs,hys,rfl,rfl,htrains⟩

/-- The parts of a preparation make up its samples. -/
lemma IsPrepared.samples {rows : List (Row × Row)} {xs ys : List Row}
    (h : IsPrepared settings candles p rows xs ys) :
    p.train.samples ++ p.val.samples = (Dataset.ofRows (lookback settings) xs ys).samples := by
  obtain ⟨htrain,hval⟩ := Prod.mk.inj h.split
  rw [← htrain, ← hval]
  exact List.take_append_drop ..

/-- Every sample is learned from or held back. -/
theorem sampleCount_of_prepare (h : prepare settings candles = .ok p) :
    p.sampleCount = p.train.size + p.val.size := by
  obtain ⟨rows,xs,ys,hprepared⟩ := exists_isPrepared h
  rw [← hprepared.sampleCount, Dataset.size, ← hprepared.samples, List.length_append]
  rfl

/-- The lookback of a preparation and the rows beyond it are counted in words. -/
lemma required_lt_of_prepare (h : prepare settings candles = .ok p) :
    lookback settings + spareRows < wordSize := by
  rw [prepare, bind_eq_ok_iff] at h
  obtain ⟨_,-,h⟩ := h
  rw [guard_eq_ok_iff] at h
  exact Nat.lt_of_not_le h.1

end Training
end OrderFlow
