import Mathlib.Data.List.Basic
import OrderFlow.Feature.FutureRange

/-! What the excursions of a candle measure: at each horizon the extremes of that many candles
ahead, against its close. Every candle but the last has them. -/
namespace OrderFlow.FutureRange
variable {n i : Nat} {c : Candle} {candles ahead : List Candle}
  {labels : List (Option FutureRange)}

def highest (ahead : List Candle) : Float :=
  ahead.foldl (fun h c => Binary.larger h c.highPrice.toFloat) (Binary.infinity true)

def lowest (ahead : List Candle) : Float :=
  ahead.foldl (fun l c => Binary.smaller l c.lowPrice.toFloat) (Binary.infinity false)

/-- How far the highs ahead rise above the close. -/
def rise (c : Candle) (ahead : List Candle) : Float :=
  (highest ahead - c.closePrice.toFloat) / c.closePrice.toFloat

/-- How far the lows ahead drop below the close. -/
def fall (c : Candle) (ahead : List Candle) : Float :=
  (c.closePrice.toFloat - lowest ahead) / c.closePrice.toFloat

lemma excursions_eq (close high low : Float) (n : Nat) (ahead : List Candle) :
    excursions close high low n ahead = (List.range n).map fun k =>
      let seen := ahead.take (k + 1)
      ((seen.foldl (fun h c => Binary.larger h c.highPrice.toFloat) high - close) / close,
        (close - seen.foldl (fun l c => Binary.smaller l c.lowPrice.toFloat) low) / close) := by
  induction n generalizing ahead high low with
  | zero => simp [excursions]
  | succ n ih =>
    rw [List.range_succ_eq_map, List.map_cons, List.map_map]
    cases ahead with
    | nil =>
      rw [excursions, ih]
      simp [Function.comp_def]
    | cons c rest =>
      rw [excursions, ih]
      simp [Function.comp_def]

/-- At the horizon `k + 1` the excursions are those of the `k + 1` candles ahead. -/
theorem ofCandle_eq (n : Nat) (c : Candle) (ahead : List Candle) :
    ofCandle n c ahead = ⟨(List.range n).map fun k => rise c (ahead.take (k + 1)),
      (List.range n).map fun k => fall c (ahead.take (k + 1))⟩ := by
  simp [ofCandle, excursions_eq, rise, fall, highest, lowest, Function.comp_def]

@[simp] lemma horizon_ofCandle : (ofCandle n c ahead).horizon = n := by
  simp [ofCandle_eq, horizon]

lemma length_toList_ofCandle : (ofCandle n c ahead).toList.length = 2 * n := by
  simp [ofCandle_eq, toList]
  omega

@[simp] lemma length_build : (build n candles).length = candles.length := by
  induction candles with
  | nil => rfl
  | cons c rest ih => simp [build, ih]

theorem getElem?_build (hc : candles[i]? = some c) :
    (build n candles)[i]? =
      some (if i + 1 = candles.length then none else some (ofCandle n c (candles.drop (i + 1)))) := by
  induction candles generalizing i with
  | nil => simp at hc
  | cons first rest ih =>
    cases i with
    | zero =>
      obtain rfl : first = c := by simpa using hc
      cases rest <;> simp [build]
    | succ i => simpa [build] using ih hc

/-- An entry of the table is that of its candle, with all candles after it. -/
theorem eq_of_getElem?_build {r : FutureRange} (h : (build n candles)[i]? = some (some r)) :
    ∃ c, candles[i]? = some c ∧ r = ofCandle n c (candles.drop (i + 1)) := by
  obtain ⟨hi,-⟩ := List.getElem?_eq_some_iff.mp h
  rw [length_build] at hi
  have hc : candles[i]? = some candles[i] := List.getElem?_eq_getElem hi
  rw [getElem?_build hc, Option.some.injEq, ite_eq_iff] at h
  obtain ⟨-,h⟩ | ⟨-,h⟩ := h
  · cases h
  · exact ⟨_,hc,(Option.some.inj h).symm⟩

lemma eq_build_of_build? (h : build? n candles = some labels) : labels = build n candles := by
  rw [build?] at h
  split_ifs at h
  exact (Option.some.inj h).symm

end OrderFlow.FutureRange
