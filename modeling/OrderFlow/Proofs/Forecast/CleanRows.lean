import OrderFlow.Forecast.Training
import OrderFlow.Proofs.Feature.Matrix

/-! The rows that training and forecasting work on: those of the candles whose features and targets
are all numbers, the others left out as if they had never been. -/
namespace OrderFlow.Training
open Column (Row row? matrix?)
variable {features targets : List Column} {candles : List Candle} {rows : List (Row × Row)}

/-- Are all features and targets of a candle numbers? -/
def isClean (features targets : List Column) (c : Candle) : Bool :=
  (row? features c).any (·.all Binary.isFinite) && (row? targets c).any (·.all Binary.isFinite)

lemma forall₂_cleanRows (h : cleanRows features targets candles = .ok rows) :
    List.Forall₂ (fun c r => row? features c = some r.1 ∧ row? targets c = some r.2)
      (candles.filter (isClean features targets)) rows := by
  rw [cleanRows] at h
  split at h
  case h_2 => cases h
  case h_1 xs ys hxs hys =>
    obtain rfl := Except.ok.inj h
    refine List.rel_filter ?_ (forall₂_zip (mapM_eq_some_iff.mp hxs) (mapM_eq_some_iff.mp hys))
    rintro c ⟨x,y⟩ ⟨hx,hy⟩
    simp only [isClean, hx, hy, Option.any_some]

/-- The clean rows are the rows of the clean candles. -/
theorem matrix?_of_cleanRows (h : cleanRows features targets candles = .ok rows) :
    matrix? features (candles.filter (isClean features targets)) = some (rows.map (·.1)) ∧
      matrix? targets (candles.filter (isClean features targets)) = some (rows.map (·.2)) := by
  have hrows := forall₂_cleanRows h
  rw [matrix?, matrix?, mapM_eq_some_iff, mapM_eq_some_iff, List.forall₂_map_right_iff,
    List.forall₂_map_right_iff]
  exact ⟨hrows.imp fun _ _ h => h.1,hrows.imp fun _ _ h => h.2⟩

lemma length_cleanRows (h : cleanRows features targets candles = .ok rows) :
    rows.length = (candles.filter (isClean features targets)).length :=
  (forall₂_cleanRows h).length_eq.symm

/-- There are clean rows where no decimal is missing for the difference. -/
lemma exists_cleanRows (h : .delta ∈ features ++ targets → ∀ c ∈ candles, c.delta?.isSome) :
    ∃ rows, cleanRows features targets candles = .ok rows := by
  obtain ⟨xs,hxs⟩ : ∃ xs, matrix? features candles = some xs :=
    Column.exists_matrix? fun hdelta => h (List.mem_append_left _ hdelta)
  obtain ⟨ys,hys⟩ : ∃ ys, matrix? targets candles = some ys :=
    Column.exists_matrix? fun hdelta => h (List.mem_append_right _ hdelta)
  exact ⟨_,by rw [cleanRows, hxs, hys]⟩

end OrderFlow.Training
