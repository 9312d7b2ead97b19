import Mathlib.Algebra.Order.BigOperators.Group.List
import OrderFlow.Feature.Column
import OrderFlow.Proofs.Traversal

/-! Rows of columns. A row lacks only the difference of the volumes, and only where no decimal
holds it. -/
namespace OrderFlow.Column
variable {column : Column} {columns : List Column} {c : Candle} {candles : List Candle}
  {rows : List Row} {width : Nat}

lemma isSome_value? (h : column = delta → c.delta?.isSome) : (column.value? c).isSome := by
  cases column <;> simp [value?]
  exact h rfl

lemma exists_row? (h : delta ∈ columns → c.delta?.isSome) : ∃ row, row? columns c = some row :=
  exists_mapM_eq_some fun _ hcolumn => isSome_value? fun hdelta => h (hdelta ▸ hcolumn)

/-- There is a matrix where no decimal is missing for the difference. -/
theorem exists_matrix? (h : delta ∈ columns → ∀ c ∈ candles, c.delta?.isSome) :
    ∃ rows, matrix? columns candles = some rows := by
  refine exists_mapM_eq_some fun c hc => Option.isSome_iff_exists.mpr ?_
  exact exists_row? fun hdelta => h hdelta c hc

lemma length_of_row? {row : Row} (h : row? columns c = some row) : row.length = columns.length :=
  (mapM_eq_some_iff.mp h).length_eq.symm

lemma length_of_mem_matrix? {row : Row} (h : matrix? columns candles = some rows)
    (hrow : row ∈ rows) : row.length = columns.length := by
  obtain ⟨c,-,hc⟩ := exists_of_forall₂ (mapM_eq_some_iff.mp h) hrow
  exact length_of_row? hc

lemma length_of_matrix? (h : matrix? columns candles = some rows) :
    rows.length = candles.length :=
  (mapM_eq_some_iff.mp h).length_eq.symm

/-- Rows of one width, end to end. -/
lemma length_flatten (h : ∀ row ∈ rows, row.length = width) :
    rows.flatten.length = rows.length * width := by
  rw [List.length_flatten, List.map_congr_left h, List.map_const', List.sum_replicate_nat]

end OrderFlow.Column
