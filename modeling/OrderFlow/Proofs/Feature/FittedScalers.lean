import OrderFlow.Proofs.Feature.RowWidths

/-! Fitted scalers. Rows of one width are fitted column by column, each on its own, and every
deviation is one to divide by, whatever the values are. The scaler then takes rows of that width and
no others, and it refuses a list of rows for the same row as the fit would. -/
namespace OrderFlow.Scaler
open Column (Row)
variable {s s' : Scaler} {columns columns' : List String} {rows rows' : List Row} {row : Row}
  {width i j : Nat} {e : Cause} {map : Row → Except Cause Row}

/-- A column is made of its entries alone. -/
lemma column_congr (h : rows.map (·[i]?) = rows'.map (·[j]?)) : column rows i = column rows' j := by
  have hentries (rows : List Row) (i : Nat) :
      column rows i = (rows.map (·[i]?)).filterMap id := by
    rw [List.filterMap_map]
    rfl
  rw [hentries, hentries, h]

/-- A scaler that is fitted to some columns has a mean for each, and a deviation that can be divided
by. -/
structure IsStandard (s : Scaler) (columns : List String) : Prop extends IsFitted s columns where
  positive : ∀ x ∈ s.scale, 0.0 < x

lemma isStandard_of_fit (h : fit rows columns = .ok s) : IsStandard s columns where
  toIsFitted := isFitted_of_fit h
  positive x hx := by
    obtain ⟨-,-,-,hscale⟩ := fit_eq_ok_iff.mp h
    rw [hscale] at hx
    obtain ⟨i,-,rfl⟩ := List.mem_map.mp hx
    exact (columnScale_spec _).2

/-- Two fits give equal columns the same mean and deviation, wherever these columns stand and
whatever the other columns are. -/
lemma fit_column_congr (h : fit rows columns = .ok s) (h' : fit rows' columns' = .ok s')
    (hi : i < columns.length) (hj : j < columns'.length)
    (hcolumn : rows.map (·[i]?) = rows'.map (·[j]?)) :
    s.mean[i]? = s'.mean[j]? ∧ s.scale[i]? = s'.scale[j]? := by
  obtain ⟨-,-,hmean,hscale⟩ := fit_eq_ok_iff.mp h
  obtain ⟨-,-,hmean',hscale'⟩ := fit_eq_ok_iff.mp h'
  rw [hmean, hmean', hscale, hscale']
  simp only [List.getElem?_map, List.getElem?_range hi, List.getElem?_range hj, Option.map_some,
    column_congr hcolumn, and_self]

/-- Rows of a width are taken to rows of that width, and all others are refused. -/
structure TakesWidth (width : Nat) (map : Row → Except Cause Row) : Prop where
  accepts : ∀ row, row.length = width → ∃ out, map row = .ok out ∧ out.length = width
  refuses : ∀ row, row.length ≠ width → map row = .error (.shapeMismatch width row.length)

namespace TakesWidth

lemma exists_ok_iff (h : TakesWidth width map) :
    (∃ out, map row = .ok out) ↔ row.length = width := by
  constructor
  · rintro ⟨out,hout⟩
    by_contra hrow
    rw [h.refuses row hrow] at hout
    cases hout
  · intro hrow
    obtain ⟨out,hout,-⟩ := h.accepts row hrow
    exact ⟨out,hout⟩

lemma eq_error_iff (h : TakesWidth width map) :
    map row = .error e ↔ row.length ≠ width ∧ e = .shapeMismatch width row.length := by
  by_cases hrow : row.length = width
  · obtain ⟨out,hout,-⟩ := h.accepts row hrow
    simp [hout, hrow]
  · simp [h.refuses row hrow, hrow, eq_comm]

/-- A list of rows is refused for the first that is not of the width. -/
theorem mapM_eq_error_iff (h : TakesWidth width map) :
    rows.mapM map = .error e ↔ Misfit width rows e := by
  simp only [OrderFlow.mapM_eq_error_iff, h.exists_ok_iff, h.eq_error_iff, Misfit]

end TakesWidth

/-- A scaler with a deviation for every mean cuts nothing off. -/
lemma CutsRows.takesWidth (h : s.CutsRows map) (hs : IsFitted s columns) :
    TakesWidth columns.length map where
  accepts row hrow := by
    obtain ⟨out,hout,hlength⟩ := h.cut row (hrow.trans hs.mean.symm)
    exact ⟨out,hout,by rw [hlength, hs.mean, hs.scale, Nat.min_self]⟩
  refuses row hrow := by
    rw [h.refused row (hs.mean ▸ hrow), hs.mean]

/-- A list of rows is scaled exactly if all of them are of the scaler's width. -/
lemma exists_transform_iff (hs : IsFitted s columns) :
    (∃ xs, s.transform rows = .ok xs ∧ xs.length = rows.length ∧
      ∀ x ∈ xs, x.length = columns.length) ↔ ∀ row ∈ rows, row.length = columns.length := by
  have hwidth : s.width = columns.length := hs.mean
  rw [← hwidth]
  constructor
  · rintro ⟨xs,hxs,-,-⟩ row hrow
    obtain ⟨x,-,hx⟩ := exists_of_forall₂ (mapM_eq_ok_iff.mp hxs).flip hrow
    exact (s.cutsRows_transformRow.length_eq hx).1
  · exact exists_transform (hs.scale.trans hs.mean.symm)

/-- A fit fails exactly for the first row that is not as wide as there are columns. Else there is a
mean and a deviation for each column, which can be divided by and hang on that column only, and the
scaler takes rows of that width, alone or in a list, and no others. -/
theorem fit_standard (rows : List Row) (columns : List String) :
    (∀ e, fit rows columns = .error e ↔ Misfit columns.length rows e) ∧
    ((∃ s, fit rows columns = .ok s) ↔ ∀ row ∈ rows, row.length = columns.length) ∧
    ∀ s, fit rows columns = .ok s → IsStandard s columns ∧
      (∀ rows' columns' s' i j, fit rows' columns' = .ok s' →
        i < columns.length → j < columns'.length → rows.map (·[i]?) = rows'.map (·[j]?) →
          s.mean[i]? = s'.mean[j]? ∧ s.scale[i]? = s'.scale[j]?) ∧
      TakesWidth columns.length s.transformRow ∧ TakesWidth columns.length s.inverseRow ∧
      ∀ rows', (∀ e, s.transform rows' = .error e ↔ Misfit columns.length rows' e) ∧
        ((∃ xs, s.transform rows' = .ok xs ∧ xs.length = rows'.length ∧
          ∀ x ∈ xs, x.length = columns.length) ↔ ∀ row ∈ rows', row.length = columns.length) := by
  refine ⟨fun e => fit_eq_error_iff,⟨?_,?_⟩,fun s hs => ?_⟩
  · rintro ⟨s,hs⟩
    exact (fit_eq_ok_iff.mp hs).1
  · intro hrows
    exact ⟨⟨columns,_,_⟩,fit_eq_ok_iff.mpr ⟨hrows,rfl,rfl,rfl⟩⟩
  · have hfitted := isFitted_of_fit hs
    have htakes := s.cutsRows_transformRow.takesWidth hfitted
    refine ⟨isStandard_of_fit hs,fun rows' columns' s' i j hs' hi hj hcolumn =>
      fit_column_congr hs hs' hi hj hcolumn,htakes,s.cutsRows_inverseRow.takesWidth hfitted,
      fun rows' => ⟨fun e => htakes.mapM_eq_error_iff,exists_transform_iff hfitted⟩⟩

/-- A constant column beside one that is not all numbers, and the same column alone. A narrow row is
reported before a wide one. -/
theorem fit_standard_cloudy : ∃ s alone,
    fit [[Binary.nan,5],[Binary.infinity false,5]] ["a","b"] = .ok s ∧
    fit [[5],[5]] ["b"] = .ok alone ∧
    (∀ x ∈ s.scale, 0.0 < x) ∧ s.mean[1]? = alone.mean[0]? ∧ s.scale[1]? = alone.scale[0]? ∧
    s.transform [[1,2],[3],[4,5,6]] = .error (.shapeMismatch 2 1) ∧
    fit [[1,2],[3],[4,5,6]] ["a","b"] = .error (.shapeMismatch 2 1) := by
  obtain ⟨-,hboth,hfitted⟩ := fit_standard [[Binary.nan,5],[Binary.infinity false,5]] ["a","b"]
  obtain ⟨-,honly,-⟩ := fit_standard [[5],[5]] ["b"]
  obtain ⟨s,hs⟩ := hboth.mpr (by simp)
  obtain ⟨alone,halone⟩ := honly.mpr (by simp)
  obtain ⟨hstandard,hcolumns,-,-,htransform⟩ := hfitted s hs
  have hmisfit : Misfit 2 [[1,2],[3],[4,5,6]] (.shapeMismatch 2 1) :=
    ⟨[[1,2]],[3],[[4,5,6]],rfl,by simp,by simp,rfl⟩
  obtain ⟨hmean,hscale⟩ := hcolumns _ _ alone 1 0 halone (by simp) (by simp) (by simp)
  exact ⟨s,alone,hs,halone,hstandard.positive,hmean,hscale,((htransform _).1 _).mpr hmisfit,
    ((fit_standard _ _).1 _).mpr hmisfit⟩

end OrderFlow.Scaler
