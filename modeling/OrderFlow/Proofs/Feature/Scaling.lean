import Mathlib.Tactic.SplitIfs
import OrderFlow.Feature.Scaler
import OrderFlow.Proofs.Outcome
import OrderFlow.Proofs.Traversal

/-! What a scaler keeps: a mean and a finite deviation for each column, and the width of the rows
that it scales and brings back. Rows are fitted if they are of one width; else the first that is not
is reported. -/
namespace OrderFlow.Scaler
open Column (Row)
variable {s : Scaler} {columns : List String} {rows : List Row} {row : Row} {width : Nat}
  {e : Cause}

/-- Whatever the values are, their deviation is finite and can be divided by. -/
lemma columnScale_spec (values : List Float) :
    Binary.isFinite (columnScale values) = true ∧ 0.0 < columnScale values := by
  have hone : Binary.isFinite 1.0 = true ∧ (0.0 : Float) < 1.0 := by decide +kernel
  rw [columnScale, deviation]
  split_ifs with _ hdeviation
  · exact hone
  · obtain ⟨hfinite,hpositive⟩ := Bool.and_eq_true_iff.mp hdeviation
    exact ⟨hfinite,of_decide_eq_true hpositive⟩
  · exact hone

/-- The first row that is not of a width, and the complaint about it. -/
def Misfit (width : Nat) (rows : List Row) (e : Cause) : Prop :=
  ∃ before row after, rows = before ++ row :: after ∧ (∀ r ∈ before, r.length = width) ∧
    row.length ≠ width ∧ e = .shapeMismatch width row.length

lemma find?_misfit_iff : rows.find? (·.length != width) = some row ↔
    ∃ before after, rows = before ++ row :: after ∧ (∀ r ∈ before, r.length = width) ∧
      row.length ≠ width := by
  rw [List.find?_eq_some_iff_append]
  simp only [bne_iff_ne, Bool.not_eq_true', bne_eq_false_iff_eq]
  constructor
  · rintro ⟨hrow,before,after,hrows,hbefore⟩
    exact ⟨before,after,hrows,hbefore,hrow⟩
  · rintro ⟨before,after,hrows,hbefore,hrow⟩
    exact ⟨hrow,before,after,hrows,hbefore⟩

theorem fit_eq_error_iff : fit rows columns = .error e ↔ Misfit columns.length rows e := by
  rw [fit, Misfit]
  constructor
  · intro h
    split at h
    · next row hrow =>
      cases h
      obtain ⟨before,after,hrows,hbefore,hne⟩ := find?_misfit_iff.mp hrow
      exact ⟨before,row,after,hrows,hbefore,hne,rfl⟩
    · cases h
  · rintro ⟨before,row,after,hrows,hbefore,hne,rfl⟩
    rw [find?_misfit_iff.mpr ⟨before,after,hrows,hbefore,hne⟩]

theorem fit_eq_ok_iff : fit rows columns = .ok s ↔ (∀ row ∈ rows, row.length = columns.length) ∧
    s.columns = columns ∧
    s.mean = (List.range columns.length).map (fun i => columnMean (column rows i)) ∧
    s.scale = (List.range columns.length).map (fun i => columnScale (column rows i)) := by
  rw [fit]
  split
  · next row hrow =>
    obtain ⟨before,after,rfl,-,hne⟩ := find?_misfit_iff.mp hrow
    simp only [reduceCtorEq, false_iff, not_and]
    exact fun hall => absurd (hall row (by simp)) hne
  · next hnone =>
    have hall : ∀ row ∈ rows, row.length = columns.length := by simpa using hnone
    obtain ⟨names,mean,scale⟩ := s
    simp only [Except.ok.injEq, Scaler.mk.injEq]
    constructor
    · rintro ⟨rfl,rfl,rfl⟩
      exact ⟨hall,rfl,rfl,rfl⟩
    · rintro ⟨-,rfl,rfl,rfl⟩
      exact ⟨rfl,rfl,rfl⟩

/-- A scaler that is fitted to some columns has a mean and a finite deviation for each. -/
structure IsFitted (s : Scaler) (columns : List String) : Prop where
  named : s.columns = columns
  mean : s.mean.length = columns.length
  scale : s.scale.length = columns.length
  isFinite : ∀ x ∈ s.scale, Binary.isFinite x = true

theorem isFitted_of_fit (h : fit rows columns = .ok s) : IsFitted s columns := by
  obtain ⟨-,hnamed,hmean,hscale⟩ := fit_eq_ok_iff.mp h
  refine ⟨hnamed,by simp [hmean],by simp [hscale],fun x hx => ?_⟩
  rw [hscale] at hx
  obtain ⟨i,-,rfl⟩ := List.mem_map.mp hx
  exact (columnScale_spec _).1

/-- A row is combined as far as there are means and deviations both. -/
lemma length_combine (s : Scaler) (row : Row) (f : Float → Float → Float → Float) :
    (s.combine f row).length = min row.length (min s.mean.length s.scale.length) := by
  rw [combine, List.length_zipWith, List.length_zip]

lemma length_combine_of_width (hscale : s.scale.length = s.mean.length)
    (hrow : row.length = s.width) (f : Float → Float → Float → Float) :
    (s.combine f row).length = s.width := by
  rw [length_combine, hscale, Nat.min_self, hrow, width, Nat.min_self]

lemma transformRow_eq (hrow : row.length = s.width) :
    s.transformRow row = .ok (s.combine (fun x m d => (x - m) / d) row) := by
  rw [transformRow, check, if_pos hrow]
  rfl

lemma inverseRow_eq (hrow : row.length = s.width) :
    s.inverseRow row = .ok (s.combine (fun z m d => z * d + m) row) := by
  rw [inverseRow, check, if_pos hrow]
  rfl

/-- Rows of the scaler's width are scaled to as many rows of that width. -/
theorem exists_transform (hscale : s.scale.length = s.mean.length)
    (hrows : ∀ row ∈ rows, row.length = s.width) :
    ∃ xs, s.transform rows = .ok xs ∧ xs.length = rows.length ∧
      ∀ x ∈ xs, x.length = s.width := by
  refine ⟨rows.map (s.combine fun x m d => (x - m) / d),?_,by simp,fun x hx => ?_⟩
  · exact mapM_eq_ok_map fun row hrow => transformRow_eq (hrows row hrow)
  · obtain ⟨row,hrow,rfl⟩ := List.mem_map.mp hx
    exact length_combine_of_width hscale (hrows row hrow) _

/-- The rows that a scaler is fitted to keep their number and their width. -/
lemma length_of_transform {xs : List Row} (hfit : fit rows columns = .ok s)
    (h : s.transform rows = .ok xs) :
    xs.length = rows.length ∧ ∀ x ∈ xs, x.length = columns.length := by
  have hfitted := isFitted_of_fit hfit
  have hwidth : s.width = columns.length := hfitted.mean
  have hrows : ∀ row ∈ rows, row.length = s.width := hwidth ▸ (fit_eq_ok_iff.mp hfit).1
  obtain ⟨xs',hxs',hspec⟩ := exists_transform (hfitted.scale.trans hfitted.mean.symm) hrows
  obtain rfl := Except.ok.inj (h.symm.trans hxs')
  rwa [hwidth] at hspec

/-- A row of the scaler's width is brought back to one of that width. -/
theorem exists_inverseRow (hscale : s.scale.length = s.mean.length)
    (hrow : row.length = s.width) :
    ∃ values, s.inverseRow row = .ok values ∧ values.length = s.width :=
  ⟨_,inverseRow_eq hrow,length_combine_of_width hscale hrow _⟩

end OrderFlow.Scaler
