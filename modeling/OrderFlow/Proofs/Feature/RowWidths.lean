import OrderFlow.Proofs.Feature.Scaling
import OrderFlow.Proofs.Store.Documents

/-! The width of scaled rows. A row is held against the number of means only, and is then scaled as
far as there are deviations too; so a scaler keeps the width of rows exactly if it has a deviation
for every mean. A scaler that is fitted does, and so does one that is read from what was written of
it, but a document can hold one that does not. -/
namespace OrderFlow.Scaler
open Column (Row)
open Json
variable {s s' : Scaler} {columns : List String} {rows : List Row} {map : Row → Except Cause Row}

/-- The scaler has a mean and a deviation for every column of a row. -/
def Covers (s : Scaler) (row : Row) : Prop :=
  row.length ≤ s.mean.length ∧ row.length ≤ s.scale.length

/-- Rows are as wide afterwards as before, and a row with a column that the scaler does not cover
is refused. -/
structure KeepsWidth (s : Scaler) (map : Row → Except Cause Row) : Prop where
  length : ∀ row out, map row = .ok out → out.length = row.length
  uncovered : ∀ row, ¬ s.Covers row →
    ∃ expected, map row = .error (.shapeMismatch expected row.length)

/-- A row with as many columns as there are means is cut to those with a deviation, and every other
row is refused. -/
structure CutsRows (s : Scaler) (map : Row → Except Cause Row) : Prop where
  cut : ∀ row, row.length = s.mean.length →
    ∃ out, map row = .ok out ∧ out.length = min s.mean.length s.scale.length
  refused : ∀ row, row.length ≠ s.mean.length →
    map row = .error (.shapeMismatch s.mean.length row.length)

/-- Whatever is done to the columns, the row is checked before and cut on the way. -/
lemma cutsRows_combine (s : Scaler) (f : Float → Float → Float → Float) :
    s.CutsRows fun row => do
      s.check row
      return s.combine f row where
  cut row hrow := by
    refine ⟨s.combine f row,?_,?_⟩
    · rw [check, width, if_pos hrow]
      rfl
    · rw [length_combine, hrow, ← Nat.min_assoc, Nat.min_self]
  refused row hrow := by
    rw [check, width, if_neg hrow]
    rfl

lemma cutsRows_transformRow (s : Scaler) : s.CutsRows s.transformRow := s.cutsRows_combine _

lemma cutsRows_inverseRow (s : Scaler) : s.CutsRows s.inverseRow := s.cutsRows_combine _

namespace CutsRows

lemma length_eq {row out : Row} (h : s.CutsRows map) (hout : map row = .ok out) :
    row.length = s.mean.length ∧ out.length = min s.mean.length s.scale.length := by
  by_cases hrow : row.length = s.mean.length
  · obtain ⟨out',hout',hlength⟩ := h.cut row hrow
    obtain rfl := Except.ok.inj (hout.symm.trans hout')
    exact ⟨hrow,hlength⟩
  · rw [h.refused row hrow] at hout
    cases hout

/-- Nothing is cut off exactly if there is a deviation for every mean. -/
theorem keepsWidth_iff_le (h : s.CutsRows map) :
    s.KeepsWidth map ↔ s.mean.length ≤ s.scale.length := by
  constructor
  · intro hkeeps
    obtain ⟨out,hout,hlength⟩ := h.cut (List.replicate s.mean.length 0) List.length_replicate
    have := hkeeps.length _ out hout
    rw [List.length_replicate] at this
    omega
  · intro hle
    refine ⟨fun row out hout => ?_,fun row hrow => ⟨_,h.refused row fun hwidth => hrow ?_⟩⟩
    · obtain ⟨hrow,hlength⟩ := h.length_eq hout
      omega
    · exact ⟨hwidth.le,hwidth.le.trans hle⟩

end CutsRows

lemma length_floats?_reread {xs ys : List Float}
    (h : floats? (Json.reread (.array (xs.map .float))) = some ys) : ys.length = xs.length := by
  simp only [floats?, Json.reread, asArray?, rereadItems_eq, Option.bind_eq_bind,
    Option.bind_some] at h
  have := (mapM_eq_some_iff.mp h).length_eq
  simpa using this.symm

/-- What is read of a written scaler has as many means and deviations. -/
lemma lengths_of_reread (h : (parse? s.toJson.toIndentedText).bind ofJson? = some s') :
    s'.mean.length = s.mean.length ∧ s'.scale.length = s.scale.length := by
  rw [parse?_toIndentedText s.fits_toJson, Option.bind_some, toJson, ofJson?,
    fields?_reread (by decide) rfl] at h
  simp only [List.map_cons, List.map_nil, Option.bind_eq_bind, Option.bind_some, strings?_reread,
    Option.bind_eq_some_iff] at h
  obtain ⟨mean,hmean,scale,hscale,h⟩ := h
  cases h
  exact ⟨length_floats?_reread hmean,length_floats?_reread hscale⟩

/-- A scaler scales and brings back the rows with as many columns as it has means, cut to those that
have a deviation, and refuses all others. It keeps their width exactly if there is a deviation for
every mean; this is so if it was fitted, or read from the text of a scaler that was. -/
theorem keepsWidth_iff (s : Scaler) :
    (s.CutsRows s.transformRow ∧ s.CutsRows s.inverseRow) ∧
    (s.KeepsWidth s.transformRow ↔ s.mean.length ≤ s.scale.length) ∧
    (s.KeepsWidth s.inverseRow ↔ s.mean.length ≤ s.scale.length) ∧
    ∀ rows columns fitted, fit rows columns = .ok fitted →
      (s = fitted ∨ (parse? fitted.toJson.toIndentedText).bind ofJson? = some s) →
        s.KeepsWidth s.transformRow ∧ s.KeepsWidth s.inverseRow := by
  have htransform := s.cutsRows_transformRow.keepsWidth_iff_le
  have hinverse := s.cutsRows_inverseRow.keepsWidth_iff_le
  refine ⟨⟨s.cutsRows_transformRow,s.cutsRows_inverseRow⟩,htransform,hinverse,?_⟩
  intro rows columns fitted hfit hs
  have hfitted := isFitted_of_fit hfit
  have hle : s.mean.length ≤ s.scale.length := by
    rcases hs with rfl | hread
    · rw [hfitted.mean, hfitted.scale]
    · obtain ⟨hmean,hscale⟩ := lengths_of_reread hread
      rw [hmean, hscale, hfitted.mean, hfitted.scale]
  exact ⟨htransform.mpr hle,hinverse.mpr hle⟩

/-- A scaler of two columns with a deviation for the first of them only. -/
def narrowText : String :=
  "\x7b\"columns\":[\"a\",\"b\"],\"mean\":[1,2],\"scale\":[3]\x7d"

lemma exists_narrow : ∃ s, (parse? narrowText).bind ofJson? = some s ∧ s.mean.length = 2 ∧
    s.scale.length = 1 := by
  have h : ((parse? narrowText).bind ofJson?).any fun s =>
      s.mean.length = 2 ∧ s.scale.length = 1 := by decide +kernel
  obtain ⟨s,hs,hlengths⟩ := (Option.any_eq_true _ _).mp h
  exact ⟨s,hs,of_decide_eq_true hlengths⟩

theorem keepsWidth_iff_paired : ∃ fitted s narrow,
    fit [[1,2],[3,2]] ["a","b"] = .ok fitted ∧
    (parse? fitted.toJson.toIndentedText).bind ofJson? = some s ∧
    s.KeepsWidth s.transformRow ∧ s.KeepsWidth s.inverseRow ∧
    (parse? narrowText).bind ofJson? = some narrow ∧ ¬ narrow.KeepsWidth narrow.transformRow := by
  obtain ⟨fitted,hfit⟩ : ∃ fitted, fit [[1,2],[3,2]] ["a","b"] = .ok fitted := ⟨_,rfl⟩
  have hfinite : (fit [[1,2],[3,2]] ["a","b"]).toOption.all fun s =>
      s.mean.all Binary.isFinite := by decide +kernel
  rw [hfit] at hfinite
  have hread : (parse? fitted.toJson.toIndentedText).bind ofJson? = some fitted.reread := by
    rw [parse?_toIndentedText fitted.fits_toJson, Option.bind_some]
    exact ofJson?_reread (List.all_eq_true.mp hfinite) (isFitted_of_fit hfit).isFinite
  obtain ⟨-,-,-,hkept⟩ := keepsWidth_iff fitted.reread
  obtain ⟨htransform,hinverse⟩ := hkept _ _ fitted hfit (.inr hread)
  obtain ⟨narrow,hnarrow,hmean,hscale⟩ := exists_narrow
  refine ⟨fitted,_,narrow,hfit,hread,htransform,hinverse,hnarrow,?_⟩
  rw [(keepsWidth_iff narrow).2.1, hmean, hscale]
  decide

/-- A row of two columns is shortened to one, both when it is scaled and when it is brought back. -/
theorem exists_shortened_row : ∃ s row out back, (parse? narrowText).bind ofJson? = some s ∧
    ¬ s.Covers row ∧ s.transformRow row = .ok out ∧ out.length < row.length ∧
    s.inverseRow row = .ok back ∧ back.length < row.length := by
  obtain ⟨s,hs,hmean,hscale⟩ := exists_narrow
  obtain ⟨out,hout,hlength⟩ := s.cutsRows_transformRow.cut [3,4] hmean.symm
  obtain ⟨back,hback,hlength'⟩ := s.cutsRows_inverseRow.cut [3,4] hmean.symm
  rw [hmean, hscale] at hlength hlength'
  refine ⟨s,[3,4],out,back,hs,fun hcovers => ?_,hout,hlength.trans_lt (by decide),hback,
    hlength'.trans_lt (by decide)⟩
  exact absurd (hscale ▸ hcovers.2) (by decide)

end OrderFlow.Scaler
