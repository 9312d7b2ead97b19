import OrderFlow.Proofs.Feature.Windows

/-! The samples of rows: one for each target that is all numbers, with the rows right before it. -/
namespace OrderFlow.Dataset
variable {lookback : Nat} {features targets : List Column.Row}

lemma ofRows_samples (hlookback : 0 < lookback) (features targets : List Column.Row) :
    (ofRows lookback features targets).samples =
      (preceded lookback features (targets.take features.length)).filterMap
        fun (window,target) =>
          if target.all Binary.isFinite then some ⟨window,target⟩ else none := by
  have htake : targets.take (min features.length targets.length) =
      targets.take features.length := by
    rw [← List.take_take, List.take_length]
  rw [ofRows]
  simp only [htake]
  split_ifs with hshort
  · have hnone : (targets.take features.length).drop lookback = [] := by
      rw [List.drop_eq_nil_iff, List.length_take]
      omega
    simp [preceded, hnone, empty]
  · rfl

/-- The samples by the rows whose targets they have. -/
theorem forall₂_ofRows (hlookback : 0 < lookback) (features targets : List Column.Row) :
    List.Forall₂
      (fun i s => lookback ≤ i ∧ s.window = before lookback i features ∧ targets[i]? = some s.target)
      ((List.range' lookback (min features.length targets.length - lookback)).filter fun i =>
        targets[i]?.any (·.all Binary.isFinite))
      (ofRows lookback features targets).samples := by
  have hshort : (targets.take features.length).length ≤ features.length :=
    List.length_take_le ..
  have hpairs := preceded_before lookback hshort
  rw [List.length_take] at hpairs
  rw [ofRows_samples hlookback]
  refine forall₂_filter_filterMap hpairs ?_ ?_
  · rintro i ⟨window,target⟩ ⟨hlow,rfl,htarget⟩ hfinite
    rw [List.getElem?_take, Option.ite_none_right_eq_some] at htarget
    refine ⟨_,if_pos ?_,hlow,rfl,htarget.2⟩
    simpa only [htarget.2, Option.any_some] using hfinite
  · rintro i ⟨window,target⟩ ⟨-,-,htarget⟩ hinfinite
    rw [List.getElem?_take, Option.ite_none_right_eq_some] at htarget
    refine if_neg ?_
    simpa only [htarget.2, Option.any_some, Bool.not_eq_true] using hinfinite

end OrderFlow.Dataset
