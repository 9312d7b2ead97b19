import OrderFlow.Proofs.Market.Periods

/-! Later trades never change a closed candle. The trades before an aligned time fill whole periods,
so without the others the series ends earlier but is otherwise the same. -/
namespace OrderFlow.Resample
variable {tf : Timeframe} {unit : TimeUnit} {trades : List Trade} {cut : Int}

def before (unit : TimeUnit) (cut : Int) (trades : List Trade) : List Trade :=
  trades.filter fun t => unit.toMillis t.time < cut

@[simp] theorem mem_before {t : Trade} :
    t ∈ before unit cut trades ↔ t ∈ trades ∧ unit.toMillis t.time < cut := by simp [before]

/-- A period that opens before an aligned time is over by then. -/
theorem tradesOf_before (hcut : tf.millis ∣ cut) {openTime : Int} (h : openTime < cut) :
    tradesOf tf unit (before unit cut trades) openTime = tradesOf tf unit trades openTime := by
  rw [tradesOf, tradesOf, before, List.filter_filter]
  congr 1
  apply List.filter_congr
  intro t _
  by_cases ht : periodOf tf unit t = openTime
  · have hlt : unit.toMillis t.time < cut := by
      apply (Timeframe.periodStart_lt_iff hcut).mp
      rw [← periodOf, ht]
      exact h
    simp [ht, hlt]
  · simp [ht]

theorem firstStart_before (hcut : tf.millis ∣ cut) (hne : before unit cut trades ≠ []) :
    firstStart tf unit (before unit cut trades) = firstStart tf unit trades := by
  obtain ⟨t,ht,hfirst⟩ := exists_firstStart tf unit hne
  obtain ⟨htrades,hlt⟩ := mem_before.mp ht
  have hle : firstStart tf unit trades ≤ firstStart tf unit (before unit cut trades) :=
    hfirst ▸ firstStart_le htrades
  apply le_antisymm _ hle
  obtain ⟨u,hu,hufirst⟩ := exists_firstStart tf unit (List.ne_nil_of_mem htrades)
  have huc : periodOf tf unit u < cut := by
    rw [hufirst]
    exact hle.trans_lt (hfirst ▸ (Timeframe.periodStart_lt_iff hcut).mpr hlt)
  rw [← hufirst]
  exact firstStart_le (mem_before.mpr ⟨hu,(Timeframe.periodStart_lt_iff hcut).mp huc⟩)

theorem lastStart_before_le (tf : Timeframe) (hne : before unit cut trades ≠ []) :
    lastStart tf unit (before unit cut trades) ≤ lastStart tf unit trades := by
  obtain ⟨t,ht,hlast⟩ := exists_lastStart tf unit hne
  exact hlast ▸ le_lastStart (mem_before.mp ht).1

theorem lastStart_before_lt (hcut : tf.millis ∣ cut) (hne : before unit cut trades ≠ []) :
    lastStart tf unit (before unit cut trades) < cut := by
  obtain ⟨t,ht,hlast⟩ := exists_lastStart tf unit hne
  exact hlast ▸ (Timeframe.periodStart_lt_iff hcut).mpr (mem_before.mp ht).2

/-- The earlier trades have the same first period, so their periods are the first ones. -/
theorem grid_before (hcut : tf.millis ∣ cut) (hne : before unit cut trades ≠ []) :
    grid tf unit (before unit cut trades) =
      (grid tf unit trades).take (grid tf unit (before unit cut trades)).length := by
  have hle : tf.periodsBetween (firstStart tf unit trades)
      (lastStart tf unit (before unit cut trades)) ≤
      tf.periodsBetween (firstStart tf unit trades) (lastStart tf unit trades) :=
    tf.periodsBetween_mono (lastStart_before_le tf hne)
  rw [grid, grid, firstStart_before hcut hne, Timeframe.length_starts,
    Timeframe.starts_take _ hle]

theorem Fits.before (hcut : tf.millis ∣ cut) (hne : before unit cut trades ≠ [])
    (h : Fits tf unit trades) : Fits tf unit (before unit cut trades) := by
  refine ⟨?_,?_,?_⟩
  · intro t ht
    exact h.millis t (mem_before.mp ht).1
  · intro t ht
    exact h.starts t (mem_before.mp ht).1
  · have hspan := isSigned_iff.mp h.span
    have hfirst := firstStart_le_lastStart tf unit hne
    have hlast := lastStart_before_le tf hne
    rw [firstStart_before hcut hne] at hfirst ⊢
    rw [isSigned_iff]
    omega

/-- What the trades before an aligned time show is a beginning of what all trades show, as long as
both tell the same unit of time; it goes on to the last period with one of these trades. -/
theorem build_before {candles : List Candle} (hcut : tf.millis ∣ cut)
    (hearlier : ∃ t ∈ trades, unit.toMillis t.time < cut)
    (hunit : TimeUnit.detect (trades.map (·.time)) = .ok unit)
    (hunit' : TimeUnit.detect ((before unit cut trades).map (·.time)) = .ok unit)
    (hbuild : build tf trades = .ok candles) :
    ∃ closed, build tf (before unit cut trades) = .ok closed ∧ closed <+: candles ∧
      ∀ t ∈ before unit cut trades, ∃ c ∈ closed, c.openTime = periodOf tf unit t := by
  obtain ⟨t,ht,hlt⟩ := hearlier
  have hne : before unit cut trades ≠ [] := List.ne_nil_of_mem (mem_before.mpr ⟨ht,hlt⟩)
  rcases build_eq_ok hbuild with ⟨hnil,-⟩ | ⟨-,unit',hu,hfits,rfl⟩
  · rw [hnil] at ht
    cases ht
  · rw [hunit] at hu
    cases hu
    refine ⟨_,build_of_fits hne hunit' (hfits.before hcut hne),?_,?_⟩
    · have htable : ∀ g ∈ grid tf unit (before unit cut trades),
          table tf unit (before unit cut trades) g = table tf unit trades g := by
        intro g hg
        have hlast := (mem_grid.mp hg).2.2
        rw [table, table, tradesOf_before hcut (hlast.trans_lt (lastStart_before_lt hcut hne))]
      rw [seriesOf, seriesOf, series_congr htable, grid_before hcut hne, ← take_series]
      exact List.take_prefix ..
    · intro u hu
      exact exists_candle tf unit hu

theorem build_before_sparse : ∃ candles closed,
    Timeframe.oneMinute.millis ∣ 1704067320000 ∧
    (∃ t ∈ sparseTrades, TimeUnit.millis.toMillis t.time < 1704067320000) ∧
    TimeUnit.detect (sparseTrades.map (·.time)) = .ok .millis ∧
    TimeUnit.detect ((before .millis 1704067320000 sparseTrades).map (·.time)) = .ok .millis ∧
    build .oneMinute sparseTrades = .ok candles ∧
    build .oneMinute (before .millis 1704067320000 sparseTrades) = .ok closed ∧
    closed <+: candles ∧ ∀ t ∈ before .millis 1704067320000 sparseTrades,
      ∃ c ∈ closed, c.openTime = periodOf .oneMinute .millis t := by
  have hcut : Timeframe.oneMinute.millis ∣ 1704067320000 := by decide
  have hearlier : ∃ t ∈ sparseTrades, TimeUnit.millis.toMillis t.time < 1704067320000 := by decide
  have hunit : TimeUnit.detect (sparseTrades.map (·.time)) = .ok .millis := by rfl
  have hunit' : TimeUnit.detect
      ((before .millis 1704067320000 sparseTrades).map (·.time)) = .ok .millis := by rfl
  have hbuild := build_of_fits (by decide) hunit sparseTrades_fit
  obtain ⟨closed,hclosed⟩ := build_before hcut hearlier hunit hunit' hbuild
  exact ⟨_,closed,hcut,hearlier,hunit,hunit',hbuild,hclosed⟩

end OrderFlow.Resample
