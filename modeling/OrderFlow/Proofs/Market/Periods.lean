import OrderFlow.Proofs.Market.Walk

/-! Series of candles, period by period. A series is determined by the trades of each period
between the first trade and the last. -/
namespace OrderFlow.Resample
open Keyed
variable {tf : Timeframe} {unit : TimeUnit} {trades : List Trade} {timed : List Timed}

/-- Trades in order of time make the series of their periods, from the first to the last. -/
theorem fill_buckets {p q : Timed} (hord : InOrder (fun p => tf.periodStart p.1) timed)
    (hhead : timed.head? = some p) (hlast : timed.getLast? = some q) :
    fill tf (buckets tf timed) =
      series tf (fun g => Bucket.ofTrades? g (tradesIn tf timed g))
        (tf.starts (tf.periodStart p.1)
          (tf.periodsBetween (tf.periodStart p.1) (tf.periodStart q.1))) .nothing := by
  have hfirst := head?_buckets tf timed
  have hend := getLast?_buckets tf timed
  rw [hhead, Option.map_some] at hfirst
  rw [hlast, Option.map_some] at hend
  obtain ⟨first,hf,hfo⟩ := Option.map_eq_some_iff.mp hfirst
  obtain ⟨last,hl,hlo⟩ := Option.map_eq_some_iff.mp hend
  simp only [fill, hf, hl, hfo, hlo]
  rw [walk_eq_series _ (buckets_pairwise hord) _ (tf.dvd_periodStart p.1)]
  · apply series_congr
    intro g _
    exact bucketAt_buckets hord g
  · intro b hb
    obtain ⟨q',hq,h⟩ := mem_buckets_openTime hb
    obtain ⟨rest,rfl⟩ := List.head?_eq_some_iff.mp hhead
    rw [h]
    exact hord.head_le hq
  · intro b hb
    obtain ⟨q',-,h⟩ := mem_buckets_openTime hb
    rw [h]
    exact tf.dvd_periodStart q'.1

/-- The start of the first period. -/
def firstStart (tf : Timeframe) (unit : TimeUnit) (trades : List Trade) : Int :=
  tf.periodStart (TimeUnit.least (trades.map fun t => unit.toMillis t.time))

/-- The start of the last period. -/
def lastStart (tf : Timeframe) (unit : TimeUnit) (trades : List Trade) : Int :=
  tf.periodStart (TimeUnit.greatest (trades.map fun t => unit.toMillis t.time))

/-- Every time that is computed on the way is a word: the milliseconds of the trades, the starts of
their periods, and the time from the first period to the last. -/
structure Fits (tf : Timeframe) (unit : TimeUnit) (trades : List Trade) : Prop where
  millis : ∀ t ∈ trades, isSigned (unit.toMillis t.time)
  starts : ∀ t ∈ trades, isSigned (periodOf tf unit t)
  span : isSigned (lastStart tf unit trades - firstStart tf unit trades)

/-- The starts of all periods of a series. -/
def grid (tf : Timeframe) (unit : TimeUnit) (trades : List Trade) : List Int :=
  tf.starts (firstStart tf unit trades)
    (tf.periodsBetween (firstStart tf unit trades) (lastStart tf unit trades))

/-- The bucket of each period. -/
def table (tf : Timeframe) (unit : TimeUnit) (trades : List Trade) (openTime : Int) :
    Option Bucket := Bucket.ofTrades? openTime (tradesOf tf unit trades openTime)

/-- The candles of all periods, each showing the bucket of its period. -/
def seriesOf (tf : Timeframe) (unit : TimeUnit) (trades : List Trade) : List Candle :=
  series tf (table tf unit trades) (grid tf unit trades) .nothing

@[simp] theorem mem_tradesOf {openTime : Int} {t : Trade} :
    t ∈ tradesOf tf unit trades openTime ↔ t ∈ trades ∧ periodOf tf unit t = openTime := by
  simp [tradesOf]

theorem tradesOf_eq_nil_iff {openTime : Int} : tradesOf tf unit trades openTime = [] ↔
    ∀ t ∈ trades, periodOf tf unit t ≠ openTime := by
  rw [List.eq_nil_iff_forall_not_mem]
  simp only [mem_tradesOf, not_and, ne_eq]

theorem table_eq_none_iff {openTime : Int} :
    table tf unit trades openTime = none ↔ tradesOf tf unit trades openTime = [] := by
  rw [table]
  cases tradesOf tf unit trades openTime <;> simp [Bucket.ofTrades?]

lemma least_eq {times : List Int} {m : Int} (hm : m ∈ times) (h : ∀ a ∈ times, m ≤ a) :
    TimeUnit.least times = m := by
  rw [TimeUnit.least, List.min?_eq_some_iff.mpr ⟨hm,h⟩, Option.getD_some]

lemma greatest_eq {times : List Int} {m : Int} (hm : m ∈ times) (h : ∀ a ∈ times, a ≤ m) :
    TimeUnit.greatest times = m := by
  rw [TimeUnit.greatest, List.max?_eq_some_iff.mpr ⟨hm,h⟩, Option.getD_some]

lemma least_le {times : List Int} {a : Int} (ha : a ∈ times) : TimeUnit.least times ≤ a := by
  cases hm : times.min? with
  | none =>
    rw [List.min?_eq_none_iff.mp hm] at ha
    cases ha
  | some m =>
    rw [TimeUnit.least, hm]
    exact (List.min?_eq_some_iff.mp hm).2 a ha

lemma le_greatest {times : List Int} {a : Int} (ha : a ∈ times) : a ≤ TimeUnit.greatest times := by
  cases hm : times.max? with
  | none =>
    rw [List.max?_eq_none_iff.mp hm] at ha
    cases ha
  | some m =>
    rw [TimeUnit.greatest, hm]
    exact (List.max?_eq_some_iff.mp hm).2 a ha

lemma firstStart_le {t : Trade} (ht : t ∈ trades) :
    firstStart tf unit trades ≤ periodOf tf unit t := by
  apply tf.periodStart_mono
  exact least_le (List.mem_map.mpr ⟨t,ht,rfl⟩)

lemma le_lastStart {t : Trade} (ht : t ∈ trades) :
    periodOf tf unit t ≤ lastStart tf unit trades := by
  apply tf.periodStart_mono
  exact le_greatest (List.mem_map.mpr ⟨t,ht,rfl⟩)

lemma firstStart_le_lastStart (tf : Timeframe) (unit : TimeUnit) (hne : trades ≠ []) :
    firstStart tf unit trades ≤ lastStart tf unit trades := by
  obtain ⟨t,ht⟩ := List.exists_mem_of_ne_nil trades hne
  exact (firstStart_le ht).trans (le_lastStart ht)

/-- The grid holds the aligned times from the first period to the last. -/
theorem mem_grid {s : Int} : s ∈ grid tf unit trades ↔
    tf.millis ∣ s ∧ firstStart tf unit trades ≤ s ∧ s ≤ lastStart tf unit trades :=
  Timeframe.mem_starts_periodsBetween (tf.dvd_periodStart _) (tf.dvd_periodStart _)

theorem grid_pairwise (tf : Timeframe) (unit : TimeUnit) (trades : List Trade) :
    (grid tf unit trades).Pairwise (· < ·) := tf.starts_pairwise ..

theorem periodOf_mem_grid {t : Trade} (ht : t ∈ trades) :
    periodOf tf unit t ∈ grid tf unit trades :=
  mem_grid.mpr ⟨tf.dvd_periodStart _,firstStart_le ht,le_lastStart ht⟩

lemma head?_ordered (unit : TimeUnit) (hne : trades ≠ []) :
    ∃ p, (ordered unit trades).head? = some p ∧
      p.1 = TimeUnit.least (trades.map fun t => unit.toMillis t.time) := by
  have hord := inOrder_sortBy (fun t : Trade => unit.toMillis t.time) trades
  have hlen := length_sortBy (fun t : Trade => unit.toMillis t.time) trades
  rw [ordered_eq]
  cases hs : sortBy (fun t : Trade => unit.toMillis t.time) trades with
  | nil =>
    rw [hs] at hlen
    exact absurd (List.length_eq_zero_iff.mp hlen.symm) hne
  | cons t rest =>
    refine ⟨(unit.toMillis t.time,t),rfl,?_⟩
    symm
    apply least_eq
    · exact List.mem_map.mpr ⟨t,mem_sortBy.mp (hs ▸ List.mem_cons_self),rfl⟩
    · intro a ha
      obtain ⟨u,hu,rfl⟩ := List.mem_map.mp ha
      rw [hs] at hord
      exact hord.head_le (hs ▸ mem_sortBy.mpr hu)

lemma getLast?_ordered (unit : TimeUnit) (hne : trades ≠ []) :
    ∃ p, (ordered unit trades).getLast? = some p ∧
      p.1 = TimeUnit.greatest (trades.map fun t => unit.toMillis t.time) := by
  have hord := inOrder_sortBy (fun t : Trade => unit.toMillis t.time) trades
  have hlen := length_sortBy (fun t : Trade => unit.toMillis t.time) trades
  rw [ordered_eq, List.getLast?_map]
  cases hs : (sortBy (fun t : Trade => unit.toMillis t.time) trades).getLast? with
  | none =>
    rw [List.getLast?_eq_none_iff.mp hs] at hlen
    exact absurd (List.length_eq_zero_iff.mp hlen.symm) hne
  | some t =>
    refine ⟨(unit.toMillis t.time,t),rfl,?_⟩
    symm
    apply greatest_eq
    · exact List.mem_map.mpr ⟨t,mem_sortBy.mp (List.mem_of_getLast? hs),rfl⟩
    · intro a ha
      obtain ⟨u,hu,rfl⟩ := List.mem_map.mp ha
      exact hord.le_getLast hs (mem_sortBy.mpr hu)

lemma mem_ordered {p : Timed} :
    p ∈ ordered unit trades ↔ ∃ t ∈ trades, (unit.toMillis t.time,t) = p := by
  rw [ordered_eq, List.mem_map]
  simp only [mem_sortBy]

/-- Some trade falls into the first period. -/
lemma exists_firstStart (tf : Timeframe) (unit : TimeUnit) (hne : trades ≠ []) :
    ∃ t ∈ trades, periodOf tf unit t = firstStart tf unit trades := by
  obtain ⟨p,hp,hleast⟩ := head?_ordered unit hne
  obtain ⟨t,ht,rfl⟩ := mem_ordered.mp (List.mem_of_head? hp)
  exact ⟨t,ht,by rw [firstStart, ← hleast, periodOf]⟩

/-- Some trade falls into the last period. -/
lemma exists_lastStart (tf : Timeframe) (unit : TimeUnit) (hne : trades ≠ []) :
    ∃ t ∈ trades, periodOf tf unit t = lastStart tf unit trades := by
  obtain ⟨p,hp,hgreatest⟩ := getLast?_ordered unit hne
  obtain ⟨t,ht,rfl⟩ := mem_ordered.mp (List.mem_of_getLast? hp)
  exact ⟨t,ht,by rw [lastStart, ← hgreatest, periodOf]⟩

lemma inOrder_ordered (tf : Timeframe) (unit : TimeUnit) (trades : List Trade) :
    InOrder (fun p => tf.periodStart p.1) (ordered unit trades) := by
  have h : InOrder Prod.fst (ordered unit trades) := inOrder_sortBy Prod.fst _
  exact h.imp fun hab => tf.periodStart_mono hab

theorem fill_ordered (hne : trades ≠ []) :
    fill tf (buckets tf (ordered unit trades)) = seriesOf tf unit trades := by
  obtain ⟨p,hp,hleast⟩ := head?_ordered unit hne
  obtain ⟨q,hq,hgreatest⟩ := getLast?_ordered unit hne
  rw [fill_buckets (inOrder_ordered tf unit trades) hp hq, hleast, hgreatest]
  apply series_congr
  intro g _
  rw [tradesIn_ordered, table]

theorem isTimely_ordered (hne : trades ≠ []) :
    isTimely tf (ordered unit trades) = true ↔ Fits tf unit trades := by
  obtain ⟨p,hp,hleast⟩ := head?_ordered unit hne
  obtain ⟨q,hq,hgreatest⟩ := getLast?_ordered unit hne
  have hspan : ((ordered unit trades).map fun p => tf.periodStart p.1).getLastD 0 -
      ((ordered unit trades).map fun p => tf.periodStart p.1).headD 0 =
      lastStart tf unit trades - firstStart tf unit trades := by
    rw [List.getLastD_eq_getLast?, List.headD_eq_head?_getD, List.getLast?_map, List.head?_map, hp,
      hq, Option.map_some, Option.map_some, Option.getD_some, Option.getD_some, hleast, hgreatest,
      firstStart, lastStart]
  rw [isTimely]
  simp only [hspan, Bool.and_eq_true, List.all_eq_true, List.mem_map]
  constructor
  · rintro ⟨⟨hmillis,hstarts⟩,hspan⟩
    refine ⟨?_,?_,hspan⟩
    · intro t ht
      exact hmillis _ (mem_ordered.mpr ⟨t,ht,rfl⟩)
    · intro t ht
      exact hstarts _ ⟨_,mem_ordered.mpr ⟨t,ht,rfl⟩,rfl⟩
  · intro h
    refine ⟨⟨?_,?_⟩,h.span⟩
    · intro p hp
      obtain ⟨t,ht,rfl⟩ := mem_ordered.mp hp
      exact h.millis t ht
    · rintro s ⟨p,hp,rfl⟩
      obtain ⟨t,ht,rfl⟩ := mem_ordered.mp hp
      exact h.starts t ht

/-- Trades whose times are understood and fit make the series of their periods; times that do not
fit are refused. -/
theorem build_eq (hne : trades ≠ []) (hunit : TimeUnit.detect (trades.map (·.time)) = .ok unit) :
    build tf trades = if isTimely tf (ordered unit trades) then .ok (seriesOf tf unit trades)
    else .error .overflow := by
  rw [build, if_neg (by simpa using hne), hunit, ← fill_ordered hne]
  rfl

theorem build_of_fits (hne : trades ≠ [])
    (hunit : TimeUnit.detect (trades.map (·.time)) = .ok unit) (hfits : Fits tf unit trades) :
    build tf trades = .ok (seriesOf tf unit trades) := by
  rw [build_eq hne hunit, if_pos ((isTimely_ordered hne).mpr hfits)]

/-- What a successful run has seen: no trades at all, or trades in a known unit that fit. -/
theorem build_eq_ok {candles : List Candle} (h : build tf trades = .ok candles) :
    trades = [] ∧ candles = [] ∨ trades ≠ [] ∧ ∃ unit,
      TimeUnit.detect (trades.map (·.time)) = .ok unit ∧ Fits tf unit trades ∧
      candles = seriesOf tf unit trades := by
  by_cases hne : trades = []
  · left
    subst hne
    cases h
    exact ⟨rfl,rfl⟩
  · right
    refine ⟨hne,?_⟩
    cases hunit : TimeUnit.detect (trades.map (·.time)) with
    | error cause =>
      rw [build, if_neg (by simpa using hne), hunit] at h
      cases h
    | ok unit =>
      rw [build_eq hne hunit] at h
      by_cases ht : isTimely tf (ordered unit trades)
      · rw [if_pos ht] at h
        cases h
        exact ⟨unit,rfl,(isTimely_ordered hne).mp ht,rfl⟩
      · rw [if_neg ht] at h
        cases h

lemma candleAt_openTime (last : Carried) (openTime : Int) :
    (candleAt tf last openTime (table tf unit trades openTime)).openTime = openTime := by
  cases hb : table tf unit trades openTime with
  | none => rfl
  | some b => exact Bucket.ofTrades?_openTime hb

theorem map_openTime_seriesOf (tf : Timeframe) (unit : TimeUnit) (trades : List Trade) :
    (seriesOf tf unit trades).map Candle.openTime = grid tf unit trades := by
  rw [seriesOf, map_series Candle.openTime id _ fun g _ last => candleAt_openTime last g,
    List.map_id]

/-- A series opens at the first start, one period later and so on up to the last start. -/
theorem exists_map_openTime_seriesOf (tf : Timeframe) (unit : TimeUnit) (hne : trades ≠ []) :
    ∃ n : Nat, lastStart tf unit trades = firstStart tf unit trades + n * tf.millis ∧
      (seriesOf tf unit trades).map Candle.openTime =
        tf.starts (firstStart tf unit trades) (n+1) := by
  obtain ⟨n,hlast,hn⟩ := Timeframe.periodsBetween_eq (tf.dvd_periodStart _) (tf.dvd_periodStart _)
    (firstStart_le_lastStart tf unit hne)
  refine ⟨n,hlast,?_⟩
  rw [map_openTime_seriesOf, grid, ← hn]
  rfl

lemma seriesOf_pairwise (tf : Timeframe) (unit : TimeUnit) (trades : List Trade) :
    (seriesOf tf unit trades).Pairwise fun a b => a.openTime < b.openTime := by
  rw [← List.pairwise_map (R := (· < ·)), map_openTime_seriesOf]
  exact grid_pairwise tf unit trades

lemma openTime_mem_grid {c : Candle} (hc : c ∈ seriesOf tf unit trades) :
    c.openTime ∈ grid tf unit trades := by
  rw [← map_openTime_seriesOf]
  exact List.mem_map_of_mem hc

lemma exists_candle (tf : Timeframe) (unit : TimeUnit) {t : Trade} (ht : t ∈ trades) :
    ∃ c ∈ seriesOf tf unit trades, c.openTime = periodOf tf unit t := by
  have hmem : periodOf tf unit t ∈ grid tf unit trades := periodOf_mem_grid ht
  rw [← map_openTime_seriesOf] at hmem
  exact List.mem_map.mp hmem

lemma filter_eq_singleton {gs : List Int} {candles : List Candle} {g : Int}
    (hgs : gs.Pairwise (· < ·)) (hopen : candles.map Candle.openTime = gs) (hg : g ∈ gs) :
    ∃ c, candles.filter (fun c => c.openTime = g) = [c] := by
  induction candles generalizing gs with
  | nil =>
    subst hopen
    cases hg
  | cons c rest ih =>
    subst hopen
    obtain ⟨hlt,hrest⟩ := List.pairwise_cons.mp hgs
    rcases List.mem_cons.mp hg with rfl | hg
    · refine ⟨c,?_⟩
      rw [List.filter_cons_of_pos (by simp), List.filter_eq_nil_iff.mpr]
      intro c' hc'
      have := hlt c'.openTime (List.mem_map.mpr ⟨c',hc',rfl⟩)
      simp only [decide_eq_true_eq]
      omega
    · obtain ⟨c',h⟩ := ih hrest rfl hg
      refine ⟨c',?_⟩
      have := hlt g hg
      rw [List.filter_cons_of_neg, h]
      simp only [decide_eq_true_eq]
      omega

/-- A period of the grid has one candle. -/
theorem filter_openTime {openTime : Int} (h : openTime ∈ grid tf unit trades) :
    ∃ c, (seriesOf tf unit trades).filter (fun c => c.openTime = openTime) = [c] :=
  filter_eq_singleton (grid_pairwise tf unit trades) (map_openTime_seriesOf ..) h

/-- Two trades of one minute after a later one, with two minutes between them that are empty. -/
def sparseTrades : List Trade :=
  [⟨none,1704067380005,.scaled 12 0,.scaled 1 0,.scaled 12 0,true⟩,
   ⟨none,1704067200000,.scaled 10 0,.scaled 2 0,.scaled 20 0,false⟩,
   ⟨none,1704067230000,.scaled 115 1,.scaled 2 0,.scaled 230 1,false⟩]

lemma sparseTrades_fit : Fits .oneMinute .millis sparseTrades := ⟨by decide,by decide,by decide⟩

end OrderFlow.Resample
