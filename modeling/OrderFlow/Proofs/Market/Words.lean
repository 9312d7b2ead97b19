import OrderFlow.Proofs.Market.Times

/-! The words of a run. Every number that is computed from the times of trades lies between zero and
the last time, so where these are words nothing overflows, from the first product to the last
candle. -/
namespace OrderFlow

namespace Timeframe
variable {tf : Timeframe} {first last w : Int}

/-- The numbers computed on a walk over the periods from a first start to a last one. -/
inductive Walked (tf : Timeframe) (first last : Int) : Int → Prop
  | span : Walked tf first last (last - first)
  | periods : Walked tf first last ((last - first) / tf.millis)
  | index {i : Nat} (h : i < tf.periodsBetween first last) : Walked tf first last i
  | offset {i : Nat} (h : i < tf.periodsBetween first last) : Walked tf first last (i * tf.millis)
  | openTime {i : Nat} (h : i < tf.periodsBetween first last) :
      Walked tf first last (first + i * tf.millis)

/-- The walk ends at the last start, so no offset goes past it. -/
lemma offset_le (hf : tf.millis ∣ first) (hl : tf.millis ∣ last) (h : first ≤ last) {i : Nat}
    (hi : i < tf.periodsBetween first last) : i * tf.millis ≤ last - first := by
  obtain ⟨n,hlast,hn⟩ := periodsBetween_eq hf hl h
  have : (i : Int) * tf.millis ≤ n * tf.millis :=
    Int.mul_le_mul_of_nonneg_right (by omega) tf.millis_pos.le
  omega

theorem Walked.bounds (hw : Walked tf first last w) (hf : tf.millis ∣ first)
    (hl : tf.millis ∣ last) (hpos : 0 ≤ first) (h : first ≤ last) : 0 ≤ w ∧ w ≤ last := by
  have hm := tf.millis_pos
  have hoffset : ∀ i : Nat, i < tf.periodsBetween first last →
      0 ≤ (i : Int) * tf.millis ∧ i * tf.millis ≤ last - first :=
    fun i hi => ⟨Int.mul_nonneg (Int.natCast_nonneg i) hm.le,offset_le hf hl h hi⟩
  cases hw with
  | span => omega
  | periods =>
    have hle := Int.ediv_le_self tf.millis (by omega : 0 ≤ last - first)
    exact ⟨Int.ediv_nonneg (by omega) hm.le,by omega⟩
  | @index i hi =>
    have hle : (i : Int) ≤ i * tf.millis := le_mul_of_one_le_right (Int.natCast_nonneg i) hm
    have := (hoffset i hi).2
    exact ⟨Int.natCast_nonneg i,by omega⟩
  | offset hi =>
    have := hoffset _ hi
    omega
  | openTime hi =>
    have := hoffset _ hi
    omega

end Timeframe

namespace Resample
variable {tf : Timeframe} {unit : TimeUnit} {trades : List Trade} {w : Int}

/-- The numbers computed for times while candles are built: the length of a period, the milliseconds
of each trade, its period and the start of that, and what the walk from the first bucket to the last
computes. -/
inductive Computed (tf : Timeframe) (unit : TimeUnit) (trades : List Trade) : Int → Prop
  | length : Computed tf unit trades tf.millis
  | millis {t : Trade} (h : t ∈ trades) : Computed tf unit trades (unit.toMillis t.time)
  | period {p : Timed} (h : p ∈ ordered unit trades) : Computed tf unit trades (p.1 / tf.millis)
  | start {p : Timed} (h : p ∈ ordered unit trades) : Computed tf unit trades (tf.periodStart p.1)
  | walked {first last : Bucket} {w : Int}
      (hfirst : (buckets tf (ordered unit trades)).head? = some first)
      (hlast : (buckets tf (ordered unit trades)).getLast? = some last)
      (h : tf.Walked first.openTime last.openTime w) : Computed tf unit trades w

lemma openTime_of_head? (hne : trades ≠ []) {first : Bucket}
    (h : (buckets tf (ordered unit trades)).head? = some first) :
    first.openTime = firstStart tf unit trades := by
  obtain ⟨p,hp,hleast⟩ := head?_ordered unit hne
  have hopen := head?_buckets tf (ordered unit trades)
  rw [h, hp, Option.map_some, Option.map_some, Option.some.injEq, hleast] at hopen
  exact hopen

lemma openTime_of_getLast? (hne : trades ≠ []) {last : Bucket}
    (h : (buckets tf (ordered unit trades)).getLast? = some last) :
    last.openTime = lastStart tf unit trades := by
  obtain ⟨p,hp,hgreatest⟩ := getLast?_ordered unit hne
  have hopen := getLast?_buckets tf (ordered unit trades)
  rw [h, hp, Option.map_some, Option.map_some, Option.some.injEq, hgreatest] at hopen
  exact hopen

/-- Times that are positive words make every number on the way one that is not negative. -/
theorem Computed.bounds (hw : Computed tf unit trades w)
    (hunit : TimeUnit.detect (trades.map (·.time)) = .ok unit)
    (htimes : ∀ t ∈ trades, 0 < t.time ∧ t.time < 2 ^ 63) : 0 ≤ w ∧ w < 2 ^ 63 := by
  have hne := ne_nil_of_detect hunit
  have hmillis : ∀ t ∈ trades, 0 < unit.toMillis t.time ∧ unit.toMillis t.time < 2 ^ 63 :=
    fun t ht => TimeUnit.toMillis_bounds hunit (List.mem_map_of_mem ht) (htimes t ht).1
      (htimes t ht).2
  have hordered : ∀ p ∈ ordered unit trades, 0 < p.1 ∧ p.1 < 2 ^ 63 := by
    intro p hp
    obtain ⟨t,ht,rfl⟩ := mem_ordered.mp hp
    exact hmillis t ht
  have hstart : ∀ t ∈ trades, 0 ≤ periodOf tf unit t ∧ periodOf tf unit t < 2 ^ 63 :=
    fun t ht => ⟨tf.periodStart_nonneg (hmillis t ht).1.le,
      (tf.periodStart_le _).trans_lt (hmillis t ht).2⟩
  cases hw with
  | length => cases tf <;> decide
  | millis ht => exact ⟨(hmillis _ ht).1.le,(hmillis _ ht).2⟩
  | @period p hp =>
    obtain ⟨hpos,hlt⟩ := hordered p hp
    exact ⟨Int.ediv_nonneg hpos.le tf.millis_pos.le,
      (Int.ediv_le_self _ hpos.le).trans_lt hlt⟩
  | start hp =>
    obtain ⟨t,ht,rfl⟩ := mem_ordered.mp hp
    exact hstart t ht
  | walked hfirst hlast h =>
    obtain ⟨t,ht,htf⟩ := exists_firstStart tf unit hne
    obtain ⟨u,hu,hul⟩ := exists_lastStart tf unit hne
    rw [openTime_of_head? hne hfirst, openTime_of_getLast? hne hlast] at h
    have hbounds := h.bounds (tf.dvd_periodStart _) (tf.dvd_periodStart _) (htf ▸ (hstart t ht).1)
      (firstStart_le_lastStart tf unit hne)
    exact ⟨hbounds.1,hbounds.2.trans_lt (hul ▸ (hstart u hu).2)⟩

/-- The open times of a series are among the numbers computed on the way. -/
lemma computed_openTime (hne : trades ≠ []) {c : Candle} (hc : c ∈ seriesOf tf unit trades) :
    Computed tf unit trades c.openTime := by
  obtain ⟨p,hp,-⟩ := head?_ordered unit hne
  obtain ⟨q,hq,-⟩ := getLast?_ordered unit hne
  have hhead := head?_buckets tf (ordered unit trades)
  have hend := getLast?_buckets tf (ordered unit trades)
  rw [hp, Option.map_some] at hhead
  rw [hq, Option.map_some] at hend
  obtain ⟨first,hfirst,-⟩ := Option.map_eq_some_iff.mp hhead
  obtain ⟨last,hlast,-⟩ := Option.map_eq_some_iff.mp hend
  have hgrid := openTime_mem_grid hc
  rw [grid, ← openTime_of_head? hne hfirst, ← openTime_of_getLast? hne hlast] at hgrid
  obtain ⟨i,hi,hopen⟩ := List.mem_map.mp hgrid
  rw [← hopen]
  exact .walked hfirst hlast (.openTime (List.mem_range.mp hi))

/-- For trades at positive times, up to the last that a word holds, no number on the way to the
candles leaves the words that are not negative; so the run never overflows. -/
theorem build_computes_words (tf : Timeframe)
    (hunit : TimeUnit.detect (trades.map (·.time)) = .ok unit)
    (htimes : ∀ t ∈ trades, 0 < t.time ∧ t.time ≤ 2 ^ 63 - 1) :
    (∀ w, Computed tf unit trades w → 0 ≤ w ∧ w ≤ 2 ^ 63 - 1) ∧
    ∃ candles, build tf trades = .ok candles ∧
      ∀ c ∈ candles, Computed tf unit trades c.openTime := by
  have hne := ne_nil_of_detect hunit
  have hwords : ∀ t ∈ trades, 0 < t.time ∧ t.time < 2 ^ 63 := by
    intro t ht
    have := htimes t ht
    omega
  refine ⟨?_,_,build_of_fits hne hunit (fits_of_times tf hunit hwords),?_⟩
  · intro w hw
    have := hw.bounds hunit hwords
    omega
  · intro c hc
    exact computed_openTime hne hc

/-- The first and the last time that a trade can have, in milliseconds. -/
def extremeTrades : List Trade :=
  [⟨none,2 ^ 63 - 1,.scaled 10 0,.scaled 1 0,.scaled 10 0,false⟩,
   ⟨none,1,.scaled 11 0,.scaled 1 0,.scaled 11 0,true⟩]

/-- The first and the last time that is taken for seconds. -/
def secondTrades : List Trade :=
  [⟨none,1000000000000,.scaled 10 0,.scaled 1 0,.scaled 10 0,false⟩,
   ⟨none,1,.scaled 11 0,.scaled 1 0,.scaled 11 0,true⟩]

theorem build_computes_words_extreme :
    TimeUnit.detect (extremeTrades.map (·.time)) = .ok .millis ∧
    (∀ t ∈ extremeTrades, 0 < t.time ∧ t.time ≤ 2 ^ 63 - 1) ∧
    TimeUnit.detect (secondTrades.map (·.time)) = .ok .seconds ∧
    (∀ t ∈ secondTrades, 0 < t.time ∧ t.time ≤ 2 ^ 63 - 1) ∧
    (∀ w, Computed .oneDay .millis extremeTrades w → 0 ≤ w ∧ w ≤ 2 ^ 63 - 1) ∧
    (∃ candles, build .oneDay extremeTrades = .ok candles ∧
      ∀ c ∈ candles, Computed .oneDay .millis extremeTrades c.openTime) ∧
    (∀ w, Computed .oneMinute .seconds secondTrades w → 0 ≤ w ∧ w ≤ 2 ^ 63 - 1) ∧
    ∃ candles, build .oneMinute secondTrades = .ok candles ∧
      ∀ c ∈ candles, Computed .oneMinute .seconds secondTrades c.openTime := by
  have hmillis : TimeUnit.detect (extremeTrades.map (·.time)) = .ok .millis := by rfl
  have hseconds : TimeUnit.detect (secondTrades.map (·.time)) = .ok .seconds := by rfl
  have hextreme : ∀ t ∈ extremeTrades, 0 < t.time ∧ t.time ≤ 2 ^ 63 - 1 := by decide
  have hsecond : ∀ t ∈ secondTrades, 0 < t.time ∧ t.time ≤ 2 ^ 63 - 1 := by decide
  obtain ⟨hwords,hbuild⟩ := build_computes_words .oneDay hmillis hextreme
  obtain ⟨hwords',hbuild'⟩ := build_computes_words .oneMinute hseconds hsecond
  exact ⟨hmillis,hextreme,hseconds,hsecond,hwords,hbuild,hwords',hbuild'⟩

end Resample
end OrderFlow
