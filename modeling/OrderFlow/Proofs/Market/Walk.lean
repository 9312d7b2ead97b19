import OrderFlow.Proofs.Market.Alignment
import OrderFlow.Proofs.Market.Gathering

/-! The walk over the periods of a series. It consumes every bucket at its own period, so a series
is what a table of buckets holds for each period, one candle after the other. -/
namespace OrderFlow.Resample
variable {tf : Timeframe} {table : Int → Option Bucket}

/-- The candle of a period, given the bucket of its trades if it has any. -/
def candleAt (tf : Timeframe) (last : Carried) (openTime : Int) : Option Bucket → Candle
  | some b => traded tf last b
  | none => untraded tf last openTime

/-- What the next period takes over. -/
def Carried.after (last : Carried) (c : Candle) (bucket : Option Bucket) : Carried :=
  ⟨some c.closePrice,(bucket.bind Bucket.vwap?).or last.vwap⟩

/-- The candles of some periods, each with the bucket that a table holds for it. -/
def series (tf : Timeframe) (table : Int → Option Bucket) : List Int → Carried → List Candle
  | [], _ => []
  | openTime :: rest, last =>
    let c := candleAt tf last openTime (table openTime)
    c :: series tf table rest (last.after c (table openTime))

theorem series_cons (tf : Timeframe) (table : Int → Option Bucket) (openTime : Int)
    (rest : List Int) (last : Carried) :
    series tf table (openTime :: rest) last =
      candleAt tf last openTime (table openTime) :: series tf table rest
        (last.after (candleAt tf last openTime (table openTime)) (table openTime)) := rfl

theorem series_congr {table table' : Int → Option Bucket} {openTimes : List Int}
    (h : ∀ g ∈ openTimes, table g = table' g) (last : Carried) :
    series tf table openTimes last = series tf table' openTimes last := by
  induction openTimes generalizing last with
  | nil => rfl
  | cons g rest ih =>
    rw [series_cons, series_cons, h g List.mem_cons_self,
      ih fun g' hg' => h g' (List.mem_cons_of_mem _ hg')]

/-- Every candle of a series is the one of its period, whatever was carried there. -/
theorem mem_series {openTimes : List Int} {last : Carried} {c : Candle}
    (hc : c ∈ series tf table openTimes last) :
    ∃ g ∈ openTimes, ∃ last', c = candleAt tf last' g (table g) := by
  induction openTimes generalizing last with
  | nil => cases hc
  | cons g rest ih =>
    rw [series_cons] at hc
    rcases List.mem_cons.mp hc with rfl | hc
    · exact ⟨g,List.mem_cons_self,last,rfl⟩
    · obtain ⟨g',hg',h⟩ := ih hc
      exact ⟨g',List.mem_cons_of_mem _ hg',h⟩

/-- Parts of candles that do not depend on what is carried are parts of the table. -/
theorem map_series {β : Type*} (part : Candle → β) (entry : Int → β) (openTimes : List Int)
    (h : ∀ g ∈ openTimes, ∀ last, part (candleAt tf last g (table g)) = entry g) (last : Carried) :
    (series tf table openTimes last).map part = openTimes.map entry := by
  induction openTimes generalizing last with
  | nil => rfl
  | cons g rest ih =>
    rw [series_cons, List.map_cons, List.map_cons, h g List.mem_cons_self,
      ih fun g' hg' => h g' (List.mem_cons_of_mem _ hg')]

theorem take_series (n : Nat) (openTimes : List Int) (last : Carried) :
    (series tf table openTimes last).take n = series tf table (openTimes.take n) last := by
  induction n generalizing openTimes last with
  | zero => rfl
  | succ n ih =>
    cases openTimes with
    | nil => rfl
    | cons g rest =>
      rw [series_cons, List.take_succ_cons, List.take_succ_cons, series_cons, ih]

lemma walk_nil (n : Nat) (openTime : Int) (last : Carried) :
    walk tf (n+1) openTime [] last =
      candleAt tf last openTime none :: walk tf n (openTime + tf.millis) []
        (last.after (candleAt tf last openTime none) none) := rfl

lemma walk_cons_of_eq {b : Bucket} {openTime : Int} (h : b.openTime = openTime) (n : Nat)
    (rest : List Bucket) (last : Carried) :
    walk tf (n+1) openTime (b :: rest) last =
      candleAt tf last openTime (some b) :: walk tf n (openTime + tf.millis) rest
        (last.after (candleAt tf last openTime (some b)) (some b)) := by
  rw [walk, if_pos h]
  rfl

lemma walk_cons_of_ne {b : Bucket} {openTime : Int} (h : b.openTime ≠ openTime) (n : Nat)
    (rest : List Bucket) (last : Carried) :
    walk tf (n+1) openTime (b :: rest) last =
      candleAt tf last openTime none :: walk tf n (openTime + tf.millis) (b :: rest)
        (last.after (candleAt tf last openTime none) none) := by
  rw [walk, if_neg h]
  rfl

/-- The walk consumes each bucket at its own period. The buckets still to come are never behind
the walk, and they lie on its grid, so none of them is passed by. -/
theorem walk_eq_series {n : Nat} {openTime : Int} {bs : List Bucket} (last : Carried)
    (hpair : bs.Pairwise fun a b => a.openTime < b.openTime)
    (haligned : ∀ b ∈ bs, tf.millis ∣ b.openTime) (ht : tf.millis ∣ openTime)
    (hahead : ∀ b ∈ bs, openTime ≤ b.openTime) :
    walk tf n openTime bs last = series tf (bucketAt bs) (tf.starts openTime n) last := by
  induction n generalizing openTime bs last with
  | zero => rfl
  | succ n ih =>
    have hnext : tf.millis ∣ openTime + tf.millis := Int.dvd_add ht (Int.dvd_refl _)
    rw [Timeframe.starts_succ, series_cons]
    cases bs with
    | nil =>
      rw [walk_nil, ih _ List.Pairwise.nil (by simp) hnext (by simp)]
      rfl
    | cons b rest =>
      obtain ⟨hlt,hpair'⟩ := List.pairwise_cons.mp hpair
      have hb := haligned b List.mem_cons_self
      have hrest : ∀ b' ∈ rest, tf.millis ∣ b'.openTime :=
        fun b' hb' => haligned b' (List.mem_cons_of_mem _ hb')
      by_cases hopen : b.openTime = openTime
      · rw [walk_cons_of_eq hopen, bucketAt_cons_self hopen, ih _ hpair' hrest hnext]
        · -- the consumed bucket is not looked up again: the walk has moved past it
          congr 1
          apply series_congr
          intro g hg
          have hm := tf.millis_pos
          have hge := Timeframe.le_of_mem_starts hg
          rw [bucketAt_cons_of_ne (by omega)]
        · intro b' hb'
          have := Timeframe.add_millis_le hb (hrest b' hb') (hlt b' hb')
          omega
      · have hb' := hahead b List.mem_cons_self
        have hstep := Timeframe.add_millis_le ht hb (by omega)
        have hlater : ∀ b' ∈ b :: rest, openTime + tf.millis ≤ b'.openTime := by
          intro b' hb'
          rcases List.mem_cons.mp hb' with rfl | hb'
          · exact hstep
          · have := hlt b' hb'
            omega
        have hnone : bucketAt (b :: rest) openTime = none := by
          apply bucketAt_eq_none
          intro b' hb'
          have := hlater b' hb'
          have := tf.millis_pos
          omega
        rw [walk_cons_of_ne hopen, hnone, ih _ hpair haligned hnext hlater]

end OrderFlow.Resample
