import OrderFlow.Market.Resample
import OrderFlow.Proofs.Keyed
import OrderFlow.Proofs.Market.Buckets

/-! The one pass over the trades in order of time. It gathers for each period the bucket of exactly
its trades, and the buckets come in order of their periods. -/
namespace OrderFlow.Resample
open Keyed
variable {tf : Timeframe} {unit : TimeUnit} {trades : List Trade} {timed : List Timed}

def periodOf (tf : Timeframe) (unit : TimeUnit) (t : Trade) : Int :=
  tf.periodStart (unit.toMillis t.time)

/-- The trades of a period, in order of time; trades of one time keep their order. -/
def tradesOf (tf : Timeframe) (unit : TimeUnit) (trades : List Trade) (openTime : Int) :
    List Trade :=
  (trades.filter fun t => periodOf tf unit t = openTime).mergeSort
    fun a b => unit.toMillis a.time ≤ unit.toMillis b.time

/-- The trades of a period among trades that are already in order. -/
def tradesIn (tf : Timeframe) (timed : List Timed) (openTime : Int) : List Trade :=
  (fibre (fun p => tf.periodStart p.1) openTime timed).map Prod.snd

theorem ordered_eq (unit : TimeUnit) (trades : List Trade) :
    ordered unit trades =
      (sortBy (fun t => unit.toMillis t.time) trades).map fun t => (unit.toMillis t.time,t) :=
  sortBy_map Prod.fst _ trades

/-- Trades that are in order of time already stay as they come. -/
theorem ordered_of_pairwise
    (hord : trades.Pairwise fun a b => unit.toMillis a.time ≤ unit.toMillis b.time) :
    ordered unit trades = trades.map fun t => (unit.toMillis t.time,t) := by
  apply List.mergeSort_of_pairwise
  rw [List.pairwise_map]
  simpa using hord

theorem tradesIn_ordered (tf : Timeframe) (unit : TimeUnit) (trades : List Trade) (openTime : Int) :
    tradesIn tf (ordered unit trades) openTime = tradesOf tf unit trades openTime := by
  rw [ordered_eq, tradesIn, fibre, List.filter_map, List.map_map]
  have hid : (Prod.snd ∘ fun t : Trade => (unit.toMillis t.time,t)) = id := rfl
  rw [hid, List.map_id]
  exact (sortBy_filter (fun t => decide (periodOf tf unit t = openTime)) trades).symm

lemma tradesIn_cons_self (time : Int) (t : Trade) (timed : List Timed) :
    tradesIn tf ((time,t) :: timed) (tf.periodStart time) =
      t :: tradesIn tf timed (tf.periodStart time) := by
  simp [tradesIn, fibre]

lemma tradesIn_cons_of_ne {time openTime : Int} (h : tf.periodStart time ≠ openTime) (t : Trade)
    (timed : List Timed) :
    tradesIn tf ((time,t) :: timed) openTime = tradesIn tf timed openTime := by
  simp [tradesIn, fibre, h]

lemma tradesIn_eq_nil {openTime : Int} (h : ∀ p ∈ timed, tf.periodStart p.1 ≠ openTime) :
    tradesIn tf timed openTime = [] := by
  rw [tradesIn, fibre_eq_nil_iff.mpr h, List.map_nil]

/-- The bucket of a period. -/
def bucketAt (bs : List Bucket) (openTime : Int) : Option Bucket :=
  bs.find? fun b => b.openTime = openTime

lemma bucketAt_eq_none {bs : List Bucket} {openTime : Int} (h : ∀ b ∈ bs, openTime < b.openTime) :
    bucketAt bs openTime = none := by
  rw [bucketAt, List.find?_eq_none]
  intro b hb
  have := h b hb
  simp only [decide_eq_true_eq]
  omega

lemma bucketAt_cons_self {b : Bucket} {openTime : Int} (h : b.openTime = openTime)
    (rest : List Bucket) : bucketAt (b :: rest) openTime = some b :=
  List.find?_cons_of_pos (by simpa using h)

lemma bucketAt_cons_of_ne {b : Bucket} {openTime : Int} (h : b.openTime ≠ openTime)
    (rest : List Bucket) : bucketAt (b :: rest) openTime = bucketAt rest openTime :=
  List.find?_cons_of_neg (by simpa using h)

/-- The current bucket goes on to take the trades of its own period; the trades of every other
period make a bucket of their own. -/
theorem bucketAt_gather {current : Bucket}
    (hord : InOrder (fun p => tf.periodStart p.1) timed)
    (hcur : ∀ p ∈ timed, current.openTime ≤ tf.periodStart p.1) (openTime : Int) :
    bucketAt (gather tf current timed) openTime =
      if current.openTime = openTime then
        some ((tradesIn tf timed openTime).foldl Bucket.accept current)
      else Bucket.ofTrades? openTime (tradesIn tf timed openTime) := by
  induction timed generalizing current with
  | nil =>
    by_cases h : current.openTime = openTime <;>
      simp [gather, bucketAt, tradesIn, Bucket.ofTrades?, h]
  | cons p rest ih =>
    obtain ⟨time,t⟩ := p
    have hrest : ∀ p ∈ rest, tf.periodStart time ≤ tf.periodStart p.1 :=
      (List.pairwise_cons.mp hord).1
    have hle : current.openTime ≤ tf.periodStart time := hcur (time,t) List.mem_cons_self
    rw [gather]
    by_cases hs : current.openTime = tf.periodStart time
    · have hopen : (current.accept t).openTime = tf.periodStart time := by
        rw [Bucket.accept_openTime, hs]
      rw [if_pos hs, ih hord.of_cons (by rwa [hopen]), hopen, hs]
      by_cases hg : tf.periodStart time = openTime
      · subst hg
        rw [if_pos rfl, if_pos rfl, tradesIn_cons_self, List.foldl_cons]
      · rw [if_neg hg, if_neg hg, tradesIn_cons_of_ne hg]
    · rw [if_neg hs]
      by_cases hc : current.openTime = openTime
      · -- the trades are past the current bucket, so it is complete
        have hnone : tradesIn tf ((time,t) :: rest) openTime = [] := by
          apply tradesIn_eq_nil
          intro q hq
          have := hord.head_le hq
          simp only at this
          omega
        rw [bucketAt_cons_self hc, if_pos hc, hnone, List.foldl_nil]
      · rw [bucketAt_cons_of_ne hc, if_neg hc,
          ih hord.of_cons (by rwa [Bucket.start_openTime]), Bucket.start_openTime]
        by_cases hg : tf.periodStart time = openTime
        · subst hg
          rw [if_pos rfl, tradesIn_cons_self, Bucket.ofTrades?]
        · rw [if_neg hg, tradesIn_cons_of_ne hg]

theorem bucketAt_buckets (hord : InOrder (fun p => tf.periodStart p.1) timed) (openTime : Int) :
    bucketAt (buckets tf timed) openTime =
      Bucket.ofTrades? openTime (tradesIn tf timed openTime) := by
  cases timed with
  | nil => rfl
  | cons p rest =>
    obtain ⟨time,t⟩ := p
    have hcur : ∀ p ∈ rest,
        (Bucket.start (tf.periodStart time) t).openTime ≤ tf.periodStart p.1 := by
      rw [Bucket.start_openTime]
      exact (List.pairwise_cons.mp hord).1
    rw [buckets, bucketAt_gather hord.of_cons hcur, Bucket.start_openTime]
    by_cases hg : tf.periodStart time = openTime
    · subst hg
      rw [if_pos rfl, tradesIn_cons_self, Bucket.ofTrades?]
    · rw [if_neg hg, tradesIn_cons_of_ne hg]

theorem mem_gather_openTime {current b : Bucket} (hb : b ∈ gather tf current timed) :
    b.openTime = current.openTime ∨ ∃ p ∈ timed, b.openTime = tf.periodStart p.1 := by
  induction timed generalizing current with
  | nil =>
    left
    rw [List.mem_singleton.mp hb]
  | cons p rest ih =>
    obtain ⟨time,t⟩ := p
    rw [gather] at hb
    by_cases hs : current.openTime = tf.periodStart time
    · rw [if_pos hs] at hb
      rcases ih hb with h | ⟨p,hp,h⟩
      · left
        rw [h, Bucket.accept_openTime]
      · right
        exact ⟨p,List.mem_cons_of_mem _ hp,h⟩
    · rw [if_neg hs] at hb
      rcases List.mem_cons.mp hb with rfl | hb
      · left
        rfl
      · right
        rcases ih hb with h | ⟨p,hp,h⟩
        · exact ⟨(time,t),List.mem_cons_self,by rw [h, Bucket.start_openTime]⟩
        · exact ⟨p,List.mem_cons_of_mem _ hp,h⟩

/-- Buckets come in order of their periods, and no period has two. -/
theorem gather_pairwise {current : Bucket} (hord : InOrder (fun p => tf.periodStart p.1) timed)
    (hcur : ∀ p ∈ timed, current.openTime ≤ tf.periodStart p.1) :
    (gather tf current timed).Pairwise fun a b => a.openTime < b.openTime := by
  induction timed generalizing current with
  | nil => exact List.pairwise_singleton ..
  | cons p rest ih =>
    obtain ⟨time,t⟩ := p
    have hrest : ∀ p ∈ rest, tf.periodStart time ≤ tf.periodStart p.1 :=
      (List.pairwise_cons.mp hord).1
    have hle : current.openTime ≤ tf.periodStart time := hcur (time,t) List.mem_cons_self
    rw [gather]
    by_cases hs : current.openTime = tf.periodStart time
    · rw [if_pos hs]
      apply ih hord.of_cons
      rwa [Bucket.accept_openTime, hs]
    · rw [if_neg hs]
      refine List.pairwise_cons.mpr ⟨?_,ih hord.of_cons (by rwa [Bucket.start_openTime])⟩
      intro b hb
      rcases mem_gather_openTime hb with h | ⟨p,hp,h⟩
      · rw [h, Bucket.start_openTime]
        omega
      · have := hrest p hp
        omega

lemma head?_gather (current : Bucket) (timed : List Timed) :
    ((gather tf current timed).head?.map Bucket.openTime) = some current.openTime := by
  induction timed generalizing current with
  | nil => rfl
  | cons p rest ih =>
    obtain ⟨time,t⟩ := p
    rw [gather]
    by_cases hs : current.openTime = tf.periodStart time
    · rw [if_pos hs, ih, Bucket.accept_openTime]
    · rw [if_neg hs]
      rfl

lemma getLast?_gather (current : Bucket) (timed : List Timed) :
    ((gather tf current timed).getLast?.map Bucket.openTime) =
      some ((timed.getLast?.map fun p => tf.periodStart p.1).getD current.openTime) := by
  induction timed generalizing current with
  | nil => rfl
  | cons p rest ih =>
    obtain ⟨time,t⟩ := p
    rw [gather, List.getLast?_cons]
    by_cases hs : current.openTime = tf.periodStart time
    · rw [if_pos hs, ih, Bucket.accept_openTime, hs]
      cases rest.getLast? <;> rfl
    · have hl := ih (.start (tf.periodStart time) t)
      rw [if_neg hs, List.getLast?_cons]
      cases hlast : (gather tf (.start (tf.periodStart time) t) rest).getLast? with
      | none =>
        rw [hlast] at hl
        cases hl
      | some b =>
        rw [hlast, Option.map_some, Bucket.start_openTime] at hl
        rw [Option.getD_some, Option.map_some, hl]
        cases rest.getLast? <;> rfl

lemma mem_buckets_openTime {b : Bucket} (hb : b ∈ buckets tf timed) :
    ∃ p ∈ timed, b.openTime = tf.periodStart p.1 := by
  cases timed with
  | nil => cases hb
  | cons p rest =>
    obtain ⟨time,t⟩ := p
    rcases mem_gather_openTime hb with h | ⟨p,hp,h⟩
    · exact ⟨(time,t),List.mem_cons_self,by rw [h, Bucket.start_openTime]⟩
    · exact ⟨p,List.mem_cons_of_mem _ hp,h⟩

lemma buckets_pairwise (hord : InOrder (fun p => tf.periodStart p.1) timed) :
    (buckets tf timed).Pairwise fun a b => a.openTime < b.openTime := by
  cases timed with
  | nil => exact List.Pairwise.nil
  | cons p rest =>
    obtain ⟨time,t⟩ := p
    apply gather_pairwise hord.of_cons
    rw [Bucket.start_openTime]
    exact (List.pairwise_cons.mp hord).1

lemma head?_buckets (tf : Timeframe) (timed : List Timed) :
    (buckets tf timed).head?.map Bucket.openTime =
      timed.head?.map fun p => tf.periodStart p.1 := by
  cases timed with
  | nil => rfl
  | cons p rest =>
    obtain ⟨time,t⟩ := p
    rw [buckets, head?_gather, Bucket.start_openTime]
    rfl

lemma getLast?_buckets (tf : Timeframe) (timed : List Timed) :
    (buckets tf timed).getLast?.map Bucket.openTime =
      timed.getLast?.map fun p => tf.periodStart p.1 := by
  cases timed with
  | nil => rfl
  | cons p rest =>
    obtain ⟨time,t⟩ := p
    rw [buckets, getLast?_gather, Bucket.start_openTime, List.getLast?_cons]
    cases rest.getLast? <;> rfl

end OrderFlow.Resample
