import OrderFlow.Proofs.Market.Periods

/-! The offers of a run: every attempt to count a trade while the trades are gathered, with the
bucket as it then was. Period by period these are the offers that make the bucket of the period. -/
namespace OrderFlow.Resample
open Keyed
variable {tf : Timeframe} {unit : TimeUnit} {trades : List Trade} {timed : List Timed}

lemma sum_map_flatMap {α β M : Type*} [AddCommMonoid M] (weight : β → M) (parts : α → List β)
    (xs : List α) : ((xs.flatMap parts).map weight).sum =
      (xs.map fun x => ((parts x).map weight).sum).sum := by
  rw [List.map_flatMap, List.flatMap_def, List.sum_flatten, List.map_map]
  rfl

/-- The offers made while trades are gathered, to the current bucket or to one just opened. -/
def offersFrom (tf : Timeframe) (current : Bucket) : List Timed → List Offer
  | [] => []
  | (time, t) :: rest =>
    let start := tf.periodStart time
    let bucket := if current.openTime = start then current else .fresh start t.price
    ⟨bucket,t⟩ :: offersFrom tf (bucket.accept t) rest

def offersIn (tf : Timeframe) : List Timed → List Offer
  | [] => []
  | (time, t) :: rest =>
    let bucket := Bucket.fresh (tf.periodStart time) t.price
    ⟨bucket,t⟩ :: offersFrom tf (bucket.accept t) rest

/-- The offers made while candles are built; none where the unit of the times is unknown. -/
def offers (tf : Timeframe) (trades : List Trade) : List Offer :=
  match TimeUnit.detect (trades.map (·.time)) with
  | .ok unit => offersIn tf (ordered unit trades)
  | .error _ => []

/-- Trades that are in order of time already are offered as they come. -/
theorem offers_of_pairwise (tf : Timeframe)
    (hunit : TimeUnit.detect (trades.map (·.time)) = .ok unit)
    (hord : trades.Pairwise fun a b => unit.toMillis a.time ≤ unit.toMillis b.time) :
    offers tf trades = offersIn tf (trades.map fun t => (unit.toMillis t.time,t)) := by
  rw [offers, hunit, ← ordered_of_pairwise hord]

def offerPeriod (o : Offer) : Int := o.bucket.openTime

theorem map_trade_offersFrom (current : Bucket) (timed : List Timed) :
    (offersFrom tf current timed).map Offer.trade = timed.map Prod.snd := by
  induction timed generalizing current with
  | nil => rfl
  | cons p rest ih => rw [offersFrom, List.map_cons, List.map_cons, ih]

/-- Each trade is offered once, in order of time. -/
theorem map_trade_offersIn (tf : Timeframe) (timed : List Timed) :
    (offersIn tf timed).map Offer.trade = timed.map Prod.snd := by
  cases timed with
  | nil => rfl
  | cons p rest => rw [offersIn, List.map_cons, List.map_cons, map_trade_offersFrom]

theorem map_offerPeriod_offersFrom (current : Bucket) (timed : List Timed) :
    (offersFrom tf current timed).map offerPeriod = timed.map fun p => tf.periodStart p.1 := by
  induction timed generalizing current with
  | nil => rfl
  | cons p rest ih =>
    rw [offersFrom, List.map_cons, List.map_cons, ih]
    congr 1
    by_cases hs : current.openTime = tf.periodStart p.1
    · rw [if_pos hs]
      exact hs
    · rw [if_neg hs]
      rfl

theorem map_offerPeriod_offersIn (tf : Timeframe) (timed : List Timed) :
    (offersIn tf timed).map offerPeriod = timed.map fun p => tf.periodStart p.1 := by
  cases timed with
  | nil => rfl
  | cons p rest =>
    rw [offersIn, List.map_cons, List.map_cons, map_offerPeriod_offersFrom]
    rfl

/-- What one period is offered when the next trade goes to a bucket of its own period, given what
the period is offered from then on. -/
lemma fibre_offer_cons {b : Bucket} {time : Int} (hb : b.openTime = tf.periodStart time) (t : Trade)
    {openTime : Int} (hrest : fibre offerPeriod openTime (offersFrom tf (b.accept t) timed) =
      if (b.accept t).openTime = openTime then (b.accept t).offers (tradesIn tf timed openTime)
      else Bucket.offersOf openTime (tradesIn tf timed openTime)) :
    fibre offerPeriod openTime (⟨b,t⟩ :: offersFrom tf (b.accept t) timed) =
      if b.openTime = openTime then b.offers (tradesIn tf ((time,t) :: timed) openTime)
      else Bucket.offersOf openTime (tradesIn tf ((time,t) :: timed) openTime) := by
  rw [Bucket.accept_openTime] at hrest
  by_cases hg : b.openTime = openTime
  · rw [if_pos hg] at hrest ⊢
    subst hg
    rw [hb, tradesIn_cons_self, ← hb, Bucket.offers, ← hrest]
    exact fibre_cons_self ..
  · have hne : offerPeriod ⟨b,t⟩ ≠ openTime := hg
    rw [if_neg hg] at hrest ⊢
    rw [fibre_cons_of_ne hne, hrest, tradesIn_cons_of_ne (hb ▸ hg)]

/-- The trade that opens a bucket is also offered to it, so the bucket is offered all trades of
its period. -/
lemma offers_fresh (time : Int) (t : Trade) (timed : List Timed) (openTime : Int) :
    (if tf.periodStart time = openTime then
      (Bucket.fresh (tf.periodStart time) t.price).offers (tradesIn tf ((time,t) :: timed) openTime)
    else Bucket.offersOf openTime (tradesIn tf ((time,t) :: timed) openTime)) =
      Bucket.offersOf openTime (tradesIn tf ((time,t) :: timed) openTime) := by
  by_cases hg : tf.periodStart time = openTime
  · subst hg
    rw [if_pos rfl, tradesIn_cons_self, Bucket.offersOf]
  · rw [if_neg hg]

/-- The current bucket is offered the trades of its own period; the trades of every other period
are offered to a bucket of their own. -/
theorem fibre_offersFrom (current : Bucket) (hord : InOrder (fun p => tf.periodStart p.1) timed)
    (hcur : ∀ p ∈ timed, current.openTime ≤ tf.periodStart p.1) (openTime : Int) :
    fibre offerPeriod openTime (offersFrom tf current timed) =
      if current.openTime = openTime then current.offers (tradesIn tf timed openTime)
      else Bucket.offersOf openTime (tradesIn tf timed openTime) := by
  induction timed generalizing current with
  | nil =>
    by_cases h : current.openTime = openTime <;>
      simp [offersFrom, tradesIn, Bucket.offers, Bucket.offersOf, h]
  | cons p rest ih =>
    obtain ⟨time,t⟩ := p
    have hrest : ∀ p ∈ rest, tf.periodStart time ≤ tf.periodStart p.1 :=
      (List.pairwise_cons.mp hord).1
    rw [offersFrom]
    by_cases hs : current.openTime = tf.periodStart time
    · rw [if_pos hs]
      apply fibre_offer_cons hs
      apply ih _ hord.of_cons
      rwa [Bucket.accept_openTime, hs]
    · have hfresh := fibre_offer_cons (b := .fresh (tf.periodStart time) t.price) rfl t
        (ih _ hord.of_cons (by rwa [Bucket.accept_openTime]))
      rw [if_neg hs]
      refine hfresh.trans ((offers_fresh time t rest openTime).trans ?_)
      by_cases hc : current.openTime = openTime
      · -- the trades are past the current bucket, so its period is over
        have hnone : tradesIn tf ((time,t) :: rest) openTime = [] := by
          apply tradesIn_eq_nil
          intro q hq
          have hle := hord.head_le hq
          have hlt := hcur (time,t) List.mem_cons_self
          simp only at hle hlt
          omega
        rw [if_pos hc, hnone, Bucket.offersOf, Bucket.offers]
      · rw [if_neg hc]

theorem fibre_offersIn (hord : InOrder (fun p => tf.periodStart p.1) timed) (openTime : Int) :
    fibre offerPeriod openTime (offersIn tf timed) =
      Bucket.offersOf openTime (tradesIn tf timed openTime) := by
  cases timed with
  | nil => rfl
  | cons p rest =>
    obtain ⟨time,t⟩ := p
    have hrest := fibre_offersFrom ((Bucket.fresh (tf.periodStart time) t.price).accept t)
      hord.of_cons (by rw [Bucket.accept_openTime]; exact (List.pairwise_cons.mp hord).1) openTime
    rw [offersIn]
    exact (fibre_offer_cons rfl t hrest).trans (offers_fresh time t rest openTime)

/-- The offers of a run are those of its periods, one period after the other. -/
theorem offers_eq (hunit : TimeUnit.detect (trades.map (·.time)) = .ok unit) :
    offers tf trades = (grid tf unit trades).flatMap fun g =>
      Bucket.offersOf g (tradesOf tf unit trades g) := by
  have hord := inOrder_ordered tf unit trades
  have hperiods := map_offerPeriod_offersIn tf (ordered unit trades)
  have hoffers : InOrder offerPeriod (offersIn tf (ordered unit trades)) := by
    rw [InOrder, ← List.pairwise_map, hperiods, List.pairwise_map]
    exact hord
  have hcover : ∀ o ∈ offersIn tf (ordered unit trades), offerPeriod o ∈ grid tf unit trades := by
    intro o ho
    have hmem : offerPeriod o ∈ (offersIn tf (ordered unit trades)).map offerPeriod :=
      List.mem_map.mpr ⟨o,ho,rfl⟩
    rw [hperiods] at hmem
    obtain ⟨p,hp,hpo⟩ := List.mem_map.mp hmem
    obtain ⟨t,ht,rfl⟩ := mem_ordered.mp hp
    rw [← hpo]
    exact periodOf_mem_grid ht
  rw [offers, hunit]
  simp only
  rw [← flatMap_fibre hoffers (grid_pairwise tf unit trades) hcover]
  apply List.flatMap_congr
  intro g _
  rw [fibre_offersIn hord, tradesIn_ordered]

lemma mem_offers_of_mem_grid (hunit : TimeUnit.detect (trades.map (·.time)) = .ok unit) {g : Int}
    (hg : g ∈ grid tf unit trades) {o : Offer}
    (ho : o ∈ Bucket.offersOf g (tradesOf tf unit trades g)) : o ∈ offers tf trades := by
  rw [offers_eq hunit]
  exact List.mem_flatMap.mpr ⟨g,hg,ho⟩

end OrderFlow.Resample
