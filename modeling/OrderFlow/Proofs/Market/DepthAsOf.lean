import Mathlib.Data.List.Forall2
import OrderFlow.Market.DepthMerge
import OrderFlow.Proofs.Market.Alignment

/-! Depth as of a period. The merge carries the last depth it found; over candles without gaps this
is the first record of the latest period with any, from the first candle's period to the candle's
own. -/
namespace OrderFlow

namespace Candle
variable {c c' : Candle}

def withDepth (c : Candle) (d : Depth) : Candle := { c with depth := d }

def withoutDepth (c : Candle) : Candle := c.withDepth .absent

lemma withDepth_congr (h : c.withoutDepth = c'.withoutDepth) (d : Depth) :
    c.withDepth d = c'.withDepth d := by
  have hd : c.withoutDepth.withDepth d = c'.withoutDepth.withDepth d := by rw [h]
  exact hd

lemma openTime_congr (h : c.withoutDepth = c'.withoutDepth) : c.openTime = c'.openTime := by
  have ho : c.withoutDepth.openTime = c'.withoutDepth.openTime := by rw [h]
  exact ho

end Candle

namespace DepthMerge
variable {tf : Timeframe} {records : List DepthRecord} {first openTime : Int}

def periodOf (tf : Timeframe) (r : DepthRecord) : Int := tf.periodStart r.time

/-- What is known of the book in a period, if nothing before a first period counts. -/
inductive AsOf (tf : Timeframe) (records : List DepthRecord) (first openTime : Int) :
    Option Depth → Prop
  /-- No period up to this one has a record. -/
  | unseen (h : ∀ r ∈ records, first ≤ periodOf tf r → openTime < periodOf tf r) :
    AsOf tf records first openTime none
  /-- The first record of a period, after which no period up to this one has any. -/
  | seen {earlier later : List DepthRecord} {r : DepthRecord}
    (h : records = earlier ++ r :: later) (hearlier : ∀ q ∈ earlier, periodOf tf q ≠ periodOf tf r)
    (hfirst : first ≤ periodOf tf r) (hle : periodOf tf r ≤ openTime)
    (hlatest : ∀ q ∈ records, periodOf tf q ≤ openTime → periodOf tf q ≤ periodOf tf r) :
    AsOf tf records first openTime (some r.depth)

lemma firstOf_eq (tf : Timeframe) (records : List DepthRecord) (openTime : Int) :
    firstOf tf records openTime =
      (records.find? fun r => periodOf tf r = openTime).map DepthRecord.depth := rfl

lemma firstOf_eq_some {d : Depth} (h : firstOf tf records openTime = some d) :
    ∃ earlier r later, records = earlier ++ r :: later ∧ periodOf tf r = openTime ∧ r.depth = d ∧
      ∀ q ∈ earlier, periodOf tf q ≠ openTime := by
  rw [firstOf_eq] at h
  obtain ⟨r,hr,rfl⟩ := Option.map_eq_some_iff.mp h
  obtain ⟨hopen,earlier,later,hrecords,hearlier⟩ := List.find?_eq_some_iff_append.mp hr
  refine ⟨earlier,r,later,hrecords,of_decide_eq_true hopen,rfl,?_⟩
  intro q hq
  simpa using hearlier q hq

lemma firstOf_eq_none (h : firstOf tf records openTime = none) :
    ∀ r ∈ records, periodOf tf r ≠ openTime := by
  rw [firstOf_eq, Option.map_eq_none_iff, List.find?_eq_none] at h
  intro r hr
  simpa using h r hr

/-- One period on: its own first record, or else what was known before. -/
theorem AsOf.step {last : Option Depth} (hopen : tf.millis ∣ openTime) (hfirst : first ≤ openTime)
    (h : AsOf tf records first (openTime - tf.millis) last) :
    AsOf tf records first openTime ((firstOf tf records openTime).or last) := by
  have hpos := tf.millis_pos
  cases hd : firstOf tf records openTime with
  | some d =>
    obtain ⟨earlier,r,later,hrecords,rfl,rfl,hearlier⟩ := firstOf_eq_some hd
    exact .seen hrecords hearlier hfirst (le_refl _) fun q _ hq => hq
  | none =>
    -- without a record in between, up to here means up to the period before
    have hbefore : ∀ r ∈ records, periodOf tf r ≤ openTime →
        periodOf tf r ≤ openTime - tf.millis := by
      intro r hr hle
      have := Timeframe.add_millis_le (tf.dvd_periodStart r.time) hopen
        (lt_of_le_of_ne hle (firstOf_eq_none hd r hr))
      simp only [periodOf]
      omega
    rw [Option.none_or]
    cases h with
    | unseen h =>
      apply AsOf.unseen
      intro r hr hge
      by_contra hle
      have := h r hr hge
      have := hbefore r hr (not_lt.mp hle)
      omega
    | seen hrecords hearlier hge hle hlatest =>
      apply AsOf.seen hrecords hearlier hge (by omega)
      intro q hq hqle
      exact hlatest q hq (hbefore q hq hqle)

/-- A candle keeps everything but its depth, which becomes the one known in its period. -/
def Attaches (tf : Timeframe) (records : List DepthRecord) (first : Int) (c c' : Candle) : Prop :=
  ∃ d, AsOf tf records first c.openTime d ∧ c' = c.withDepth (d.getD .absent)

lemma attach_cons (last : Option Depth) (c : Candle) (rest : List Candle) :
    attach tf records last (c :: rest) =
      c.withDepth (((firstOf tf records c.openTime).or last).getD .absent) ::
        attach tf records ((firstOf tf records c.openTime).or last) rest := rfl

/-- A run over consecutive periods knows, after each of them, what was recorded up to there. -/
theorem attach_asOf {candles : List Candle} {start : Int} {last : Option Depth}
    (hstart : tf.millis ∣ start) (hfirst : first ≤ start)
    (hgrid : candles.map Candle.openTime = tf.starts start candles.length)
    (h : AsOf tf records first (start - tf.millis) last) :
    List.Forall₂ (Attaches tf records first) candles (attach tf records last candles) := by
  induction candles generalizing start last with
  | nil => exact .nil
  | cons c rest ih =>
    rw [List.map_cons, List.length_cons, Timeframe.starts_succ] at hgrid
    obtain ⟨hc,hrest⟩ := List.cons.inj hgrid
    subst hc
    have hnext := h.step hstart hfirst
    have hpos := tf.millis_pos
    refine .cons ⟨_,hnext,rfl⟩ (ih (Int.dvd_add hstart (Int.dvd_refl _)) (by omega) hrest ?_)
    rwa [Int.add_sub_cancel]

/-- The depth that candles had before makes no difference, and records only make one through the
first of each period that has a candle. -/
theorem attach_congr {records' : List DepthRecord} {candles others : List Candle}
    (last : Option Depth) (h : others.map Candle.withoutDepth = candles.map Candle.withoutDepth)
    (hrecords : ∀ c ∈ candles, firstOf tf records' c.openTime = firstOf tf records c.openTime) :
    attach tf records' last others = attach tf records last candles := by
  induction candles generalizing others last with
  | nil => rw [List.map_eq_nil_iff.mp h]; rfl
  | cons c rest ih =>
    cases others with
    | nil => cases h
    | cons o others =>
      obtain ⟨ho,hrest⟩ := List.cons.inj h
      have hc := hrecords c List.mem_cons_self
      rw [attach_cons, attach_cons, Candle.openTime_congr ho, Candle.withDepth_congr ho, hc,
        ih _ hrest fun d hd => hrecords d (List.mem_cons_of_mem _ hd)]

theorem map_withoutDepth_attach (tf : Timeframe) (records : List DepthRecord) (last : Option Depth)
    (candles : List Candle) :
    (attach tf records last candles).map Candle.withoutDepth =
      candles.map Candle.withoutDepth := by
  induction candles generalizing last with
  | nil => rfl
  | cons c rest ih =>
    rw [attach_cons, List.map_cons, List.map_cons, ih]
    rfl

theorem map_openTime_attach (tf : Timeframe) (records : List DepthRecord) (last : Option Depth)
    (candles : List Candle) :
    (attach tf records last candles).map Candle.openTime = candles.map Candle.openTime := by
  have h := congrArg (List.map Candle.openTime) (map_withoutDepth_attach tf records last candles)
  rw [List.map_map, List.map_map] at h
  exact h

/-- Records in the periods of `n` candles, the first of which opens at `first`. -/
def within (tf : Timeframe) (first : Int) (n : Nat) (records : List DepthRecord) :
    List DepthRecord :=
  records.filter fun r => first ≤ periodOf tf r ∧ periodOf tf r < first + n * tf.millis

@[simp] theorem within_within (tf : Timeframe) (first : Int) (n : Nat)
    (records : List DepthRecord) :
    within tf first n (within tf first n records) = within tf first n records := by
  simp [within]

lemma firstOf_within {n : Nat} (h : openTime ∈ tf.starts first n) :
    firstOf tf (within tf first n records) openTime = firstOf tf records openTime := by
  obtain ⟨i,hi,rfl⟩ := List.mem_map.mp h
  have hge := Int.mul_nonneg (Int.natCast_nonneg i) tf.millis_pos.le
  have hlt := Int.mul_lt_mul_of_pos_right (Int.ofNat_lt.mpr (List.mem_range.mp hi)) tf.millis_pos
  rw [firstOf_eq, firstOf_eq, within, List.find?_filter]
  congr 2
  funext r
  by_cases hr : periodOf tf r = first + i * tf.millis
  · simp [hr, hge, hlt]
  · simp [hr]

lemma merge?_eq (candles : List Candle)
    (hfloor : ∀ r ∈ records, isSigned (tf.periodStart r.time) = true) :
    merge? tf records candles = some (attach tf records none candles) := by
  rw [merge?, if_pos]
  · rfl
  · rw [List.all_eq_true.mpr hfloor, Bool.or_true]

/-- Merged into candles without gaps, depth is known as of each period. What the candles showed
before does not matter, and neither do records outside their periods. -/
theorem merge?_asOf {candles : List Candle} (hfirst : tf.millis ∣ first)
    (hgrid : candles.map Candle.openTime = tf.starts first candles.length)
    (hfloor : ∀ r ∈ records, isSigned (tf.periodStart r.time) = true) :
    ∃ merged, merge? tf records candles = some merged ∧
      List.Forall₂ (Attaches tf records first) candles merged ∧
      (∀ others : List Candle,
        others.map Candle.withoutDepth = candles.map Candle.withoutDepth →
        merge? tf records others = some merged) ∧
      ∀ records', (∀ r ∈ records', isSigned (tf.periodStart r.time) = true) →
        within tf first candles.length records' = within tf first candles.length records →
        merge? tf records' candles = some merged := by
  refine ⟨_,merge?_eq candles hfloor,?_,?_,?_⟩
  · -- before the first candle nothing counts, so nothing is known
    apply attach_asOf hfirst (le_refl _) hgrid
    apply AsOf.unseen
    intro r _ hge
    have := tf.millis_pos
    omega
  · intro others hothers
    rw [merge?_eq others hfloor, attach_congr none hothers fun _ _ => rfl]
  · intro records' hfloor' hwithin
    rw [merge?_eq candles hfloor', attach_congr none rfl]
    intro c hc
    have hopen : c.openTime ∈ tf.starts first candles.length := by
      rw [← hgrid]
      exact List.mem_map_of_mem hc
    rw [← firstOf_within hopen, hwithin, firstOf_within hopen]

/-- A record past three minutes, two of the second of them, and one before the first. -/
def strayRecords : List DepthRecord :=
  [⟨1704067380000,⟨9.0,9.0,0.0,0.5,10.0⟩⟩, ⟨1704067275000,⟨5.0,4.0,0.1,0.5,10.0⟩⟩,
   ⟨1704067199999,⟨7.0,7.0,0.0,0.5,10.0⟩⟩, ⟨1704067261000,⟨6.0,4.0,0.2,0.5,10.0⟩⟩]

theorem merge?_asOf_stray : ∃ candles merged,
    candles.map Candle.openTime = Timeframe.oneMinute.starts 1704067200000 3 ∧
    merge? .oneMinute strayRecords candles = some merged ∧
    List.Forall₂ (Attaches .oneMinute strayRecords 1704067200000) candles merged ∧
    merge? .oneMinute (within .oneMinute 1704067200000 3 strayRecords) candles = some merged := by
  let candles := (Timeframe.oneMinute.starts 1704067200000 3).map fun g =>
    Candle.flat g .oneMinute .zero .zero
  have hgrid : candles.map Candle.openTime =
      Timeframe.oneMinute.starts 1704067200000 candles.length := by rfl
  have hfloor : ∀ r ∈ strayRecords, isSigned (Timeframe.oneMinute.periodStart r.time) = true := by
    decide
  obtain ⟨merged,hmerged,hasOf,-,hwithin⟩ := merge?_asOf (by decide) hgrid hfloor
  refine ⟨candles,merged,hgrid,hmerged,hasOf,hwithin _ ?_ ?_⟩
  · exact fun r hr => hfloor r (List.mem_filter.mp hr).1
  · exact within_within ..

end DepthMerge
end OrderFlow
