import Mathlib.Tactic.SplitIfs
import OrderFlow.Proofs.Feature.FutureRange

/-! The table of excursions at every horizon. Each entry has the extremes of its own window, taken
from scratch, so a shorter horizon is the beginning of a longer one, and an entry sees no candle
past its horizon. -/
namespace OrderFlow.FutureRange
variable {n m i : Nat} {c : Candle} {candles candles' ahead ahead' : List Candle}

/-- The excursions up to a horizon. -/
def upTo (n : Nat) (r : FutureRange) : FutureRange := ⟨r.up.take n,r.down.take n⟩

lemma upTo_ofCandle (h : n ≤ m) (c : Candle) (ahead : List Candle) :
    upTo n (ofCandle m c ahead) = ofCandle n c ahead := by
  rw [ofCandle_eq, ofCandle_eq, upTo, ← List.map_take, ← List.map_take, List.take_range,
    Nat.min_eq_left h]

/-- A shorter horizon is the beginning of a longer one, at every candle. -/
theorem build_upTo (h : n ≤ m) (candles : List Candle) :
    build n candles = (build m candles).map (Option.map (upTo n)) := by
  induction candles with
  | nil => rfl
  | cons c rest ih =>
    rw [build, build, List.map_cons, ← ih]
    split_ifs
    · rfl
    · rw [Option.map_some, upTo_ofCandle h]

/-- The candles past the horizon make no difference to the excursions. -/
lemma ofCandle_congr (h : ahead.take n = ahead'.take n) :
    ofCandle n c ahead = ofCandle n c ahead' := by
  have hwindows : ∀ k ∈ List.range n, ahead.take (k + 1) = ahead'.take (k + 1) := fun k hk => by
    have hk : k + 1 ≤ n := List.mem_range.mp hk
    rw [← Nat.min_eq_left hk, ← List.take_take, h, List.take_take]
  rw [ofCandle_eq, ofCandle_eq]
  congr 1
  · exact List.map_congr_left fun k hk => by rw [hwindows k hk]
  · exact List.map_congr_left fun k hk => by rw [hwindows k hk]

lemma getElem?_build_eq_none (h : candles.length ≤ i) : (build n candles)[i]? = none :=
  List.getElem?_eq_none (by rwa [length_build])

/-- A candle is the last of a table or not for as long as the window at it is the same. Without a
horizon the window is the candle alone and does not tell. -/
lemma last_iff_of_window (h : (candles.drop i).take (n + 1) = (candles'.drop i).take (n + 1))
    (hn : candles.length = candles'.length ∨ 0 < n) (hi : i < candles.length) :
    i < candles'.length ∧ (i + 1 = candles.length ↔ i + 1 = candles'.length) := by
  have hlength := congrArg List.length h
  simp only [List.length_take, List.length_drop] at hlength
  omega

/-- An entry of the table depends on its candle and the candles up to the horizon alone. -/
theorem getElem?_build_congr (h : (candles.drop i).take (n + 1) = (candles'.drop i).take (n + 1))
    (hn : candles.length = candles'.length ∨ 0 < n) :
    (build n candles)[i]? = (build n candles')[i]? := by
  by_cases hi : i < candles.length
  · obtain ⟨hi',hlast⟩ := last_iff_of_window h hn hi
    rw [List.drop_eq_getElem_cons hi, List.drop_eq_getElem_cons hi', List.take_succ_cons,
      List.take_succ_cons, List.cons.injEq] at h
    obtain ⟨hc,hahead⟩ := h
    rw [getElem?_build (List.getElem?_eq_getElem hi), getElem?_build (List.getElem?_eq_getElem hi')]
    simp only [hlast, hc, ofCandle_congr hahead]
  · have hi' : candles'.length ≤ i := by
      have hlength := congrArg List.length h
      simp only [List.length_take, List.length_drop] at hlength
      omega
    rw [getElem?_build_eq_none (Nat.le_of_not_lt hi), getElem?_build_eq_none hi']

/-- The entries of the table are the excursions by their definition: at the horizon `k` the highest
high and the lowest low of the next `k` candles, or of those that there are. -/
structure IsTable (n : Nat) (candles : List Candle) (labels : List (Option FutureRange)) :
    Prop where
  length : labels.length = candles.length
  last : ∀ i, labels[i]? = some none ↔ i + 1 = candles.length
  entry : ∀ i c, candles[i]? = some c → i + 1 < candles.length →
    ∃ r, labels[i]? = some (some r) ∧ r.up.length = n ∧ r.down.length = n ∧
      ∀ k, 1 ≤ k → k ≤ n →
        r.up[k - 1]? = some (rise c ((candles.drop (i + 1)).take k)) ∧
        r.down[k - 1]? = some (fall c ((candles.drop (i + 1)).take k))

lemma getElem?_build_eq_some_none_iff :
    (build n candles)[i]? = some none ↔ i + 1 = candles.length := by
  by_cases hi : i < candles.length
  · rw [getElem?_build (List.getElem?_eq_getElem hi)]
    simp
  · rw [getElem?_build_eq_none (Nat.le_of_not_lt hi)]
    simp
    omega

theorem isTable_build (n : Nat) (candles : List Candle) : IsTable n candles (build n candles) where
  length := length_build
  last _ := getElem?_build_eq_some_none_iff
  entry i c hc hi := by
    have hentry := getElem?_build (n := n) hc
    rw [if_neg (by omega), ofCandle_eq] at hentry
    refine ⟨_,hentry,by simp,by simp,fun k hk hkn => ?_⟩
    obtain ⟨k,rfl⟩ := Nat.exists_eq_add_of_le' hk
    have hrange : (List.range n)[k]? = some k := List.getElem?_range hkn
    simp [hrange]

/-- The table of excursions is the one of their definition, a longer horizon only adds to it, and
each entry sees its candle and those up to the horizon, besides whether it is the last of all. It
is there where memory holds the horizon, and where there is nothing to look ahead to. -/
theorem build_excursions (n : Nat) (candles : List Candle) :
    IsTable n candles (build n candles) ∧
      (∀ m, n ≤ m → build n candles = (build m candles).map (Option.map (upTo n))) ∧
      (∀ candles' i, (candles.drop i).take (n + 1) = (candles'.drop i).take (n + 1) →
        (candles.length = candles'.length ∨ 0 < n) →
        (build n candles)[i]? = (build n candles')[i]?) ∧
      (build? n candles = some (build n candles) ↔ n < horizonLimit ∨ candles.length < 2) := by
  refine ⟨isTable_build n candles,fun m h => build_upTo h candles,
    fun candles' i h hn => getElem?_build_congr h hn,?_⟩
  rw [build?]
  split_ifs with hheld
  · exact iff_of_true rfl hheld
  · exact iff_of_false (by simp) hheld

/-- One candle a minute: a rise to 12 and a fall to 8 after a close of 10. -/
def swingCandles : List Candle :=
  [10, 12, 8].zipIdx.map fun (price,k) =>
    let price := (Decimal.of? price 0).getD .zero
    .flat (60000 * k) .oneMinute price price

/-- The horizons reach past the end of the series. -/
theorem build_excursions_swing :
    build 1 swingCandles = (build 4 swingCandles).map (Option.map (upTo 1)) ∧
      (build 1 swingCandles)[0]? = (build 1 (swingCandles.take 2))[0]? ∧
      ∃ r, (build 4 swingCandles)[0]? = some (some r) ∧
        r.up[3]? = some ((12.0 - 10.0) / 10.0) ∧ r.down[3]? = some ((10.0 - 8.0) / 10.0) := by
  obtain ⟨-,hlonger,hlocal,-⟩ := build_excursions 1 swingCandles
  obtain ⟨c,hc⟩ : ∃ c, swingCandles[0]? = some c := ⟨_,rfl⟩
  obtain ⟨r,hr,-,-,hentry⟩ := (build_excursions 4 swingCandles).1.entry 0 c hc (by decide)
  obtain ⟨hup,hdown⟩ := hentry 4 (by decide) (by decide)
  refine ⟨hlonger 4 (by decide),hlocal _ 0 rfl (.inr (by decide)),r,hr,hup.trans ?_,
    hdown.trans ?_⟩
  · obtain rfl := Option.some.inj hc
    decide +kernel
  · obtain rfl := Option.some.inj hc
    decide +kernel

end OrderFlow.FutureRange
