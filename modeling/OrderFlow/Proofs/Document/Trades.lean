import Mathlib.Order.MinMax
import OrderFlow.Document.Trades

/-! Trades of documents. Each of them has passed the check of a trade, and its time was read as a
word. -/
namespace OrderFlow

lemma Binary.truncate_le {low high : Int} (hlow : low ≤ high) (hhigh : 0 ≤ high) (x : Float) :
    truncate low high x ≤ high := by
  rw [truncate]
  split
  · exact max_le hlow (min_le_left ..)
  · split
    · exact hlow
    · exact le_refl _
  · exact hhigh

namespace Json

lemma saturate_le (x : Float) : saturate x ≤ int64High :=
  Binary.truncate_le (by decide) (by decide) x

lemma int64OfText?_le {cs : List Char} {i : Int} (h : int64OfText? cs = some i) :
    i ≤ int64High := by
  simp only [int64OfText?, Option.ite_none_left_eq_some, Option.ite_none_right_eq_some,
    Option.some.injEq] at h
  obtain ⟨-,hi,rfl⟩ := h
  exact hi.2

/-- A whole number is read as one of at most 64 bits with a sign. -/
theorem looseInteger?_le {j : Json} {i : Int} (h : looseInteger? j = some i) : i ≤ int64High := by
  cases j with
  | integer n =>
    rw [looseInteger?] at h
    by_cases hn : n ≤ int64High
    · rw [if_pos hn] at h
      cases h
      exact hn
    · rw [if_neg hn] at h
      cases h
      exact saturate_le _
  | float x =>
    cases h
    exact saturate_le x
  | string s =>
    rcases Option.or_eq_some_iff.mp h with h | ⟨-,h⟩
    · exact int64OfText?_le h
    · obtain ⟨x,-,rfl⟩ := Option.map_eq_some_iff.mp h
      exact saturate_le x
  | null => cases h
  | bool b => cases h
  | array items => cases h
  | object ms => cases h
  | unreadable => cases h

end Json

namespace Document
open Json
variable {docs : List Json} {t : Trade}

lemma tradeTime_le (ms : Members) : tradeTime ms ≤ int64High := by
  rw [tradeTime]
  cases h : ((timeKeys.filterMap fun k => (get? ms k).bind looseInteger?).find? (0 < ·)) with
  | none => decide
  | some time =>
    obtain ⟨k,-,hk⟩ := List.mem_filterMap.mp (List.mem_of_find?_eq_some h)
    obtain ⟨j,-,hj⟩ := Option.bind_eq_some_iff.mp hk
    exact looseInteger?_le hj

lemma unnamedTrade?_time {ms : Members} (h : unnamedTrade? ms = some t) :
    t.time = tradeTime ms := by
  simp only [unnamedTrade?, Option.bind_eq_bind, Option.bind_eq_some_iff] at h
  obtain ⟨_,-,price,-,_,-,quantity,-,h⟩ := h
  split at h
  · obtain ⟨quote,-,h⟩ := Option.bind_eq_some_iff.mp h
    cases h
    rfl
  · obtain ⟨quote,-,rfl⟩ := Option.map_eq_some_iff.mp h
    rfl

theorem trade?_time_le {j : Json} (h : trade? j = some t) : t.time ≤ int64High := by
  simp only [trade?, Option.bind_eq_bind, Option.bind_eq_some_iff] at h
  obtain ⟨ms,-,u,hu,h⟩ := h
  cases h
  exact (unnamedTrade?_time hu).trans_le (tradeTime_le ms)

lemma mem_trades : t ∈ trades docs ↔ t ∈ writtenTrades docs := List.mem_mergeSort

/-- A trade of documents was read from one of their values and found valid. -/
theorem exists_of_mem_trades (h : t ∈ trades docs) : t.isValid = true ∧ ∃ j, trade? j = some t := by
  rw [mem_trades, writtenTrades, List.mem_flatMap] at h
  obtain ⟨d,-,h⟩ := h
  obtain ⟨j,-,h⟩ := List.mem_filterMap.mp h
  obtain ⟨hj,hvalid⟩ := Option.filter_eq_some_iff.mp h
  exact ⟨hvalid,j,hj⟩

theorem time_bounds (h : t ∈ trades docs) : 0 < t.time ∧ t.time < 2 ^ 63 := by
  obtain ⟨hvalid,j,hj⟩ := exists_of_mem_trades h
  have hle := trade?_time_le hj
  simp only [Trade.isValid, Bool.and_eq_true, decide_eq_true_eq] at hvalid
  rw [int64High] at hle
  exact ⟨hvalid.2,by omega⟩

/-- A document with two trades, the later one first, an entry without a price and a summary of the
book, and a bare list with one trade more. -/
def mixedDocuments : List Json :=
  [.object [("trades", .array [
      .object [("price", .string "0.615"), ("qty", .string "40"), ("time", .integer 1704067320500)],
      .object [("price", .string "0.61"), ("qty", .string "100"), ("time", .integer 1704067200000),
        ("isBuyerMaker", .bool true)],
      .object [("qty", .string "5"), ("time", .integer 1704067210000)]]),
    ("candles", .array [
      .object [("openTime", .integer 1704067260000), ("bidLiquidity", .float 12.5)]])],
   .array [.object [("price", .string "0.62"), ("qty", .string "25"),
      ("ts", .integer 1704067500000)]]]

lemma exists_late_mixedDocuments : ∃ t ∈ trades mixedDocuments, 1000000000 < t.time := by
  have h : ∃ t ∈ writtenTrades mixedDocuments, 1000000000 < t.time := by decide
  simpa only [mem_trades] using h

end Document
end OrderFlow
