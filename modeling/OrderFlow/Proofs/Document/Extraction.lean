import Mathlib.Data.List.Forall2
import OrderFlow.Proofs.Document.Trades
import OrderFlow.Proofs.Keyed

/-! Trades out of documents. They are the valid trades that the lists of the documents hold, put in
order of time once; so it makes no difference over how many documents a list is spread, and chunks
that are already in order can be put together. -/
namespace OrderFlow

namespace Json
variable {ms : Members} {keys : List String} {items : List Json}

/-- None of the keys has an array with entries. -/
def NoneFilled (ms : Members) (keys : List String) : Prop :=
  ∀ key ∈ keys, ∀ items, get? ms key = some (.array items) → items = []

lemma asArray?_eq_some {j : Json} : j.asArray? = some items ↔ j = .array items := by
  cases j <;> simp [asArray?]

lemma array?_eq_some {key : String} :
    (get? ms key).bind asArray? = some items ↔ get? ms key = some (.array items) := by
  simp [Option.bind_eq_some_iff, asArray?_eq_some]

/-- Is there an array with entries under a key? -/
def filled (ms : Members) (key : String) : Bool :=
  ((get? ms key).bind asArray?).any fun items => !items.isEmpty

lemma filled_iff {key : String} :
    filled ms key = true ↔ ∃ items, get? ms key = some (.array items) ∧ items ≠ [] := by
  simp [filled, Option.any_eq_true, array?_eq_some]

lemma noneFilled_iff : NoneFilled ms keys ↔ ∀ key ∈ keys, filled ms key = false := by
  apply forall₂_congr
  intro key _
  rw [← Bool.not_eq_true, filled_iff]
  simp

lemma firstFilled?_eq (ms : Members) (keys : List String) :
    firstFilled? ms keys = (keys.find? (filled ms)).bind fun key => (get? ms key).bind asArray? :=
  List.find?_filterMap ..

theorem firstFilled?_eq_none_iff : firstFilled? ms keys = none ↔ NoneFilled ms keys := by
  rw [firstFilled?, List.find?_eq_none]
  constructor
  · intro h key hkey items hitems
    simpa using h items (List.mem_filterMap.mpr ⟨key,hkey,array?_eq_some.mpr hitems⟩)
  · intro h items hmem
    obtain ⟨key,hkey,hitems⟩ := List.mem_filterMap.mp hmem
    simpa using h key hkey items (array?_eq_some.mp hitems)

theorem firstFilled?_eq_some_iff : firstFilled? ms keys = some items ↔
    ∃ before key after, keys = before ++ key :: after ∧ NoneFilled ms before ∧
      get? ms key = some (.array items) ∧ items ≠ [] := by
  rw [firstFilled?_eq, Option.bind_eq_some_iff]
  constructor
  · rintro ⟨key,hfind,hitems⟩
    obtain ⟨hkey,before,after,rfl,hbefore⟩ := List.find?_eq_some_iff_append.mp hfind
    obtain ⟨items',h,hne⟩ := filled_iff.mp hkey
    rw [array?_eq_some, h] at hitems
    cases hitems
    exact ⟨before,key,after,rfl,noneFilled_iff.mpr (by simpa using hbefore),h,hne⟩
  · rintro ⟨before,key,after,rfl,hbefore,h,hne⟩
    refine ⟨key,?_,array?_eq_some.mpr h⟩
    rw [List.find?_eq_some_iff_append]
    refine ⟨filled_iff.mpr ⟨items,h,hne⟩,before,after,rfl,?_⟩
    simpa using noneFilled_iff.mp hbefore

end Json

namespace Document
open Json Keyed

/-- A document keeps some values as its list of trades: the first array with entries under one of
the keys, or the document itself if it is an array. -/
inductive Listed : Json → List Json → Prop
  | bare (items : List Json) : Listed (.array items) items
  | named {ms : Members} {before after : List String} {key : String} {items : List Json}
      (keys : tradeListKeys = before ++ key :: after) (first : NoneFilled ms before)
      (found : get? ms key = some (.array items)) (filled : items ≠ []) :
      Listed (.object ms) items
  | unnamed {ms : Members} (none : NoneFilled ms tradeListKeys) : Listed (.object ms) []
  | other {d : Json} (array : d.asArray? = none) (object : d.asObject? = none) : Listed d []

variable {d : Json} {docs : List Json} {items : List Json} {lists : List (List Json)}

theorem listed_tradeList (d : Json) : Listed d (tradeList d) := by
  cases d with
  | object ms =>
    rw [tradeList]
    cases h : firstFilled? ms tradeListKeys with
    | none => exact .unnamed (firstFilled?_eq_none_iff.mp h)
    | some items =>
      obtain ⟨before,key,after,hkeys,hfirst,hfound,hfilled⟩ := firstFilled?_eq_some_iff.mp h
      exact .named hkeys hfirst hfound hfilled
  | array items => exact .bare items
  | null => exact .other rfl rfl
  | bool b => exact .other rfl rfl
  | integer i => exact .other rfl rfl
  | float x => exact .other rfl rfl
  | string s => exact .other rfl rfl
  | unreadable => exact .other rfl rfl

theorem Listed.eq (h : Listed d items) : tradeList d = items := by
  cases h with
  | bare => rfl
  | named hkeys hfirst hfound hfilled =>
    rw [tradeList, firstFilled?_eq_some_iff.mpr ⟨_,_,_,hkeys,hfirst,hfound,hfilled⟩,
      Option.getD_some]
  | unnamed hnone => rw [tradeList, firstFilled?_eq_none_iff.mpr hnone, Option.getD_none]
  | other harray hobject =>
    cases d with
    | array items => cases harray
    | object ms => cases hobject
    | null => rfl
    | bool b => rfl
    | integer i => rfl
    | float x => rfl
    | string s => rfl
    | unreadable => rfl

/-- The trades among some values that are valid, in the order of the values. -/
def validTrades (items : List Json) : List Trade := (items.filterMap trade?).filter Trade.isValid

lemma validTrades_append (items items' : List Json) :
    validTrades (items ++ items') = validTrades items ++ validTrades items' := by
  rw [validTrades, List.filterMap_append, List.filter_append, validTrades, validTrades]

lemma writtenTrades_append (docs docs' : List Json) :
    writtenTrades (docs ++ docs') = writtenTrades docs ++ writtenTrades docs' :=
  List.flatMap_append ..

theorem writtenTrades_cons (d : Json) (docs : List Json) :
    writtenTrades (d :: docs) = validTrades (tradeList d) ++ writtenTrades docs := by
  rw [writtenTrades, List.flatMap_cons, validTrades, List.filter_filterMap, writtenTrades]

/-- What documents hold is what their lists hold, one list after the other. -/
theorem writtenTrades_eq (h : List.Forall₂ Listed docs lists) :
    writtenTrades docs = validTrades lists.flatten := by
  induction h with
  | nil => rfl
  | cons hd _ ih =>
    rw [writtenTrades_cons, hd.eq, ih, List.flatten_cons, validTrades_append]

theorem trades_eq (docs : List Json) : trades docs = sortBy Trade.time (writtenTrades docs) := rfl

theorem trades_append (docs docs' : List Json) :
    trades (docs ++ docs') = sortBy Trade.time (trades docs ++ trades docs') := by
  rw [trades_eq, trades_eq, trades_eq, writtenTrades_append, sortBy_append]

/-- Documents hold the same trades as one document with all their lists in one. -/
theorem trades_cut (h : List.Forall₂ Listed docs lists) (hd : Listed d lists.flatten)
    (before after : List Json) :
    trades (before ++ docs ++ after) = trades (before ++ d :: after) := by
  have hwritten :
      writtenTrades (before ++ docs ++ after) = writtenTrades (before ++ d :: after) := by
    rw [writtenTrades_append, writtenTrades_append, writtenTrades_append, writtenTrades_cons,
      hd.eq, writtenTrades_eq h, List.append_assoc]
  rw [trades_eq, trades_eq, hwritten]

/-- The trades of documents are the stable sort by time of the valid trades in their lists. So two
collections of documents give together the stable sort of what they give apart, and a list of trades
may as well be cut and kept in several documents that follow each other. -/
theorem trades_stableSort (docs : List Json) :
    (∃ lists, List.Forall₂ Listed docs lists) ∧
    (∀ lists, List.Forall₂ Listed docs lists →
      (∀ ts, StableSort Trade.time (validTrades lists.flatten) ts ↔ ts = trades docs) ∧
      ∀ before d after, Listed d lists.flatten →
        trades (before ++ docs ++ after) = trades (before ++ d :: after)) ∧
    ∀ more ts,
      StableSort Trade.time (trades docs ++ trades more) ts ↔ ts = trades (docs ++ more) := by
  refine ⟨⟨docs.map tradeList,?_⟩,?_,?_⟩
  · rw [List.forall₂_map_right_iff, List.forall₂_same]
    exact fun d _ => listed_tradeList d
  · intro lists h
    refine ⟨fun ts => ?_,fun before d after hd => trades_cut h hd before after⟩
    rw [stableSort_iff, ← writtenTrades_eq h, ← trades_eq]
  · intro more ts
    rw [stableSort_iff, ← trades_append]

/-- A document whose first lists are empty, with a later trade and an entry without a price, and a
bare list with an earlier trade. -/
def spreadDocuments : List Json :=
  [.object [("trades", .array []), ("trade", .null),
    ("aggTrades", .array [
      .object [("price", .string "0.62"), ("qty", .string "40"), ("time", .integer 1704067320500)],
      .object [("qty", .string "5"), ("time", .integer 1704067210000)]])],
   .array [.object [("price", .string "0.61"), ("qty", .string "25"),
      ("ts", .integer 1704067200000)]]]

/-- One document with all their entries. -/
def gatheredDocument : Json :=
  .object [("Trades", .array [
    .object [("price", .string "0.62"), ("qty", .string "40"), ("time", .integer 1704067320500)],
    .object [("qty", .string "5"), ("time", .integer 1704067210000)],
    .object [("price", .string "0.61"), ("qty", .string "25"), ("ts", .integer 1704067200000)]])]

theorem trades_stableSort_spread : ∃ lists, List.Forall₂ Listed spreadDocuments lists ∧
    Listed gatheredDocument lists.flatten ∧ (validTrades lists.flatten).length = 2 ∧
    StableSort Trade.time (validTrades lists.flatten) (trades spreadDocuments) ∧
    StableSort Trade.time (trades spreadDocuments ++ trades mixedDocuments)
      (trades (spreadDocuments ++ mixedDocuments)) ∧
    trades ([] ++ spreadDocuments ++ mixedDocuments) =
      trades ([] ++ gatheredDocument :: mixedDocuments) := by
  have hkeys : tradeListKeys = ["trades", "trade", "Trades"] ++ "aggTrades" :: _ := rfl
  have hkeys' : tradeListKeys = ["trades", "trade"] ++ "Trades" :: _ := rfl
  have hspread : List.Forall₂ Listed spreadDocuments _ :=
    .cons (.named hkeys (noneFilled_iff.mpr (by decide)) rfl (by simp)) (.cons (.bare _) .nil)
  have hgathered : Listed gatheredDocument _ :=
    .named hkeys' (noneFilled_iff.mpr (by decide)) rfl (by simp)
  obtain ⟨-,hlists,hmore⟩ := trades_stableSort spreadDocuments
  obtain ⟨hsort,hcut⟩ := hlists _ hspread
  exact ⟨_,hspread,hgathered,by decide,(hsort _).mpr rfl,(hmore mixedDocuments _).mpr rfl,
    hcut [] gatheredDocument mixedDocuments hgathered⟩

end Document
end OrderFlow
