import Mathlib.Logic.Relation
import OrderFlow.Proofs.Document.Extraction
import OrderFlow.Proofs.Document.Readings

/-! Null means absent. A member over null, of a document or of a trade in one of its lists, may be
put in or left out: trades are read from the members that are not null. -/
namespace OrderFlow

namespace Json
variable {ms ms' : Members} {key : String}

/-- One object has a member over null that the other lacks, under a key of its own. -/
inductive NullAdded : Members → Members → Prop
  | intro (before after : Members) (key : String) (fresh : ∀ m ∈ before ++ after, m.1 ≠ key) :
      NullAdded (before ++ after) (before ++ (key,.null) :: after)

lemma lookup_eq_none (h : ∀ m ∈ ms, m.1 ≠ key) : ms.lookup key = none := by
  induction ms with
  | nil => rfl
  | cons m ms ih =>
    rw [List.lookup_cons, beq_false_of_ne (h m List.mem_cons_self).symm]
    exact ih fun m' hm' => h m' (List.mem_cons_of_mem _ hm')

theorem NullAdded.held?_eq (h : NullAdded ms ms') : held? ms = held? ms' := by
  obtain ⟨before,after,fresh,hfresh⟩ := h
  funext key
  rw [held?, held?, get?, get?, List.lookup_append, List.lookup_append, List.lookup_cons]
  by_cases hkey : key = fresh
  · subst hkey
    rw [lookup_eq_none fun m hm => hfresh m (List.mem_append_left _ hm),
      lookup_eq_none fun m hm => hfresh m (List.mem_append_right _ hm), beq_self_eq_true]
    rfl
  · rw [beq_false_of_ne hkey]

end Json

namespace Document
open Json
variable {ms ms' : Members} {items items' : List Json} {d d' : Json} {docs docs' : List Json}

/-- A trade object of a list has one member over null more. -/
inductive TradeNullAdded : List Json → List Json → Prop
  | intro (before after : List Json) {ms ms' : Members} (added : NullAdded ms ms') :
      TradeNullAdded (before ++ .object ms :: after) (before ++ .object ms' :: after)

/-- A document has one member over null more, of its own or in a trade object of a list that it
is or holds. -/
inductive DocumentNullAdded : Json → Json → Prop
  | own {ms ms' : Members} (added : NullAdded ms ms') : DocumentNullAdded (.object ms) (.object ms')
  | bare {items items' : List Json} (added : TradeNullAdded items items') :
      DocumentNullAdded (.array items) (.array items')
  | named (before after : Members) (key : String) {items items' : List Json}
      (added : TradeNullAdded items items') :
      DocumentNullAdded (.object (before ++ (key,.array items) :: after))
        (.object (before ++ (key,.array items') :: after))

/-- One of some documents has one member over null more. -/
inductive NullInserted : List Json → List Json → Prop
  | intro (before after : List Json) {d d' : Json} (added : DocumentNullAdded d d') :
      NullInserted (before ++ d :: after) (before ++ d' :: after)

/-- Documents become the others where members over null are put in and left out, any number of
times. -/
def SameButNulls : List Json → List Json → Prop := Relation.EqvGen NullInserted

/-- Both lists have entries or neither has, and their valid trades are the same. -/
structure SameTrades (items items' : List Json) : Prop where
  isEmpty : items.isEmpty = items'.isEmpty
  valid : validTrades items = validTrades items'

lemma SameTrades.refl (items : List Json) : SameTrades items items := ⟨rfl,rfl⟩

lemma TradeNullAdded.sameTrades (h : TradeNullAdded items items') : SameTrades items items' := by
  obtain ⟨before,after,hadded⟩ := h
  refine ⟨by cases before <;> rfl,?_⟩
  rw [validTrades, validTrades, List.filterMap_append, List.filterMap_append, List.filterMap_cons,
    List.filterMap_cons, trade?_congr (.of_held?_eq hadded.held?_eq)]

/-- The array under a key; where there is none it counts as empty. -/
def listUnder (ms : Members) (key : String) : List Json :=
  ((get? ms key).bind asArray?).getD []

lemma filled_eq_listUnder (ms : Members) (key : String) :
    filled ms key = !(listUnder ms key).isEmpty := by
  rw [filled, listUnder]
  cases (get? ms key).bind asArray? <;> rfl

lemma tradeList_object (ms : Members) :
    tradeList (.object ms) = ((tradeListKeys.find? (filled ms)).map (listUnder ms)).getD [] := by
  rw [tradeList, firstFilled?_eq]
  cases tradeListKeys.find? (filled ms) <;> rfl

/-- Where the arrays under each key have the same trades, the list of the document is found under
the same key and has the same trades. -/
lemma validTrades_tradeList_congr
    (h : ∀ key, SameTrades (listUnder ms key) (listUnder ms' key)) :
    validTrades (tradeList (.object ms)) = validTrades (tradeList (.object ms')) := by
  have hfilled : filled ms = filled ms' := by
    funext key
    rw [filled_eq_listUnder, filled_eq_listUnder, (h key).isEmpty]
  rw [tradeList_object, tradeList_object, hfilled]
  cases tradeListKeys.find? (filled ms') with
  | none => rfl
  | some key => exact (h key).valid

lemma listUnder_congr (h : held? ms = held? ms') : listUnder ms = listUnder ms' := by
  funext key
  rw [listUnder, listUnder, bind_get?_eq rfl, bind_get?_eq rfl, h]

lemma sameTrades_listUnder (h : SameTrades items items') (before after : Members)
    (key other : String) :
    SameTrades (listUnder (before ++ (key,.array items) :: after) other)
      (listUnder (before ++ (key,.array items') :: after) other) := by
  simp only [listUnder, get?, List.lookup_append, List.lookup_cons]
  cases before.lookup other with
  | some j => exact .refl _
  | none =>
    cases other == key with
    | true => exact h
    | false => exact .refl _

theorem DocumentNullAdded.validTrades_eq (h : DocumentNullAdded d d') :
    validTrades (tradeList d) = validTrades (tradeList d') := by
  cases h with
  | own hadded =>
    refine validTrades_tradeList_congr fun key => ?_
    rw [listUnder_congr hadded.held?_eq]
    exact .refl _
  | bare hadded => exact hadded.sameTrades.valid
  | named before after key hadded =>
    exact validTrades_tradeList_congr (sameTrades_listUnder hadded.sameTrades before after key)

/-- Putting in one member over null changes no trade. -/
theorem NullInserted.writtenTrades_eq (h : NullInserted docs docs') :
    writtenTrades docs = writtenTrades docs' := by
  obtain ⟨before,after,hadded⟩ := h
  rw [writtenTrades_append, writtenTrades_append, writtenTrades_cons, writtenTrades_cons,
    hadded.validTrades_eq]

/-- Members over null, under any keys, may be put into documents and into the trade objects of their
lists, or left out of them, any number of times: the trades of the documents stay the same. -/
theorem trades_sameButNulls (h : SameButNulls docs docs') : trades docs = trades docs' := by
  rw [trades_eq, trades_eq]
  congr 1
  induction h with
  | rel _ _ hinserted => exact hinserted.writtenTrades_eq
  | refl _ => rfl
  | symm _ _ _ ih => exact ih.symm
  | trans _ _ _ _ _ ih ih' => exact ih.trans ih'

/-- A trade with nothing to say about its maker, without a time under the first key. -/
def makerlessDocument : Json :=
  .object [("aggTrades", .array [.object [("isBuyerMaker", .null), ("price", .string "0.62"),
    ("qty", .string "40"), ("ts", .integer 1704067320500)]])]

/-- The same trade with an empty time and no maker, beside an empty list under an earlier key. -/
def timelessDocument : Json :=
  .object [("aggTrades", .array [.object [("price", .string "0.62"), ("qty", .string "40"),
    ("time", .null), ("ts", .integer 1704067320500)]]), ("trades", .null)]

theorem trades_sameButNulls_timeless : SameButNulls [makerlessDocument] [timelessDocument] ∧
    (trades [makerlessDocument]).map Trade.time = [1704067320500] ∧
    trades [makerlessDocument] = trades [timelessDocument] := by
  have hmaker : NullInserted [.object [("aggTrades", .array [.object [("price", .string "0.62"),
      ("qty", .string "40"), ("ts", .integer 1704067320500)]])]] [makerlessDocument] :=
    .intro [] [] (.named [] [] "aggTrades" (.intro [] [] (.intro [] _ "isBuyerMaker" (by simp))))
  have htime : NullInserted [.object [("aggTrades", .array [.object [("price", .string "0.62"),
      ("qty", .string "40"), ("ts", .integer 1704067320500)]])]]
      [.object [("aggTrades", .array [.object [("price", .string "0.62"), ("qty", .string "40"),
        ("time", .null), ("ts", .integer 1704067320500)]])]] :=
    .intro [] [] (.named [] [] "aggTrades" (.intro [] [] (.intro [_, _] [_] "time" (by simp))))
  have hlist : NullInserted [.object [("aggTrades", .array [.object [("price", .string "0.62"),
      ("qty", .string "40"), ("time", .null), ("ts", .integer 1704067320500)]])]]
      [timelessDocument] :=
    .intro [] [] (.own (.intro [_] [] "trades" (by simp)))
  have hsame : SameButNulls [makerlessDocument] [timelessDocument] :=
    .trans _ _ _ (.symm _ _ (.rel _ _ hmaker)) (.trans _ _ _ (.rel _ _ htime) (.rel _ _ hlist))
  exact ⟨hsame,by decide +kernel,trades_sameButNulls hsame⟩

end Document
end OrderFlow
