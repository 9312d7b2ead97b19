import OrderFlow.Proofs.Decimal.Texts
import OrderFlow.Proofs.Json.Arrangement

/-! Trades and candles in JSON. What is written is read back as it was, also after its members have
changed places and others have been added. -/
namespace OrderFlow
open Json

namespace Json
variable {i : Int} {n : Nat} {x : Float} {names : List String} {values js : List Json}

/-- A value without members that is written and read again as it is. -/
structure IsKept (j : Json) : Prop where
  fits : j.fits = true
  reread : j.reread = j
  leaf : j.asObject? = none

lemma isKept_null : IsKept .null := ⟨rfl,rfl,rfl⟩

lemma isKept_bool (b : Bool) : IsKept (.bool b) := ⟨rfl,rfl,rfl⟩

lemma isKept_string (s : String) : IsKept (.string s) := ⟨rfl,rfl,rfl⟩

lemma isKept_integer (h : isSigned i = true) : IsKept (.integer i) where
  fits := by
    rw [isSigned_iff] at h
    rw [Json.fits, Bool.and_eq_true, decide_eq_true_eq, decide_eq_true_eq]
    omega
  reread := rfl
  leaf := rfl

lemma isKept_natural (h : n < wordSize) : IsKept (.integer n) where
  fits := by
    rw [wordSize] at h
    rw [Json.fits, Bool.and_eq_true, decide_eq_true_eq, decide_eq_true_eq]
    omega
  reread := rfl
  leaf := rfl

/-- Only a finite double is read from its own text, so it is a number there and not null. -/
lemma isKept_float (h : (parse? (float x).toText).bind asFloat? = some x) : IsKept (.float x) where
  fits := rfl
  reread := by
    rw [parse?_toText rfl, Option.bind_some, Json.reread] at h
    by_cases hx : Binary.isFinite x = true
    · obtain ⟨y,hy,-⟩ := rereadFloat_of_isFinite (r := []) hx (by simp [Ends])
      rw [hy] at h
      rw [Json.reread, hy, Option.some.inj h]
    · have hnull : floatChars x = ['n','u','l','l'] := if_neg hx
      rw [rereadFloat, hnull] at h
      cases h
  leaf := rfl

lemma fits_zip (h : ∀ j ∈ values, fits j = true) : fits (.object (names.zip values)) = true :=
  fitsMembers_zip (List.all_eq_true.mpr h)

lemma reread_zip (h : ∀ j ∈ values, reread j = j) :
    reread (.object (names.zip values)) = .object (names.zip values) := by
  rw [reread, rereadMembers_zip, List.map_congr_left h, List.map_id']

/-- A record whose values are read as they are is read as it is. -/
lemma parse?_toText_zip (h : ∀ j ∈ values, fits j = true ∧ reread j = j) :
    parse? (Json.object (names.zip values)).toText = some (.object (names.zip values)) := by
  rw [parse?_toText (fits_zip fun j hj => (h j hj).1), reread_zip fun j hj => (h j hj).2]

lemma Rearranges.eq_of_isKept (h : List.Forall₂ Rearranges values js)
    (hvalues : ∀ j ∈ values, IsKept j) : js = values :=
  eq_of_leaves h fun j hj => (hvalues j hj).leaf

lemma asInt64?_integer (h : isSigned i = true) : (integer i).asInt64? = some i := by
  rw [isSigned_iff] at h
  exact if_pos (by omega)

end Json

variable {j : Json} {ms : Members} {t : Trade} {c : Candle} {d : Depth}

lemma Decimal.isKept_toJson (x : Decimal) : IsKept x.toJson := isKept_string _

lemma Decimal.ofJson?_toJson (x : Decimal) : ofJson? x.toJson = some x := ofText?_toText x

lemma Timeframe.ofJson?_toJson (tf : Timeframe) : ofJson? tf.toJson = some tf := ofText?_label tf

namespace Trade

/-- The numbers of a trade are words with a sign. -/
structure IsWritable (t : Trade) : Prop where
  id : ∀ i ∈ t.id, isSigned i = true
  time : isSigned t.time = true

/-- The values of a trade, in the order of their names. -/
def values (t : Trade) : List Json :=
  [t.id.elim .null .integer, .integer t.time, t.price.toJson, t.quantity.toJson,
    t.quoteQuantity.toJson, .bool t.buyerIsMaker]

lemma toJson_eq (t : Trade) : t.toJson = .object (fieldNames.zip t.values) := rfl

lemma IsWritable.isKept (h : t.IsWritable) : ∀ j ∈ t.values, IsKept j := by
  have hid : IsKept (t.id.elim .null .integer) := by
    cases hi : t.id with
    | none => exact isKept_null
    | some i => exact isKept_integer (h.id i hi)
  simp [values, hid, isKept_integer h.time, isKept_bool, Decimal.isKept_toJson]

lemma IsWritable.parse?_toText (h : t.IsWritable) : parse? t.toJson.toText = some t.toJson :=
  parse?_toText_zip fun j hj => ⟨(h.isKept j hj).fits,(h.isKept j hj).reread⟩

lemma IsWritable.optional?_id (h : t.IsWritable) :
    optional? asInt64? (some (t.id.elim .null .integer)) = some t.id := by
  cases hi : t.id with
  | none => rfl
  | some i => simp [optional?, asInt64?_integer (h.id i hi)]

/-- A trade is read from whatever rearranges it. -/
theorem IsWritable.ofJson?_of_rearranges (h : t.IsWritable) (hj : Rearranges t.toJson j) :
    ofJson? j = some t := by
  obtain ⟨_,hjs,hfields⟩ := hj.exists_fields? (by decide) rfl
  obtain rfl := Rearranges.eq_of_isKept hjs h.isKept
  simp [ofJson?, hfields, h.optional?_id, asInt64?_integer h.time, asBool?,
    Decimal.ofJson?_toJson]

end Trade

namespace Depth

/-- A depth is read from whatever rearranges it. -/
theorem ofJson?_of_rearranges (hj : Rearranges d.toJson j) : ofJson? j = some d := by
  obtain ⟨_,hjs,hfields⟩ := hj.exists_fields? (by decide) rfl
  obtain rfl := Rearranges.eq_of_leaves hjs (by simp [toList, asObject?])
  simp [ofJson?, hfields, toList, asFloat?]

end Depth

namespace Candle

/-- The numbers of a candle are words, and those of its depth are read as they are from their own
text. -/
structure IsWritable (c : Candle) : Prop where
  openTime : isSigned c.openTime = true
  tradeCount : c.tradeCount < wordSize
  depth : ∀ x ∈ c.depth.toList, (parse? (float x).toText).bind asFloat? = some x

/-- The values of a candle in the order of their names, all but its depth. -/
def leaves (c : Candle) : List Json :=
  [.integer c.openTime, c.timeframe.toJson, c.openPrice.toJson, c.highPrice.toJson,
    c.lowPrice.toJson, c.closePrice.toJson, c.baseVolume.toJson, c.quoteVolume.toJson,
    c.buyVolume.toJson, c.sellVolume.toJson, .integer c.tradeCount, c.vwap.toJson]

lemma toJson_eq (c : Candle) :
    c.toJson =
      .object ((fieldNames.dropLast ++ ["depth"]).zip (c.leaves ++ [c.depth.toJson])) := rfl

lemma IsWritable.isKept (h : c.IsWritable) : ∀ j ∈ c.leaves, IsKept j := by
  simp [leaves, isKept_integer h.openTime, isKept_natural h.tradeCount, Timeframe.toJson,
    isKept_string, Decimal.isKept_toJson]

lemma IsWritable.isKept_depth (h : c.IsWritable) : ∀ j ∈ c.depth.toList.map .float, IsKept j := by
  intro j hj
  obtain ⟨x,hx,rfl⟩ := List.mem_map.mp hj
  exact isKept_float (h.depth x hx)

lemma IsWritable.isKept_values (h : c.IsWritable) :
    ∀ j ∈ c.leaves ++ [c.depth.toJson], fits j = true ∧ reread j = j := by
  intro j hj
  rcases List.mem_append.mp hj with hj | hj
  · exact ⟨(h.isKept j hj).fits,(h.isKept j hj).reread⟩
  · rw [List.mem_singleton.mp hj]
    exact ⟨fits_zip fun j hj => (h.isKept_depth j hj).fits,
      reread_zip fun j hj => (h.isKept_depth j hj).reread⟩

lemma IsWritable.parse?_toText (h : c.IsWritable) : parse? c.toJson.toText = some c.toJson :=
  parse?_toText_zip h.isKept_values

/-- What is read where all fields but the depth stand as they were written. -/
lemma IsWritable.ofJson?_of_fields (h : c.IsWritable) {f : Option Json}
    (hfields : j.fields? fieldNames = some (c.leaves.map some ++ [f])) :
    ofJson? j = (f.elim (some .absent) Depth.ofJson?).map fun d => { c with depth := d } := by
  have hcount : (Json.integer c.tradeCount).asNat64? = some c.tradeCount :=
    asNat64?_reread h.tradeCount
  simp only [leaves, List.map_cons, List.map_nil, List.cons_append, List.nil_append] at hfields
  rw [ofJson?, hfields]
  dsimp only [Option.bind_eq_bind, Option.bind_some]
  simp only [asInt64?_integer h.openTime, hcount, Timeframe.ofJson?_toJson, Decimal.ofJson?_toJson,
    Option.bind_some]
  cases f.elim (some Depth.absent) Depth.ofJson? <;> rfl

/-- A candle is read from whatever rearranges it. -/
theorem IsWritable.ofJson?_of_rearranges (h : c.IsWritable) (hj : Rearranges c.toJson j) :
    ofJson? j = some c := by
  rw [toJson_eq] at hj
  obtain ⟨_,hall,hfields⟩ := hj.exists_fields? (by decide) rfl
  obtain ⟨js,_,rfl,hjs,hlast⟩ := exists_append_of_forall₂ hall
  obtain rfl := Rearranges.eq_of_isKept hjs h.isKept
  obtain ⟨d,rfl⟩ : ∃ d, _ = [d] := List.length_eq_one_iff.mp hlast.length_eq.symm
  rw [List.map_append] at hfields
  rw [h.ofJson?_of_fields hfields, Option.elim_some,
    Depth.ofJson?_of_rearranges (List.forall₂_cons.mp hlast).1]
  rfl

/-- Without the member for its depth it is read as a candle that saw no book. -/
theorem IsWritable.ofJson?_without_depth (h : c.IsWritable)
    (hj : Rearranges c.toJson (.object ms)) :
    ofJson? (.object (ms.filter (·.1 != "depth"))) = some { c with depth := .absent } := by
  rw [toJson_eq] at hj
  obtain ⟨_,hjs,hfields⟩ := hj.exists_fields?_without (by decide) rfl
  obtain rfl := Rearranges.eq_of_isKept hjs h.isKept
  exact h.ofJson?_of_fields hfields

end Candle

/-- Trades and candles are read from their own text as they were written, decimals with all their
places, and so are they from every text that holds the same members in another order with others
between them. A candle without the member for its depth saw no book. -/
theorem marketValues_readBack :
    (∀ t : Trade, t.IsWritable →
      (parse? t.toJson.toText).bind Trade.ofJson? = some t ∧
        ∀ text j, parse? text = some j → Rearranges t.toJson j →
          (parse? text).bind Trade.ofJson? = some t) ∧
      ∀ c : Candle, c.IsWritable →
        (parse? c.toJson.toText).bind Candle.ofJson? = some c ∧
          (∀ text j, parse? text = some j → Rearranges c.toJson j →
            (parse? text).bind Candle.ofJson? = some c) ∧
          ∀ text ms, Rearranges c.toJson (.object ms) →
            parse? text = some (.object (ms.filter (·.1 != "depth"))) →
              (parse? text).bind Candle.ofJson? = some { c with depth := .absent } := by
  constructor
  · intro t ht
    refine ⟨?_,fun text j hparse hj => ?_⟩
    · rw [ht.parse?_toText, Option.bind_some, ht.ofJson?_of_rearranges (.refl _)]
    · rw [hparse, Option.bind_some, ht.ofJson?_of_rearranges hj]
  · intro c hc
    refine ⟨?_,fun text j hparse hj => ?_,fun text ms hms hparse => ?_⟩
    · rw [hc.parse?_toText, Option.bind_some, hc.ofJson?_of_rearranges (.refl _)]
    · rw [hparse, Option.bind_some, hc.ofJson?_of_rearranges hj]
    · rw [hparse, Option.bind_some, hc.ofJson?_without_depth hms]

/-- A trade and a candle of extreme words, written backwards after a note. -/
theorem marketValues_readBack_backwards :
    let t : Trade := ⟨some (2 ^ 63 - 1),-2 ^ 63,⟨150,2,by decide,by decide⟩,
      ⟨-7,28,by decide,by decide⟩,⟨0,3,by decide,by decide⟩,true⟩
    let c : Candle := { Candle.flat (-2 ^ 63) .fifteenMinutes t.price t.quantity with
      tradeCount := 2 ^ 64 - 1, depth := ⟨2.5,0.5,-0.25,1e-7,1e300⟩ }
    (parse? (Json.object (("note" :: Trade.fieldNames.reverse).zip
        (.null :: t.values.reverse))).toText).bind Trade.ofJson? = some t ∧
      (parse? (Json.object (("note" :: Candle.fieldNames.reverse).zip
        (.null :: (c.leaves ++ [c.depth.toJson]).reverse))).toText).bind Candle.ofJson? = some c ∧
      (parse? (Json.object (Candle.fieldNames.dropLast.reverse.zip c.leaves.reverse)).toText).bind
        Candle.ofJson? = some { c with depth := .absent } := by
  intro t c
  have ht : t.IsWritable := ⟨by decide,by decide⟩
  have hc : c.IsWritable := ⟨by decide,by decide,by decide +kernel⟩
  have hnote : fits .null = true ∧ reread .null = .null := ⟨rfl,rfl⟩
  obtain ⟨htrades,hcandles⟩ := marketValues_readBack
  obtain ⟨-,hcandle,hbookless⟩ := hcandles c hc
  refine ⟨(htrades t ht).2 _ _ (parse?_toText_zip ?_) ?_,hcandle _ _ (parse?_toText_zip ?_) ?_,
    hbookless _ (Candle.fieldNames.zip (c.leaves ++ [c.depth.toJson])).reverse ?_
      (parse?_toText_zip ?_)⟩
  · rw [List.forall_mem_cons]
    exact ⟨hnote,fun j hj => ⟨(ht.isKept j (List.mem_reverse.mp hj)).fits,
      (ht.isKept j (List.mem_reverse.mp hj)).reread⟩⟩
  · refine .of_perm (.trans (.of_eq ?_) (List.reverse_perm _))
    simp [Trade.fieldNames, Trade.values]
  · rw [List.forall_mem_cons]
    exact ⟨hnote,fun j hj => hc.isKept_values j (List.mem_reverse.mp hj)⟩
  · refine .of_perm (.trans (.of_eq ?_) (List.reverse_perm _))
    simp [Candle.fieldNames, Candle.leaves]
  · refine .of_perm (.trans (.of_eq ?_) (List.reverse_perm _))
    simp [Candle.fieldNames, Candle.leaves]
  · intro j hj
    exact hc.isKept_values j (List.mem_append_left _ (List.mem_reverse.mp hj))

end OrderFlow
