import OrderFlow.Export.CandleTable
import OrderFlow.Proofs.Binary.Texts
import OrderFlow.Proofs.Csv.PlainRows
import OrderFlow.Proofs.Feature.FutureRange
import OrderFlow.Proofs.Feature.Matrix

/-! Tables of candles are rectangular. No text in them asks for quotes, and the header, the columns,
the excursions and the blanks in their place agree on how wide a line is. -/
namespace OrderFlow
open Text Csv

namespace Binary
variable {cs : List Char}

lemma isReadable_plain : plain.IsReadable := ⟨.inl rfl,.inl rfl,rfl,rfl⟩

lemma needsQuotes_pointed (h : ∀ c ∈ cs, isDigit c = true) : needsQuotes (pointed cs) = false := by
  rw [pointed]
  split_ifs
  · rfl
  · rw [needsQuotes_cons, needsQuotes_of_isDigit h]
    rfl

/-- The text of a number, or of what is none, is not empty and needs no quotes. -/
lemma plain_text (x : Float) :
    needsQuotes (plain.text x).toList = false ∧ (plain.text x).toList ≠ [] := by
  rw [Layout.text, String.toList_ofList]
  have hsign (negative : Bool) : needsQuotes (if negative then ['-'] else []) = false := by
    cases negative <;> rfl
  cases hx : exact x with
  | finite negative m s =>
    obtain ⟨hdigits,hpoint⟩ := digits_of_exact hx true
    obtain ⟨ws,fs,a,hwrites⟩ := exists_writes_positionalChars isReadable_plain hdigits hpoint
    have hchars : plain.exactChars (.finite negative m s) =
        (if negative then ['-'] else []) ++ (ws ++ (pointed fs ++ [])) :=
      congrArg _ hwrites.text
    rw [hchars]
    constructor
    · simp only [needsQuotes_append, hsign, needsQuotes_of_isDigit hwrites.whole,
        needsQuotes_pointed hwrites.fraction, needsQuotes_nil, Bool.or_false]
    · simp [hwrites.nonempty]
  | infinite negative => cases negative <;> decide
  | nan => decide

end Binary

namespace Calendar

lemma needsQuotes_yearChars (year : Int) : needsQuotes (yearChars year) = false := by
  rw [yearChars]
  split_ifs <;> simp [isSpecial]

lemma needsQuotes_of_millisChars? {millis : Int} {cs : List Char}
    (h : millisChars? millis = some cs) : needsQuotes cs = false := by
  rw [millisChars?] at h
  split_ifs at h with hspan
  obtain rfl := Option.some.inj h
  have hfraction : needsQuotes (if (millis % 1000).toNat = 0 then []
      else '.' :: paddedDigits 3 (millis % 1000).toNat) = false := by
    split_ifs <;> simp [isSpecial]
  have hzone : needsQuotes "+00:00".toList = false := by decide
  simp only [needsQuotes_append, hfraction, hzone, Bool.or_false]
  simp [secondsChars, dateChars, needsQuotes_yearChars, isSpecial]

end Calendar

namespace CandleTable
variable {labels : Option Labels} {candles : List Candle} {c : Candle} {i width : Nat}
  {fs : List String} {t : String}

lemma needsQuotes_timeText (c : Candle) : needsQuotes (timeText c).toList = false := by
  rw [timeText, Calendar.millisText?]
  cases h : Calendar.millisChars? c.openTime with
  | none =>
    rw [Option.map_none, Option.getD_none, intText]
    refine needsQuotes_append_natText ?_
    split_ifs <;> rfl
  | some cs =>
    rw [Option.map_some, Option.getD_some, String.toList_ofList]
    exact Calendar.needsQuotes_of_millisChars? h

/-- How many fields of a line are for excursions. -/
def labelWidth (labels : Option Labels) : Nat := labels.elim 0 (2 * ·.horizon)

lemma length_names (n : Nat) : (FutureRange.names n).length = 2 * n := by
  simp [FutureRange.names]
  omega

lemma length_header (labels : Option Labels) : (header labels).length = 18 + labelWidth labels := by
  cases labels with
  | none => rfl
  | some l =>
    have hcolumns : Column.all.length = 17 := rfl
    simp [header, labelWidth, length_names, hcolumns]
    omega

lemma needsQuotes_of_mem_names {n : Nat} {s : String} (h : s ∈ FutureRange.names n) :
    needsQuotes s.toList = false := by
  simp only [FutureRange.names, List.mem_append, List.mem_map] at h
  obtain ⟨k,-,rfl⟩ | ⟨k,-,rfl⟩ := h
  exacts [needsQuotes_append_natText (by decide),needsQuotes_append_natText (by decide)]

lemma needsQuotes_of_mem_header {s : String} (h : s ∈ header labels) :
    needsQuotes s.toList = false := by
  simp only [header, List.cons_append, List.mem_cons, List.mem_append, List.mem_map] at h
  obtain rfl | ⟨column,-,rfl⟩ | h := h
  · decide
  · cases column <;> decide
  · cases labels with
    | none => cases h
    | some l => exact needsQuotes_of_mem_names h

lemma isPlain_header (labels : Option Labels) : IsPlain ((header labels).map String.toList) := by
  refine .of_strings (fun _ => needsQuotes_of_mem_header) ?_
  rw [length_header]
  omega

/-- The excursions go with the first of some candles, and look at least one candle ahead. -/
def Labels.GoWith (l : Labels) (candles : List Candle) : Prop :=
  1 ≤ l.horizon ∧ l.ranges <+: FutureRange.build l.horizon candles

lemma Labels.GoWith.length {l : Labels} {r : FutureRange} (h : l.GoWith candles)
    (hr : l.ranges[i]? = some (some r)) : r.toList.length = 2 * l.horizon := by
  obtain ⟨rest,hrest⟩ := h.2
  have hbuilt : (FutureRange.build l.horizon candles)[i]? = some (some r) := by
    rw [← hrest, List.getElem?_append_left (List.getElem?_eq_some_iff.mp hr).1, hr]
  obtain ⟨c,-,rfl⟩ := FutureRange.eq_of_getElem?_build hbuilt
  exact FutureRange.length_toList_ofCandle

lemma labelFields_of_some {l : Labels} {r : FutureRange} (hr : l.ranges[i]? = some (some r)) :
    labelFields (some l) i = r.toList.map Binary.plain.text := by
  rw [labelFields, hr]
  rfl

lemma labelFields_of_none {l : Labels} (h : ¬ ∃ r, l.ranges[i]? = some (some r)) :
    labelFields (some l) i = List.replicate (2 * l.horizon) "" := by
  have hnone : l.ranges[i]?.join = none :=
    Option.eq_none_iff_forall_ne_some.mpr fun r hr => h ⟨r,Option.join_eq_some_iff.mp hr⟩
  rw [labelFields, hnone]

lemma map_labelFields_of_some {l : Labels} {r : FutureRange} (hr : l.ranges[i]? = some (some r)) :
    (labelFields (some l) i).map String.toList =
      r.toList.map fun x => (Binary.plain.text x).toList := by
  rw [labelFields_of_some hr, List.map_map]
  rfl

lemma eq_nil_of_mem_labelFields {l : Labels} (h : ¬ ∃ r, l.ranges[i]? = some (some r)) :
    ∀ f ∈ (labelFields (some l) i).map String.toList, f = [] := by
  rw [labelFields_of_none h, List.map_replicate]
  exact fun f hf => List.eq_of_mem_replicate hf

lemma length_labelFields (h : ∀ l ∈ labels, l.GoWith candles) (i : Nat) :
    (labelFields labels i).length = labelWidth labels := by
  cases labels with
  | none => rfl
  | some l =>
    by_cases hr : ∃ r, l.ranges[i]? = some (some r)
    · obtain ⟨r,hr⟩ := hr
      rw [labelFields_of_some hr, List.length_map, (h l rfl).length hr]
      rfl
    · rw [labelFields_of_none hr, List.length_replicate]
      rfl

lemma needsQuotes_of_mem_labelFields {s : String} (h : s ∈ labelFields labels i) :
    needsQuotes s.toList = false := by
  cases labels with
  | none => cases h
  | some l =>
    by_cases hr : ∃ r, l.ranges[i]? = some (some r)
    · obtain ⟨r,hr⟩ := hr
      rw [labelFields_of_some hr] at h
      obtain ⟨x,-,rfl⟩ := List.mem_map.mp h
      exact (Binary.plain_text x).1
    · rw [labelFields_of_none hr] at h
      rw [List.eq_of_mem_replicate h]
      rfl

/-- What a line is made of: the time of its candle, all columns, and the excursions. These are
filled in if the candle has them and empty if not. -/
structure IsLine (labels : Option Labels) (i : Nat) (c : Candle) (fields : List (List Char)) :
    Prop where
  time : fields[0]? = some (timeText c).toList
  columns : ∃ values, Column.row? Column.all c = some values ∧
    (fields.drop 1).take 17 = values.map fun x => (Binary.plain.text x).toList
  excursions : ∀ l ∈ labels, ∀ r, l.ranges[i]? = some (some r) →
    fields.drop 18 = r.toList.map fun x => (Binary.plain.text x).toList
  filled : ∀ l ∈ labels,
    (∀ f ∈ fields.drop 18, f ≠ []) ↔ ∃ r, l.ranges[i]? = some (some r)
  blank : ∀ l ∈ labels,
    (¬ ∃ r, l.ranges[i]? = some (some r)) → ∀ f ∈ fields.drop 18, f = []

lemma isSome_fields? (hdelta : c.delta?.isSome) (labels : Option Labels) (i : Nat) :
    (fields? labels i c).isSome := by
  have hrow : ∃ values, Column.row? Column.all c = some values :=
    Column.exists_row? fun _ => hdelta
  obtain ⟨values,hvalues⟩ := hrow
  rw [fields?, hvalues]
  rfl

section
variable (h : fields? labels i c = some fs)
include h

lemma exists_values : ∃ values, Column.row? Column.all c = some values ∧ values.length = 17 ∧
    fs = timeText c :: values.map Binary.plain.text ++ labelFields labels i := by
  rw [fields?, Option.map_eq_some_iff] at h
  obtain ⟨values,hvalues,rfl⟩ := h
  exact ⟨values,hvalues,Column.length_of_row? hvalues,rfl⟩

lemma length_of_fields? (hlabels : ∀ l ∈ labels, l.GoWith candles) :
    fs.length = 18 + labelWidth labels := by
  obtain ⟨values,-,hlength,rfl⟩ := exists_values h
  rw [List.length_append, List.length_cons, List.length_map, hlength, length_labelFields hlabels]

lemma needsQuotes_of_fields? {s : String} (hs : s ∈ fs) : needsQuotes s.toList = false := by
  obtain ⟨values,-,-,rfl⟩ := exists_values h
  simp only [List.cons_append, List.mem_cons, List.mem_append, List.mem_map] at hs
  obtain rfl | ⟨x,-,rfl⟩ | hs := hs
  exacts [needsQuotes_timeText c,(Binary.plain_text x).1,needsQuotes_of_mem_labelFields hs]

lemma isPlain_of_fields? : IsPlain (fs.map String.toList) := by
  refine .of_strings (fun _ => needsQuotes_of_fields? h) ?_
  obtain ⟨values,-,hlength,rfl⟩ := exists_values h
  simp [hlength]

lemma drop_of_fields? :
    (fs.map String.toList).drop 18 = (labelFields labels i).map String.toList := by
  obtain ⟨values,-,hlength,rfl⟩ := exists_values h
  rw [← List.map_drop, List.drop_left' (by simp [hlength])]

lemma take_of_fields? : ∃ values, Column.row? Column.all c = some values ∧
    ((fs.map String.toList).drop 1).take 17 =
      values.map fun x => (Binary.plain.text x).toList := by
  obtain ⟨values,hvalues,hlength,rfl⟩ := exists_values h
  have hcut : (timeText c :: values.map Binary.plain.text ++ labelFields labels i).drop 1 =
      values.map Binary.plain.text ++ labelFields labels i := rfl
  refine ⟨values,hvalues,?_⟩
  rw [← List.map_drop, hcut, ← List.map_take, List.take_left' (by simp [hlength]), List.map_map]
  rfl

lemma isLine_of_fields? (hlabels : ∀ l ∈ labels, l.GoWith candles) :
    IsLine labels i c (fs.map String.toList) where
  time := by
    obtain ⟨values,-,-,rfl⟩ := exists_values h
    rfl
  columns := take_of_fields? h
  excursions := by
    rintro l rfl r hr
    rw [drop_of_fields? h, map_labelFields_of_some hr]
  filled := by
    rintro l rfl
    rw [drop_of_fields? h]
    refine ⟨fun hfilled => ?_,?_⟩
    · by_contra hr
      have hpos : 0 < ((labelFields (some l) i).map String.toList).length := by
        rw [List.length_map, length_labelFields hlabels]
        exact Nat.mul_pos (by decide) (hlabels l rfl).1
      obtain ⟨f,hf⟩ := List.exists_mem_of_length_pos hpos
      exact hfilled f hf (eq_nil_of_mem_labelFields hr f hf)
    · rintro ⟨r,hr⟩
      rw [map_labelFields_of_some hr, List.forall_mem_map]
      exact fun x _ => (Binary.plain_text x).2
  blank := by
    rintro l rfl hr
    rw [drop_of_fields? h]
    exact eq_nil_of_mem_labelFields hr

end

/-- The rows are there if all candles have fields, as many as the header. -/
lemma rows_eq_ok {table : List (List String)}
    (h : List.Forall₂ (fun ci fs => fields? labels ci.2 ci.1 = some fs) (candles.zipIdx i) table)
    (hwidth : ∀ fs ∈ table, fs.length = width) :
    rows labels width i candles = .ok (table.map row) := by
  induction candles generalizing i table with
  | nil =>
    cases h
    rfl
  | cons c rest ih =>
    cases h with
    | cons hfs hrest =>
      rw [List.forall_mem_cons] at hwidth
      rw [rows, hfs]
      dsimp only
      rw [if_pos hwidth.1, ih hrest hwidth.2]
      rfl

lemma text_eq_ok {rs : List String} (hmemory : ∀ l ∈ labels, l.horizon < FutureRange.horizonLimit)
    (hrows : rows labels (header labels).length 0 candles = .ok rs) :
    text candles labels = .ok (String.join (row (header labels) :: rs)) := by
  have hheld : labels.any (FutureRange.horizonLimit ≤ ·.horizon) = false := by
    cases labels with
    | none => rfl
    | some l => simpa using hmemory l rfl
  rw [text, hheld]
  simp only [hrows]
  rfl

lemma horizon_lt_of_text (h : text candles labels = .ok t) :
    ∀ l ∈ labels, l.horizon < FutureRange.horizonLimit := by
  rintro l rfl
  by_contra hl
  have hheld : (some l).any (FutureRange.horizonLimit ≤ ·.horizon) = true := by simpa using hl
  rw [text, hheld] at h
  cases h

/-- The characters of a line, if nothing in it is quoted. -/
def lineChars (fs : List String) : List Char := joined [','] (fs.map String.toList)

/-- A table of candles, line by line: the header, then a line for each candle in their order, all of
one width. -/
structure IsTable (labels : Option Labels) (candles : List Candle) (head : List Char)
    (lines : List (List Char)) : Prop where
  header : pieces ',' head = (header labels).map String.toList
  width : ∀ line ∈ head :: lines, (pieces ',' line).length = 18 + labelWidth labels
  lines : List.Forall₂ (fun ci line => IsLine labels ci.2 ci.1 (pieces ',' line)) candles.zipIdx
    lines

/-- The table of some candles is a header and one line for each of them, in their order, and
nothing is quoted in it: between the commas of every line stand as many fields as the header has.
Such a table is written unless there are more columns than memory holds. -/
theorem text_isTable (hdelta : ∀ c ∈ candles, c.delta?.isSome)
    (hlabels : ∀ l ∈ labels, l.GoWith candles) :
    ((∃ t, text candles labels = .ok t) ↔ ∀ l ∈ labels, l.horizon < FutureRange.horizonLimit) ∧
    ∀ t, text candles labels = .ok t →
      ∃ head lines, pieces '\n' t.toList = head :: lines ++ [[]] ∧
        IsTable labels candles head lines := by
  obtain ⟨table,htable⟩ : ∃ table, candles.zipIdx.mapM (fun ci => fields? labels ci.2 ci.1) =
      some table := exists_mapM_eq_some fun ci hci =>
    isSome_fields? (hdelta ci.1 (List.fst_mem_of_mem_zipIdx hci)) labels ci.2
  rw [mapM_eq_some_iff] at htable
  have hwidth : ∀ fs ∈ table, fs.length = (header labels).length := fun fs hfs => by
    obtain ⟨ci,-,h⟩ := exists_of_forall₂ htable hfs
    rw [length_of_fields? h hlabels, length_header]
  have hrows := rows_eq_ok htable hwidth
  refine ⟨⟨fun ⟨t,ht⟩ => horizon_lt_of_text ht,fun hmemory => ⟨_,text_eq_ok hmemory hrows⟩⟩,
    fun t ht => ?_⟩
  obtain rfl := Except.ok.inj (ht.symm.trans (text_eq_ok (horizon_lt_of_text ht) hrows))
  have hplain : ∀ fs ∈ header labels :: table, IsPlain (fs.map String.toList) := by
    refine List.forall_mem_cons.mpr ⟨isPlain_header labels,fun fs hfs => ?_⟩
    obtain ⟨ci,-,h⟩ := exists_of_forall₂ htable hfs
    exact isPlain_of_fields? h
  refine ⟨lineChars (header labels),table.map lineChars,?_,?_,?_,?_⟩
  · rw [← List.map_cons, toList_join_rows, pieces_rows (List.forall_mem_map.mpr hplain),
      List.map_map]
    rfl
  · exact (isPlain_header labels).pieces_comma
  · rw [← List.map_cons, List.forall_mem_map]
    intro fs hfs
    rw [lineChars, (hplain fs hfs).pieces_comma, List.length_map]
    rcases List.mem_cons.mp hfs with rfl | hmem
    · exact length_header labels
    · rw [hwidth fs hmem, length_header]
  · rw [List.forall₂_map_right_iff]
    refine htable.imp fun ci fs h => ?_
    rw [lineChars, (isPlain_of_fields? h).pieces_comma]
    exact isLine_of_fields? h hlabels

/-- A candle a minute at rising prices. -/
def risingCandles : List Candle :=
  [1, 2, 3].map fun n =>
    let price := (Decimal.of? n 0).getD .zero
    .flat (60000 * n) .oneMinute price price

/-- Only the first candle is given its excursions. -/
def cutLabels : Labels := ⟨(FutureRange.build 2 risingCandles).take 1,2⟩

theorem text_isTable_cut :
    (∀ c ∈ risingCandles, c.delta?.isSome) ∧ cutLabels.GoWith risingCandles ∧
    ∃ t head first second third, text risingCandles (some cutLabels) = .ok t ∧
      pieces '\n' t.toList = [head, first, second, third, []] ∧
      (∀ line ∈ [head, first, second, third], (pieces ',' line).length = 22) ∧
      (∀ f ∈ (pieces ',' first).drop 18, f ≠ []) ∧
      (∀ f ∈ (pieces ',' second).drop 18, f = []) ∧ (∀ f ∈ (pieces ',' third).drop 18, f = []) := by
  have hdelta : ∀ c ∈ risingCandles, c.delta?.isSome := by decide +kernel
  have hlabels : cutLabels.GoWith risingCandles := ⟨by decide,List.take_prefix _ _⟩
  obtain ⟨hwritten,htable⟩ := @text_isTable (some cutLabels) risingCandles hdelta
    fun l hl => Option.some.inj hl ▸ hlabels
  obtain ⟨t,ht⟩ := hwritten.mpr fun l hl => Option.some.inj hl ▸ by decide
  obtain ⟨head,lines,hpieces,h⟩ := htable t ht
  have hlines := h.lines
  change List.Forall₂ _ [(_,0),(_,1),(_,2)] lines at hlines
  obtain ⟨first,_,hfirst,hlater,rfl⟩ := List.forall₂_cons_left_iff.mp hlines
  obtain ⟨second,_,hsecond,hlast,rfl⟩ := List.forall₂_cons_left_iff.mp hlater
  obtain ⟨third,_,hthird,hnone,rfl⟩ := List.forall₂_cons_left_iff.mp hlast
  obtain rfl := List.forall₂_nil_left_iff.mp hnone
  exact ⟨hdelta,hlabels,t,head,first,second,third,ht,hpieces,h.width,
    (hfirst.filled cutLabels rfl).mpr ⟨_,rfl⟩,hsecond.blank cutLabels rfl nofun,
    hthird.blank cutLabels rfl nofun⟩

end CandleTable
end OrderFlow
