import OrderFlow.Feature.Column
import OrderFlow.Proofs.Text.Blanks
import OrderFlow.Proofs.Text.Pieces
import OrderFlow.Proofs.Traversal

/-! Columns listed by name. A list of columns is read back from its names, however they are spaced
out, and a text that is no such list is refused for the first of its items that is no name. -/
namespace OrderFlow.Column
open Text
variable {c : Column} {columns : List Column} {written : List (List Char)} {s : String} {e : Cause}

lemma ofName?_eq_some_iff : ofName? s = some c ↔ c.name = s := by
  constructor
  · intro h
    rw [ofName?] at h
    have hname := List.find?_some h
    exact eq_of_beq hname
  · rintro rfl
    exact ofName?_name c

lemma ofName_eq_ok_iff : ofName s = .ok c ↔ c.name = s := by
  rw [← ofName?_eq_some_iff, ofName]
  cases ofName? s <;> simp

/-- A text that is no name is the complaint itself. -/
lemma ofName_eq_error_iff :
    ofName s = .error e ↔ (∀ c : Column, c.name ≠ s) ∧ e = .unknownColumn s := by
  simp only [ne_eq, ← ofName?_eq_some_iff, ofName]
  cases ofName? s <;> simp [eq_comm]

/-- A text lists some columns exactly if its items are their names. -/
theorem parseList_eq_ok_iff : parseList s = .ok columns ↔ items s = columns.map name := by
  rw [parseList, mapM_eq_ok_iff]
  simp only [ofName_eq_ok_iff]
  rw [← List.forall₂_eq_eq_eq, List.forall₂_map_right_iff]
  simp only [eq_comm]

theorem parseList_eq_error_iff : parseList s = .error e ↔
    ∃ before item after, items s = before ++ item :: after ∧
      (∀ known ∈ before, ∃ c : Column, c.name = known) ∧ (∀ c : Column, c.name ≠ item) ∧
      e = .unknownColumn item := by
  simp only [parseList, mapM_eq_error_iff, ofName_eq_ok_iff, ofName_eq_error_iff]

/-- A list of columns is refused exactly if one of its items is no name. -/
lemma exists_parseList_eq_error_iff :
    (∃ e, parseList s = .error e) ↔ ∃ item ∈ items s, ∀ c : Column, c.name ≠ item := by
  constructor
  · rintro ⟨e,h⟩
    obtain ⟨before,item,after,hitems,-,hitem,-⟩ := parseList_eq_error_iff.mp h
    exact ⟨item,by simp [hitems],hitem⟩
  · rintro ⟨item,hmem,hitem⟩
    cases h : parseList s with
    | error e => exact ⟨e,rfl⟩
    | ok columns =>
      rw [parseList_eq_ok_iff.mp h] at hmem
      obtain ⟨c,-,hc⟩ := List.mem_map.mp hmem
      exact absurd hc (hitem c)

/-- A name has neither blanks nor commas in it, and is not empty. -/
lemma name_chars (c : Column) :
    (∀ d ∈ c.name.toList, isBlank d = false ∧ d ≠ ',') ∧ c.name.toList ≠ [] := by
  have hall : c.name.toList.all (fun d => !isBlank d && d != ',') = true := by cases c <;> decide
  refine ⟨fun d hd => ?_,by cases c <;> decide⟩
  simpa using List.all_eq_true.mp hall d hd

/-- The items of a list as they may be written: the names of its columns in their order, each with
blanks around it or without, and between them any number of items that are blank. -/
inductive Spells : List Column → List (List Char) → Prop
  | nil : Spells [] []
  | blank {columns : List Column} {written : List (List Char)} {blanks : List Char}
      (isBlank : ∀ d ∈ blanks, isBlank d = true) (rest : Spells columns written) :
      Spells columns (blanks :: written)
  | name {columns : List Column} {written : List (List Char)} {before after : List Char}
      (c : Column) (isBlankBefore : ∀ d ∈ before, isBlank d = true)
      (isBlankAfter : ∀ d ∈ after, isBlank d = true) (rest : Spells columns written) :
      Spells (c :: columns) ((before ++ c.name.toList ++ after) :: written)

namespace Spells

lemma comma_not_mem (h : Spells columns written) : ∀ item ∈ written, ',' ∉ item := by
  have hblank {blanks : List Char} (h : ∀ d ∈ blanks, Text.isBlank d = true) : ',' ∉ blanks :=
    fun hcomma => absurd (h ',' hcomma) (by decide)
  induction h with
  | nil => nofun
  | blank isBlank _ ih => exact List.forall_mem_cons.mpr ⟨hblank isBlank,ih⟩
  | name c isBlankBefore isBlankAfter _ ih =>
    refine List.forall_mem_cons.mpr ⟨?_,ih⟩
    rw [List.mem_append, List.mem_append, not_or, not_or]
    exact ⟨⟨hblank isBlankBefore,fun hcomma => ((name_chars c).1 _ hcomma).2 rfl⟩,
      hblank isBlankAfter⟩

/-- What is left of the items without blanks is the names. -/
lemma names (h : Spells columns written) :
    ((written.map trimmed).filter (!·.isEmpty)).map String.ofList = columns.map Column.name := by
  induction h with
  | nil => rfl
  | @blank columns written blanks isBlank _ ih =>
    have htrimmed : trimmed (blanks ++ [] ++ []) = [] :=
      trimmed_padded isBlank (List.forall_mem_nil _) (List.forall_mem_nil _)
    rw [List.append_nil, List.append_nil] at htrimmed
    rw [List.map_cons, htrimmed, List.filter_cons_of_neg (by simp), ih]
  | name c isBlankBefore isBlankAfter _ ih =>
    obtain ⟨hchars,hne⟩ := name_chars c
    rw [List.map_cons, trimmed_padded isBlankBefore isBlankAfter fun d hd => (hchars d hd).1,
      List.filter_cons_of_pos (by simpa using hne), List.map_cons, ih, String.ofList_toList,
      List.map_cons]

/-- The items joined by commas are a list of the columns. -/
theorem parseList_eq (h : Spells columns written) (hs : s.toList = joined [','] written) :
    parseList s = .ok columns := by
  rw [parseList_eq_ok_iff, items, hs]
  by_cases hne : written = []
  · subst hne
    cases h
    rfl
  · rw [pieces_joined hne h.comma_not_mem, h.names]

/-- Names alone, one after the other. -/
lemma ofNames (columns : List Column) : Spells columns (columns.map fun c => c.name.toList) := by
  induction columns with
  | nil => exact .nil
  | cons c columns ih =>
    have h := name c (List.forall_mem_nil _) (List.forall_mem_nil _) ih
    rwa [List.nil_append, List.append_nil] at h

end Spells

lemma toList_joinNames (names : List String) :
    (joinNames names).toList = joined [','] (names.map String.toList) := by
  rw [joinNames, String.toList_intercalate]
  induction names with
  | nil => rfl
  | cons n names ih => cases names <;> simp_all [joined]

/-- A list of columns is read back from its names joined by commas, with any blanks around them and
any blank items between them. A text is refused exactly if one of its items is no name, and the
complaint is about the first of these. -/
theorem parseList_inverts :
    (∀ columns written s, Spells columns written → s.toList = joined [','] written →
      parseList s = .ok columns) ∧
    (∀ columns : List Column, parseList (joinNames (columns.map name)) = .ok columns) ∧
    (∀ s, (∃ e, parseList s = .error e) ↔ ∃ item ∈ items s, ∀ c : Column, c.name ≠ item) ∧
    ∀ s e, parseList s = .error e ↔ ∃ before item after, items s = before ++ item :: after ∧
      (∀ known ∈ before, ∃ c : Column, c.name = known) ∧ (∀ c : Column, c.name ≠ item) ∧
      e = .unknownColumn item := by
  refine ⟨fun columns written s h hs => h.parseList_eq hs,fun columns => ?_,
    fun s => exists_parseList_eq_error_iff,fun s e => parseList_eq_error_iff⟩
  refine (Spells.ofNames columns).parseList_eq ?_
  rw [toList_joinNames, List.map_map]
  rfl

/-- A list with blanks of several kinds, blank items and a column twice. -/
def spacedList : List (List Char) :=
  [[], " close ".toList, ['\t'], "vwap\n".toList, "\u00A0close".toList, []]

theorem parseList_inverts_spaced :
    Spells [closePrice, vwap, closePrice] spacedList ∧
    parseList ", close ,\t,vwap\n,\u00A0close," = .ok [closePrice, vwap, closePrice] ∧
    parseList "close, rsi ,ema" = .error (.unknownColumn "rsi") := by
  have hblank {d : Char} (h : isBlank d = true) : ∀ c ∈ [d], isBlank c = true :=
    List.forall_mem_singleton.mpr h
  have hnone : ∀ c ∈ ([] : List Char), isBlank c = true := List.forall_mem_nil _
  have hlast : Spells [closePrice] ["\u00A0close".toList, []] :=
    @Spells.name _ _ ['\u00A0'] [] closePrice (hblank rfl) hnone (.blank hnone .nil)
  have hlater : Spells [vwap, closePrice] ("vwap\n".toList :: _) :=
    @Spells.name _ _ [] ['\n'] vwap hnone (hblank rfl) hlast
  have h : Spells [closePrice, vwap, closePrice] spacedList :=
    .blank hnone <| @Spells.name _ _ [' '] [' '] closePrice (hblank rfl) (hblank rfl) <|
      .blank (hblank rfl) hlater
  obtain ⟨hspaced,-,-,hunknown⟩ := parseList_inverts
  refine ⟨h,hspaced _ _ _ h (by decide +kernel),(hunknown _ _).mpr ?_⟩
  refine ⟨["close"],"rsi",["ema"],by decide +kernel,?_,?_,rfl⟩
  · exact List.forall_mem_singleton.mpr ⟨closePrice,rfl⟩
  · intro c
    cases c <;> decide

end OrderFlow.Column
