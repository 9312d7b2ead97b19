import OrderFlow.Proofs.Binary.Texts
import OrderFlow.Proofs.Csv.RoundTrip
import OrderFlow.Proofs.Files.Standing
import OrderFlow.Proofs.Traversal
import OrderFlow.Store.Models

/-! Training histories are read as they were written. Every row is read under the header that stands
before the first of them, a missing value from its empty field, and no rows from no text at all. -/
namespace OrderFlow
open Text

namespace History
variable {s : EpochStats} {history : List EpochStats} {n : Nat} {ds : List Char}

lemma isReadable_lossLayout : lossLayout.IsReadable := ⟨.inr rfl,.inl rfl,rfl,rfl⟩

lemma digitsIn?_decimal (hds : ∀ d ∈ ds, isDigit d = true) :
    digitsIn? 10 decimalValue? n ds = some (n * 10 ^ ds.length + digitsValue ds) := by
  induction ds generalizing n with
  | nil => simp [digitsIn?]
  | cons d ds ih =>
    obtain ⟨hd,hds⟩ := List.forall_mem_cons.mp hds
    rw [digitsIn?, decimalValue?, if_pos hd]
    refine (ih hds).trans (congrArg some ?_)
    rw [digitsValue_cons, List.length_cons]
    ring

/-- The number of an epoch is read from its digits. -/
theorem epoch?_natDigits (h : n < wordSize) : epoch? (natDigits n) = some n := by
  have hdigits : ∀ d ∈ natDigits n, isDigit d = true := fun _ => isDigit_of_mem_natDigits
  have hword : wordIn? 10 decimalValue? (natDigits n) = some n := by
    rw [wordIn?]
    · rw [if_neg (by simp [natDigits_ne_nil]), digitsIn?_decimal hdigits, Nat.zero_mul, Nat.zero_add,
        digitsValue_natDigits]
      exact Option.filter_eq_some_iff.mpr ⟨rfl,decide_eq_true h⟩
    · intro rest hplus
      have := hdigits '+' (by rw [hplus]; simp)
      cases this
  rw [epoch?]
  · exact hword
  · intro rest hhexadecimal
    have := hdigits 'x' (by rw [hhexadecimal]; simp)
    cases this

lemma loss?_text (x : Float) : loss? (lossLayout.text x).toList = some x := by
  rw [loss?, String.ofList_toList]
  exact Binary.ofText?_text isReadable_lossLayout x

/-- A missing value is read from an empty field, and no other is. -/
lemma optionalLoss?_optionalText (x : Option Float) :
    optionalLoss? (optionalText x).toList = some x := by
  cases x with
  | none => rfl
  | some x =>
    have hloss := loss?_text x
    have hne : (lossLayout.text x).toList.isEmpty = false := by
      rw [List.isEmpty_eq_false_iff]
      intro hempty
      rw [hempty] at hloss
      cases hloss
    rw [optionalText, Option.elim_some, optionalLoss?, hne, if_neg (by decide), hloss]
    rfl

/-- A row is read under the header as it was written. -/
lemma ofRow?_fields (h : s.epoch < wordSize) :
    ofRow? (columns.map String.toList) ((fields s).map String.toList) = some s := by
  have hepoch : epoch? (natText s.epoch).toList = some s.epoch := by
    rw [natText, String.toList_ofList, epoch?_natDigits h]
  simp [ofRow?, field?, columns, fields, List.lookup, hepoch, loss?_text, optionalLoss?_optionalText]

/-- A history is read from its table. -/
theorem ofText?_text (h : ∀ s ∈ history, s.epoch < wordSize) :
    ofText? (text history) = some history := by
  by_cases hnone : history = []
  · rw [hnone]
    rfl
  have htable : (text history).toList = ((columns.map String.toList) ::
      history.map fun s => (fields s).map String.toList).flatMap Csv.rowChars := by
    have hrows := Csv.toList_join_rows (columns :: history.map fields)
    rw [List.map_cons, List.map_map, List.map_cons, List.map_map] at hrows
    rw [text, if_neg (by simpa using hnone)]
    exact hrows
  have hread : Csv.table? (text history).toList = some (columns.map String.toList,
      history.map fun s => (fields s).map String.toList) := by
    rw [htable]
    refine Csv.table?_rows (by decide) ?_ ?_
    · rintro _ hrow
      obtain ⟨s,-,rfl⟩ := List.mem_map.mp hrow
      rfl
    · have hfirst : (Csv.rowChars (columns.map String.toList)).head? = some 'e' := by decide +kernel
      rw [List.flatMap_cons, List.head?_append, hfirst, Option.some_or]
      decide
  rw [ofText?, hread]
  have hrepeats : repeats (columns.map String.toList) = false := by decide
  have hrows := mapM_map_eq_some (g := ofRow? (columns.map String.toList)) (k := id)
    (f := fun s : EpochStats => (fields s).map String.toList) fun s hs => ofRow?_fields (h s hs)
  rw [List.map_id] at hrows
  simp [hrepeats, hrows]

end History

namespace ModelStore
open Storing
variable {s : ModelStore} {t t' : FileTree} {symbol : String} {history : List EpochStats}

lemma readHistory_of_found (h : ∀ e ∈ history, e.epoch < wordSize)
    (hfound : t.get? (s.path .history symbol) = some (.file (.text (History.text history)))) :
    s.readHistory t symbol = .ok history := by
  simp only [readHistory, hfound, History.ofEntry?, History.ofContent?, Content.text?,
    History.ofText?_text h]

/-- A history can be written where its file takes any content, and can still be written there
afterwards. -/
lemma takes_of_writeHistory (h : Succeeds (s.writeHistory symbol history) t () t') :
    t.Takes (s.path .history symbol) ∧ t'.Takes (s.path .history symbol) := by
  have hwrite := succeeds_change_iff.mp h
  obtain ⟨name,d,hplace,hopen,-⟩ := FileTree.write?_eq_some_iff.mp hwrite
  have htakes := FileTree.takes_iff.mpr ⟨name,d,hplace,hopen⟩
  exact ⟨htakes,(FileTree.sameDirectories_of_write? hwrite).takes htakes⟩

lemma readHistory_of_succeeds (he : ∀ e ∈ history, e.epoch < wordSize)
    (h : Succeeds (s.writeHistory symbol history) t () t') :
    s.readHistory t' symbol = .ok history :=
  readHistory_of_found he (JsonFile.writes_of_create h).found

/-- Wherever the file of a history can be written, the history is read from it as it was written,
and so is every later one in its place. -/
theorem readHistory_writeHistory (s : ModelStore) (t : FileTree) (symbol : String)
    (history : List EpochStats) (h : ∀ e ∈ history, e.epoch < wordSize) :
    ((∃ t', Succeeds (s.writeHistory symbol history) t () t') ↔ t.Takes (s.path .history symbol)) ∧
      ∀ t', Succeeds (s.writeHistory symbol history) t () t' →
        s.readHistory t' symbol = .ok history ∧
          ∀ later : List EpochStats, (∀ e ∈ later, e.epoch < wordSize) →
            ∃ t'', Succeeds (s.writeHistory symbol later) t' () t'' ∧
              s.readHistory t'' symbol = .ok later := by
  refine ⟨⟨fun ⟨t',ht'⟩ => (takes_of_writeHistory ht').1,fun h => JsonFile.exists_create h _⟩,
    fun t' ht' => ⟨readHistory_of_succeeds h ht',fun later hlater => ?_⟩⟩
  obtain ⟨t'',ht''⟩ := JsonFile.exists_create (takes_of_writeHistory ht').2
    (.text (History.text later))
  exact ⟨t'',ht'',readHistory_of_succeeds hlater ht''⟩

/-- A history with missing and infinite values, and no epochs at all after it. -/
theorem readHistory_writeHistory_partial :
    let s := ModelStore.mk "models"
    let history : List EpochStats := [⟨2 ^ 64 - 1,0.1,none,some (Binary.infinity true)⟩,
      ⟨0,1e300,some 5e-324,none⟩]
    ∃ t t',
      Succeeds (s.writeHistory "BTC" history) (FileTree.empty.makeDirectories "models").2 () t ∧
      s.readHistory t "BTC" = .ok history ∧ Succeeds (s.writeHistory "BTC" []) t () t' ∧
      s.readHistory t' "BTC" = .ok [] := by
  intro s history
  obtain ⟨hsucceeds,hreads⟩ := readHistory_writeHistory s
    (FileTree.empty.makeDirectories "models").2 "BTC" history (by decide)
  obtain ⟨t,ht⟩ := hsucceeds.mpr (FileTree.takes_iff.mpr
    ⟨"BTC_history.csv",["models"],by decide +kernel,by decide +kernel,by decide +kernel,
      by decide +kernel⟩)
  obtain ⟨hread,hlater⟩ := hreads t ht
  obtain ⟨t',ht',hnone⟩ := hlater [] nofun
  exact ⟨t,t',ht,hread,ht',hnone⟩

end ModelStore

end OrderFlow
