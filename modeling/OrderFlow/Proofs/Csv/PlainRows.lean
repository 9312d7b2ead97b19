import Mathlib.Data.List.Basic
import OrderFlow.Proofs.Csv.RoundTrip
import OrderFlow.Proofs.Text.Digits

/-! Rows without quotes. Where no field asks for them the rows are the lines of their text, and the
fields of a row stand between its commas. -/
namespace OrderFlow.Csv
open Text
variable {f : List Char} {fields : List (List Char)} {rows : List (List (List Char))}

@[simp] lemma needsQuotes_nil : needsQuotes [] = false := rfl

@[simp] lemma needsQuotes_cons (c : Char) (f : List Char) :
    needsQuotes (c :: f) = (isSpecial c || needsQuotes f) := rfl

@[simp] lemma needsQuotes_append (f g : List Char) :
    needsQuotes (f ++ g) = (needsQuotes f || needsQuotes g) := List.any_append

lemma needsQuotes_of_isDigit (h : ∀ c ∈ f, isDigit c = true) : needsQuotes f = false := by
  refine List.any_eq_false.mpr fun c hc hspecial => ?_
  have hmark : ((c = ',' ∨ c = '"') ∨ c = '\n') ∨ c = '\r' := by simpa using hspecial
  rcases hmark with ((rfl | rfl) | rfl) | rfl <;> exact absurd (h _ hc) (by decide)

@[simp] lemma needsQuotes_natDigits (n : Nat) : needsQuotes (natDigits n) = false :=
  needsQuotes_of_isDigit fun _ => isDigit_of_mem_natDigits

@[simp] lemma needsQuotes_paddedDigits (w n : Nat) : needsQuotes (paddedDigits w n) = false :=
  needsQuotes_of_isDigit fun _ => isDigit_of_mem_paddedDigits

lemma needsQuotes_append_natText {mark : String} (h : needsQuotes mark.toList = false) {n : Nat} :
    needsQuotes (mark ++ natText n).toList = false := by
  rw [String.toList_append, needsQuotes_append, h, natText, String.toList_ofList,
    needsQuotes_natDigits]
  rfl

lemma not_mem_of_needsQuotes (h : needsQuotes f = false) : ',' ∉ f ∧ '\n' ∉ f :=
  ⟨fun hc => absurd (not_isSpecial (by simp [h]) _ hc) (by decide),
    fun hc => absurd (not_isSpecial (by simp [h]) _ hc) (by decide)⟩

/-- A row that is written without quotes. It has more than one field, which could be empty. -/
structure IsPlain (fields : List (List Char)) : Prop where
  unquoted : ∀ f ∈ fields, needsQuotes f = false
  wide : 1 < fields.length

namespace IsPlain

lemma of_strings {fs : List String} (h : ∀ s ∈ fs, needsQuotes s.toList = false)
    (hwide : 1 < fs.length) : IsPlain (fs.map String.toList) :=
  ⟨List.forall_mem_map.mpr h,by rwa [List.length_map]⟩

lemma ne_nil (h : IsPlain fields) : fields ≠ [] := List.length_pos_iff.mp (by have := h.wide; omega)

lemma rowChars_eq (h : IsPlain fields) : rowChars fields = joined [','] fields ++ ['\n'] := by
  have hone : fields ≠ [[]] := by
    rintro rfl
    exact absurd h.wide (by decide)
  have hfields : fields.map fieldChars = fields :=
    (List.map_congr_left fun f hf => if_neg (by simp [h.unquoted f hf])).trans (List.map_id _)
  rw [rowChars, if_neg hone, hfields]

/-- The fields are what stands between the commas. -/
lemma pieces_comma (h : IsPlain fields) : pieces ',' (joined [','] fields) = fields :=
  pieces_joined h.ne_nil fun f hf => (not_mem_of_needsQuotes (h.unquoted f hf)).1

lemma newline_not_mem (h : IsPlain fields) : '\n' ∉ joined [','] fields :=
  not_mem_joined (by decide) fun f hf => (not_mem_of_needsQuotes (h.unquoted f hf)).2

end IsPlain

/-- Each row is a line, and nothing comes after the last. -/
theorem pieces_rows (h : ∀ fields ∈ rows, IsPlain fields) :
    pieces '\n' (rows.flatMap rowChars) = rows.map (joined [',']) ++ [[]] := by
  have hrows : rows.flatMap rowChars = (rows.map (joined [','])).flatMap (· ++ ['\n']) := by
    rw [List.flatMap_map]
    exact List.flatMap_congr fun fields hfields => (h fields hfields).rowChars_eq
  rw [hrows, pieces_ended]
  rintro _ hline
  obtain ⟨fields,hfields,rfl⟩ := List.mem_map.mp hline
  exact (h fields hfields).newline_not_mem

end OrderFlow.Csv
