import Mathlib.Data.List.TakeWhile
import OrderFlow.Proofs.Text.Digits
import OrderFlow.Text.Blank

/-! Blanks around a text. What is written without blanks is what is left when blanks are put around
it and the text is trimmed. -/
namespace OrderFlow.Text
variable {c : Char} {cs before after : List Char}

lemma isBlank_of_isDigit (h : isDigit c = true) : isBlank c = false := by
  rw [isDigit_iff] at h
  simp only [isBlank, Bool.or_eq_false_iff, Bool.and_eq_false_iff, decide_eq_false_iff_not]
  omega

/-- Blanks put around a text do not change what is left when it is trimmed. -/
theorem trimmed_append (hbefore : ∀ c ∈ before, isBlank c = true)
    (hafter : ∀ c ∈ after, isBlank c = true) : trimmed (before ++ cs ++ after) = trimmed cs := by
  rw [trimmed, trimmed, List.append_assoc, List.dropWhile_append_of_pos hbefore,
    List.dropWhile_append]
  split_ifs with hempty
  · rw [List.dropWhile_eq_nil_iff.mpr hafter, List.isEmpty_iff.mp hempty]
  · have hafter' : ∀ c ∈ after.reverse, isBlank c = true := fun c hc =>
      hafter c (List.mem_reverse.mp hc)
    rw [List.reverse_append, List.dropWhile_append_of_pos hafter']

/-- A text without blanks at its ends is what is left of it. -/
lemma trimmed_of_ends (hhead : ∀ c ∈ cs.head?, isBlank c = false)
    (hlast : ∀ c ∈ cs.getLast?, isBlank c = false) : trimmed cs = cs := by
  have hkept (ds : List Char) (hds : ∀ c ∈ ds.head?, isBlank c = false) :
      ds.dropWhile isBlank = ds := by
    cases ds with
    | nil => rfl
    | cons d r => simp [hds d rfl]
  rw [trimmed, hkept cs hhead, hkept _ (by simpa using hlast), List.reverse_reverse]

lemma trimmed_of_forall (hcs : ∀ c ∈ cs, isBlank c = false) : trimmed cs = cs :=
  trimmed_of_ends (fun c hc => hcs c (List.mem_of_head? hc))
    fun c hc => hcs c (List.mem_of_getLast? hc)

/-- Blanks on both sides of a text without blanks are taken away. -/
theorem trimmed_padded (hbefore : ∀ c ∈ before, isBlank c = true)
    (hafter : ∀ c ∈ after, isBlank c = true) (hcs : ∀ c ∈ cs, isBlank c = false) :
    trimmed (before ++ cs ++ after) = cs := by
  rw [trimmed_append hbefore hafter, trimmed_of_forall hcs]

end OrderFlow.Text
