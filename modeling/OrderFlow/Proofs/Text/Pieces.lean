import Mathlib.Tactic.Lemma
import OrderFlow.Text.Blank

/-! Texts as pieces between separators. Pieces hold no separator, and joining them gives back the
text that they were cut from. -/
namespace OrderFlow.Text
variable {c d : Char} {cs es r : List Char} {ps qs : List (List Char)}

lemma pieces_of_not_mem (h : c ∉ es) : pieces c es = [es] := by
  induction es with
  | nil => rfl
  | cons e rest ih =>
    rw [List.mem_cons, not_or] at h
    rw [pieces, if_neg (Ne.symm h.1), ih h.2]

/-- What is appended without a separator extends the last piece. -/
theorem exists_pieces_append (c : Char) (cs : List Char) :
    ∃ init last, ∀ es, c ∉ es → pieces c (cs ++ es) = init ++ [last ++ es] := by
  induction cs with
  | nil => exact ⟨[],[],fun es h => pieces_of_not_mem h⟩
  | cons d cs ih =>
    obtain ⟨init,last,h⟩ := ih
    by_cases hd : d = c
    · refine ⟨[] :: init,last,fun es hes => ?_⟩
      rw [List.cons_append, pieces, if_pos hd, h es hes, List.cons_append]
    · cases init with
      | nil =>
        refine ⟨[],d :: last,fun es hes => ?_⟩
        simp [pieces, hd, h es hes]
      | cons first init =>
        refine ⟨(d :: first) :: init,last,fun es hes => ?_⟩
        simp [pieces, hd, h es hes]

lemma pieces_cons_self (c : Char) (r : List Char) : pieces c (c :: r) = [] :: pieces c r := by
  rw [pieces, if_pos rfl]

/-- A character that separates nothing begins the first piece. -/
lemma exists_pieces_cons (hd : d ≠ c) (r : List Char) :
    ∃ first rest, pieces c r = first :: rest ∧ pieces c (d :: r) = (d :: first) :: rest := by
  obtain ⟨first,rest,hr⟩ := List.exists_cons_of_ne_nil (pieces_ne_nil c r)
  refine ⟨first,rest,hr,?_⟩
  rw [pieces, if_neg hd, hr]

lemma not_mem_of_mem_pieces (h : es ∈ pieces c cs) : c ∉ es := by
  induction cs generalizing es with
  | nil =>
    rw [pieces, List.mem_singleton] at h
    simp [h]
  | cons d r ih =>
    by_cases hd : d = c
    · rw [hd, pieces_cons_self, List.mem_cons] at h
      rcases h with rfl | h
      · simp
      · exact ih h
    · obtain ⟨first,rest,hr,hcons⟩ := exists_pieces_cons hd r
      rw [hr] at ih
      rw [hcons, List.mem_cons] at h
      rcases h with rfl | h
      · rw [List.mem_cons, not_or]
        exact ⟨Ne.symm hd,ih List.mem_cons_self⟩
      · exact ih (List.mem_cons_of_mem _ h)

lemma joined_cons (separator es : List Char) (h : ps ≠ []) :
    joined separator (es :: ps) = es ++ separator ++ joined separator ps := by
  obtain ⟨first,rest,rfl⟩ := List.exists_cons_of_ne_nil h
  rfl

lemma joined_append (separator : List Char) (hps : ps ≠ []) (hqs : qs ≠ []) :
    joined separator (ps ++ qs) = joined separator ps ++ separator ++ joined separator qs := by
  induction ps with
  | nil => exact absurd rfl hps
  | cons es ps ih =>
    cases ps with
    | nil => exact joined_cons separator es hqs
    | cons first rest =>
      rw [List.cons_append, joined_cons _ _ (by simp), ih (by simp), joined_cons _ es (by simp)]
      simp only [List.append_assoc]

/-- The pieces of a text make it up. -/
theorem joined_pieces (c : Char) (cs : List Char) : joined [c] (pieces c cs) = cs := by
  induction cs with
  | nil => rfl
  | cons d r ih =>
    by_cases hd : d = c
    · rw [hd, pieces_cons_self, joined_cons _ _ (pieces_ne_nil c r), ih]
      rfl
    · obtain ⟨first,rest,hr,hcons⟩ := exists_pieces_cons hd r
      rw [hr] at ih
      rw [hcons, ← ih]
      cases rest <;> rfl

/-- A text is cut at a separator whatever stands on both sides of it. -/
theorem pieces_append_separator (c : Char) (cs r : List Char) :
    pieces c (cs ++ c :: r) = pieces c cs ++ pieces c r := by
  induction cs with
  | nil => exact pieces_cons_self c r
  | cons d cs ih =>
    by_cases hd : d = c
    · rw [hd, List.cons_append, pieces_cons_self, pieces_cons_self, ih, List.cons_append]
    · obtain ⟨first,rest,hcs,hcons⟩ := exists_pieces_cons hd cs
      rw [List.cons_append, hcons, pieces, if_neg hd, ih, hcs]
      rfl

/-- A piece and its separator are cut off as they were. -/
lemma pieces_append_cons (hes : c ∉ es) (r : List Char) :
    pieces c (es ++ c :: r) = es :: pieces c r := by
  rw [pieces_append_separator, pieces_of_not_mem hes, List.singleton_append]

/-- What is joined without separators of its own is cut into the same pieces. -/
theorem pieces_joined (hps : ps ≠ []) (h : ∀ es ∈ ps, c ∉ es) : pieces c (joined [c] ps) = ps := by
  induction ps with
  | nil => exact absurd rfl hps
  | cons es ps ih =>
    have hes := h es List.mem_cons_self
    cases ps with
    | nil => exact pieces_of_not_mem hes
    | cons first rest =>
      rw [joined_cons _ _ (by simp), List.append_assoc, List.singleton_append,
        pieces_append_cons hes, ih (by simp) fun p hp => h p (List.mem_cons_of_mem _ hp)]

/-- What ends with separators is cut at each of them, with nothing after the last. -/
lemma pieces_ended (h : ∀ es ∈ ps, c ∉ es) : pieces c (ps.flatMap (· ++ [c])) = ps ++ [[]] := by
  induction ps with
  | nil => rfl
  | cons es ps ih =>
    rw [List.forall_mem_cons] at h
    rw [List.flatMap_cons, List.append_assoc, List.singleton_append, pieces_append_cons h.1, ih h.2]
    rfl

lemma not_mem_joined {separator : List Char} (hseparator : c ∉ separator) (h : ∀ es ∈ ps, c ∉ es) :
    c ∉ joined separator ps := by
  induction ps with
  | nil => exact List.not_mem_nil
  | cons es ps ih =>
    rw [List.forall_mem_cons] at h
    cases ps with
    | nil => exact h.1
    | cons first rest =>
      rw [joined_cons _ _ (by simp), List.mem_append, List.mem_append, not_or, not_or]
      exact ⟨⟨h.1,hseparator⟩,ih h.2⟩

end OrderFlow.Text
