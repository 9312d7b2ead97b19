import OrderFlow.Proofs.Files.Siblings

/-! The directory above a file. Its path is the beginning of the file's path, so it is usable where
that is, and its names lead along the same way. -/
namespace OrderFlow

namespace Path
variable {p q : Path} {names dropped : List (List Char)} {n : List Char}

lemma settled_of_long (hn : 2 < n.length) (rest : List (List Char)) :
    settled (n :: rest) = n :: rest := by
  cases rest with
  | nil => rfl
  | cons m rest =>
    rw [settled, if_neg]
    · rintro (rfl | rfl) <;> simp at hn
    · simp

/-- Settling drops names from the end, but never all of them. -/
lemma exists_settled (h : names ≠ []) :
    settled names ≠ [] ∧ ∃ dropped, names = dropped ++ settled names := by
  induction names with
  | nil => exact absurd rfl h
  | cons n rest ih =>
    cases rest with
    | nil => exact ⟨by simp [settled],[],rfl⟩
    | cons m rest =>
      obtain ⟨hne,dropped,hrest⟩ := ih (by simp)
      rw [settled]
      · split_ifs
        · exact ⟨hne,n :: dropped,congrArg (n :: ·) hrest⟩
        · exact ⟨by simp,[],rfl⟩
      · simp

lemma ofReversed_of_ne (h : names ≠ []) (hroot : names ≠ [[]]) :
    ofReversed names = String.ofList (Text.joined ['/'] names.reverse) := by
  unfold ofReversed
  split
  · exact absurd rfl h
  · exact absurd rfl hroot
  · rfl

/-- What a path begins with starts where the path starts. -/
lemma isRooted_of_begins (h : q.toList <+: p.toList) (hq : q.toList ≠ []) :
    q.isRooted = p.isRooted := by
  obtain ⟨r,hr⟩ := h
  obtain ⟨c,cs,hcs⟩ := List.exists_cons_of_ne_nil hq
  rw [isRooted, isRooted, ← hr, hcs, List.cons_append, List.head?_cons, List.head?_cons]

lemma isUsable_of_begins (h : q.toList <+: p.toList) (hp : p.isUsable = true) :
    q.isUsable = true := by
  obtain ⟨r,hr⟩ := h
  have hp' : p = q ++ String.ofList r := by
    rw [← String.toList_inj, String.toList_append, String.toList_ofList, hr]
  rw [hp', isUsable, Bool.and_eq_true, decide_eq_true_iff, String.utf8ByteSize_append,
    String.toList_append] at hp
  rw [isUsable, Bool.and_eq_true, decide_eq_true_iff]
  refine ⟨by omega,?_⟩
  have hzero := hp.2
  simp only [Bool.not_eq_true', List.contains_eq_mem, decide_eq_false_iff_not, List.mem_append,
    not_or] at hzero ⊢
  exact hzero.1

/-- The directory above a file, by the way to it: some of the names above the file. -/
structure IsAbove (p q : Path) (names : List (List Char)) : Prop where
  rooted : q.isRooted = p.isRooted
  usable : p.isUsable = true → q.isUsable = true
  way : names <+: p.pieces.dropLast
  make : ∀ (t : FileTree) d, t.make d q.pieces = t.make d names

lemma isAbove_nil (hp : p.pieces = [n]) (hn : n ≠ []) : IsAbove p "" [] := by
  have htext : p.toList = n := by
    rw [← Text.joined_pieces '/' p.toList, ← pieces, hp]
    rfl
  refine ⟨?_,fun _ => by decide, List.nil_prefix,fun t d => rfl⟩
  obtain ⟨c,cs,rfl⟩ := List.exists_cons_of_ne_nil hn
  have hslash : '/' ∉ c :: cs :=
    Text.not_mem_of_mem_pieces (hp ▸ List.mem_singleton_self _ : c :: cs ∈ p.pieces)
  rw [List.mem_cons, not_or] at hslash
  rw [isRooted, isRooted, htext]
  simpa using Ne.symm hslash.1

/-- What is left of a path after some of its names are dropped leads along the names that stay. -/
lemma isAbove_ofReversed (hp : p.pieces = names.reverse ++ dropped ++ [n]) (hne : names ≠ []) :
    IsAbove p (ofReversed names) names.reverse := by
  have hway : names.reverse <+: p.pieces.dropLast := by
    rw [hp, List.dropLast_concat]
    exact List.prefix_append ..
  have hbegins : Text.joined ['/'] names.reverse ++ ['/'] <+: p.toList := by
    rw [← Text.joined_pieces '/' p.toList, ← pieces, hp, List.append_assoc,
      Text.joined_append _ (by simpa using hne) (by simp)]
    exact List.prefix_append ..
  by_cases hroot : names = [[]]
  · rw [hroot] at hway hbegins ⊢
    exact ⟨isRooted_of_begins hbegins (by decide),isUsable_of_begins hbegins,hway,fun t d => rfl⟩
  · have hslash : ∀ es ∈ names.reverse, '/' ∉ es := fun es hes =>
      Text.not_mem_of_mem_pieces (List.dropLast_subset _ (hway.subset hes))
    have htext := congrArg String.toList (ofReversed_of_ne hne hroot)
    rw [String.toList_ofList] at htext
    have hpieces : (ofReversed names).pieces = names.reverse := by
      rw [pieces, htext, Text.pieces_joined (by simpa using hne) hslash]
    have hshort : (ofReversed names).toList <+: p.toList :=
      htext ▸ (List.prefix_append _ _).trans hbegins
    refine ⟨isRooted_of_begins hshort fun hempty => hroot ?_,isUsable_of_begins hshort,hway,
      fun t d => by rw [hpieces]⟩
    rw [pieces, hempty] at hpieces
    rw [← List.reverse_reverse names, ← hpieces]
    rfl

/-- Does a path end in a name of more than dots? -/
def EndsInName (p : Path) : Prop := ∃ above n, p.pieces = above ++ [n] ∧ 2 < n.length

/-- A file with a name of its own has a directory above it. -/
theorem EndsInName.exists_parent (h : EndsInName p) :
    ∃ q names, p.parent? = some q ∧ IsAbove p q names := by
  obtain ⟨above,n,hp,hn⟩ := h
  have hsettled : settled p.pieces.reverse = n :: above.reverse := by
    rw [hp, List.reverse_append, List.reverse_singleton, List.singleton_append, settled_of_long hn]
  have hne : n ≠ [] := by
    rintro rfl
    simp at hn
  obtain ⟨c,cs,rfl⟩ := List.exists_cons_of_ne_nil hne
  cases habove : above.reverse with
  | nil =>
    rw [List.reverse_eq_nil_iff.mp habove] at hp
    exact ⟨"",[],by rw [parent?, hsettled, habove],isAbove_nil hp hne⟩
  | cons m rest =>
    obtain ⟨hkept,dropped,hdropped⟩ := exists_settled (List.cons_ne_nil m rest)
    have hpieces : p.pieces = (settled (m :: rest)).reverse ++ dropped.reverse ++ [c :: cs] := by
      rw [hp, ← List.reverse_append, ← hdropped, ← habove, List.reverse_reverse]
    exact ⟨_,_,by rw [parent?, hsettled, habove],isAbove_ofReversed hpieces hkept⟩

end Path
end OrderFlow
