import OrderFlow.Proofs.Files.Growth
import OrderFlow.Proofs.Text.Pieces

/-! Files side by side: paths that begin alike and end in different names. They lead to different
places, whatever the tree. -/
namespace OrderFlow

/-- What a name may end in: more than dots, without a slash. -/
def Path.IsEnding (ending : String) : Prop := '/' ∉ ending.toList ∧ 2 < ending.toList.length

instance (ending : String) : Decidable (Path.IsEnding ending) :=
  inferInstanceAs (Decidable (_ ∧ _))

namespace FileTree
variable {t t' : FileTree} {q d : Place} {base ending ending' : String}

lemma follow_append (t : FileTree) (d : Place) (names names' : List (List Char)) :
    t.follow d (names ++ names') = (t.follow d names).bind (t.follow · names') := by
  induction names generalizing d with
  | nil => rfl
  | cons n rest ih =>
    simp only [List.cons_append, follow, ih]
    split_ifs <;> simp

lemma exists_of_follow_singleton {n : List Char} (hn : 2 < n.length)
    (h : t.follow d [n] = some q) : q = String.ofList n :: d := by
  simp only [follow] at h
  split_ifs at h with hd hsame hup
  · rcases hsame with rfl | rfl <;> simp at hn
  · rw [hup] at hn
    simp at hn
  · exact (Option.some.inj h).symm

/-- The place of a file is told by the end of its path. -/
theorem exists_place?_append (base : String) :
    ∃ last : List Char, ∀ t ending q, Path.IsEnding ending →
      place? t (base ++ ending) = some q → ∃ d, q = String.ofList (last ++ ending.toList) :: d := by
  obtain ⟨init,last,hpieces⟩ := Text.exists_pieces_append '/' base.toList
  refine ⟨last,fun t ending q hending h => ?_⟩
  rw [place?] at h
  split_ifs at h
  rw [Path.pieces, String.toList_append, hpieces _ hending.1, follow_append,
    Option.bind_eq_some_iff] at h
  obtain ⟨d,-,h⟩ := h
  refine ⟨d,exists_of_follow_singleton ?_ h⟩
  rw [List.length_append]
  exact Nat.lt_add_left _ hending.2

/-- Paths that begin alike lead to one place only where they end alike. -/
theorem ending_eq_of_place? (hending : Path.IsEnding ending) (hending' : Path.IsEnding ending')
    (h : t.place? (base ++ ending) = some q) (h' : t'.place? (base ++ ending') = some q) :
    ending = ending' := by
  obtain ⟨last,hlast⟩ := exists_place?_append base
  obtain ⟨d,rfl⟩ := hlast t ending q hending h
  obtain ⟨d',hq⟩ := hlast t' ending' _ hending' h'
  have hname := String.ofList_injective (List.cons.inj hq).1
  exact String.toList_injective (List.append_cancel_left hname)

end FileTree
end OrderFlow
