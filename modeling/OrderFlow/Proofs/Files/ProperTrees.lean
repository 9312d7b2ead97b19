import OrderFlow.Proofs.Files.Growth
import OrderFlow.Proofs.Lookup
import OrderFlow.Proofs.Text.Pieces

/-! Proper trees. In a proper tree every place stands once, under a proper name and in a directory.
Making directories and writing files keep a tree proper, and so does holding what stands in it in
another order. -/
namespace OrderFlow

/-- Can something in a directory have this name? -/
def Path.IsEntryName (n : String) : Prop := '/' ∉ n.toList ∧ n ∉ ["",".",".."]

instance (n : String) : Decidable (Path.IsEntryName n) := inferInstanceAs (Decidable (_ ∧ _))

lemma Path.isEntryName_ofList {cs : List Char} (hslash : '/' ∉ cs)
    (hsame : ¬(cs = [] ∨ cs = ['.'])) (hup : cs ≠ ['.','.']) : IsEntryName (String.ofList cs) := by
  refine ⟨by rwa [String.toList_ofList],fun hmem => ?_⟩
  have hspecial (s : String) (h : String.ofList cs = s) : cs = s.toList := by
    rw [← h, String.toList_ofList]
  simp only [List.mem_cons, List.not_mem_nil, or_false] at hmem
  rcases hmem with h | h | h
  · exact hsame (.inl (hspecial _ h))
  · exact hsame (.inr (hspecial _ h))
  · exact hup (hspecial _ h)

namespace FileTree
variable {t t' : FileTree} {p : Path} {c : Content} {n : String} {q d : Place} {e : Entry}
  {f : Place × Entry} {es : List (Place × Entry)} {names : List (List Char)}

/-- Does every place stand once, under a proper name and in a directory? -/
structure IsTree (t : FileTree) : Prop where
  once : (t.entries.map Prod.fst).Nodup
  named : ∀ e ∈ t.entries, ∀ n ∈ e.1, Path.IsEntryName n
  within : ∀ e ∈ t.entries, t.isDirectoryAt e.1.tail = true

lemma isSome_at?_iff (n : String) (d : Place) :
    (t.at? (n :: d)).isSome = true ↔ n :: d ∈ t.entries.map Prod.fst := by
  have hlookup : t.at? (n :: d) = t.entries.lookup (n :: d) := rfl
  rw [hlookup, List.lookup_isSome_iff, List.mem_map]
  simp only [beq_iff_eq]
  exact exists_congr fun e => and_congr_right fun _ => eq_comm

lemma IsTree.isEntryName (h : t.IsTree) (hn : (t.at? (n :: d)).isSome = true) :
    Path.IsEntryName n := by
  obtain ⟨e,he,heq⟩ := List.mem_map.mp ((isSome_at?_iff n d).mp hn)
  exact h.named e he n (heq ▸ List.mem_cons_self)

lemma IsTree.isDirectoryAt_of_at? (h : t.IsTree) (hn : (t.at? (n :: d)).isSome = true) :
    t.isDirectoryAt d = true := by
  obtain ⟨e,he,heq⟩ := List.mem_map.mp ((isSome_at?_iff n d).mp hn)
  have hwithin := h.within e he
  rwa [heq] at hwithin

/-- A tree may hold what stands in it in any order. -/
theorem IsTree.at?_perm (h : t.IsTree) (hperm : t'.entries.Perm t.entries) (q : Place) :
    t'.at? q = t.at? q := by
  rw [at?, at?, lookup_perm h.once hperm]

lemma isDirectoryAt_congr (h : t'.at? q = t.at? q) : t'.isDirectoryAt q = t.isDirectoryAt q := by
  rw [isDirectoryAt, isDirectoryAt, h]

theorem IsTree.perm (h : t.IsTree) (hperm : t'.entries.Perm t.entries) : t'.IsTree where
  once := (hperm.map Prod.fst).nodup_iff.mpr h.once
  named e he := h.named e (hperm.subset he)
  within e he := (isDirectoryAt_congr (h.at?_perm hperm _)).trans (h.within e (hperm.subset he))

lemma isSome_at?_of_isDirectoryAt (hd : t.isDirectoryAt d = true) : (t.at? d).isSome = true := by
  rw [isDirectoryAt_iff.mp hd]
  rfl

lemma IsTree.isDirectoryAt_tail (h : t.IsTree) (hd : t.isDirectoryAt d = true) :
    t.isDirectoryAt d.tail = true := by
  cases d with
  | nil => rfl
  | cons m rest => exact h.isDirectoryAt_of_at? (isSome_at?_of_isDirectoryAt hd)

/-- The names that lead to a directory are proper. -/
lemma IsTree.isEntryName_of_mem (h : t.IsTree) (hd : t.isDirectoryAt d = true) :
    ∀ n ∈ d, Path.IsEntryName n := by
  induction d with
  | nil => exact List.forall_mem_nil _
  | cons m rest ih =>
    have hstands := isSome_at?_of_isDirectoryAt hd
    exact List.forall_mem_cons.mpr ⟨h.isEntryName hstands,ih (h.isDirectoryAt_of_at? hstands)⟩

lemma mem_setAt (h : f ∈ setAt q e es) : f = (q,e) ∨ f ∈ es := by
  induction es with
  | nil => exact .inl (List.mem_singleton.mp h)
  | cons g rest ih =>
    rw [setAt] at h
    split_ifs at h with hg
    · exact (List.mem_cons.mp h).imp_right (List.mem_cons_of_mem g)
    · rcases List.mem_cons.mp h with rfl | h
      · exact .inr List.mem_cons_self
      · exact (ih h).imp_right (List.mem_cons_of_mem g)

lemma map_fst_setAt (q : Place) (e : Entry) (es : List (Place × Entry)) :
    (setAt q e es).map Prod.fst =
      if q ∈ es.map Prod.fst then es.map Prod.fst else es.map Prod.fst ++ [q] := by
  induction es with
  | nil => rfl
  | cons g rest ih =>
    rw [setAt]
    split_ifs with hg hmem hmem
    · rw [List.map_cons, List.map_cons, hg]
    · exact absurd (List.mem_cons.mpr (.inl hg.symm)) hmem
    · rw [List.map_cons, List.map_cons, ih,
        if_pos ((List.mem_cons.mp hmem).resolve_left (Ne.symm hg))]
    · rw [List.map_cons, List.map_cons, ih,
        if_neg fun hrest => hmem (List.mem_cons_of_mem _ hrest), List.cons_append]

/-- What is put into a directory under a proper name, and over no directory, keeps a tree proper. -/
theorem IsTree.put (h : t.IsTree) (hn : Path.IsEntryName n) (hd : t.isDirectoryAt d = true)
    (hfree : t.isDirectoryAt (n :: d) = false) : (t.put (n :: d) e).IsTree where
  once := by
    rw [FileTree.put, map_fst_setAt]
    split_ifs with hmem
    · exact h.once
    · exact List.nodup_append.mpr ⟨h.once,List.nodup_singleton _,by grind⟩
  named f hf := by
    rcases mem_setAt hf with rfl | hf
    · exact List.forall_mem_cons.mpr ⟨hn,h.isEntryName_of_mem hd⟩
    · exact h.named f hf
  within f hf := by
    have hwithin : t.isDirectoryAt f.1.tail = true := by
      rcases mem_setAt hf with rfl | hf
      · exact hd
      · exact h.within f hf
    exact (grows_put hfree).directory _ hwithin

/-- Names that lead to no directory end in a proper one. -/
lemma IsTree.isEntryName_of_follow (h : t.IsTree) (hnames : ∀ cs ∈ names, '/' ∉ cs)
    (hlast : names = [] → t.isDirectoryAt q = false → ∀ m ∈ q.head?, Path.IsEntryName m)
    (hfollow : t.follow q names = some (n :: d)) (hfree : t.isDirectoryAt (n :: d) = false) :
    Path.IsEntryName n := by
  -- Every step starts in a directory, so only the last name can lead to something else.
  induction names generalizing q with
  | nil =>
    obtain rfl := Option.some.inj hfollow
    exact hlast rfl hfree n rfl
  | cons cs rest ih =>
    have hrest : ∀ cs ∈ rest, '/' ∉ cs := fun cs hcs => hnames cs (List.mem_cons_of_mem _ hcs)
    rw [follow] at hfollow
    split_ifs at hfollow with hdirectory hsame hup
    all_goals rw [Bool.not_eq_true, Bool.not_eq_false'] at hdirectory
    · refine ih hrest (fun _ hno => ?_) hfollow
      exact absurd hdirectory (by simp [hno])
    · refine ih hrest (fun _ hno => ?_) hfollow
      exact absurd (h.isDirectoryAt_tail hdirectory) (by simp [hno])
    · refine ih hrest (fun _ _ m hm => ?_) hfollow
      obtain rfl := Option.some.inj hm
      exact Path.isEntryName_ofList (hnames cs List.mem_cons_self) hsame hup

theorem IsTree.write? (h : t.IsTree) (hwrite : t.write? p c = some t') : t'.IsTree := by
  obtain ⟨n,d,hplace,hopen,rfl⟩ := write?_eq_some_iff.mp hwrite
  rw [place?] at hplace
  split_ifs at hplace
  have hpieces : ∀ cs ∈ p.pieces, '/' ∉ cs := fun cs => Text.not_mem_of_mem_pieces
  have hnamed := h.isEntryName_of_follow hpieces (fun hnil => absurd hnil (Text.pieces_ne_nil '/' p.toList))
    hplace hopen.free
  exact h.put hnamed hopen.within hopen.free

lemma IsTree.make (h : t.IsTree) (hd : t.isDirectoryAt d = true)
    (hnames : ∀ cs ∈ names, '/' ∉ cs) : (t.make d names).2.IsTree := by
  induction names generalizing t d with
  | nil => exact h
  | cons cs rest ih =>
    have hrest : ∀ cs ∈ rest, '/' ∉ cs := fun cs hcs => hnames cs (List.mem_cons_of_mem _ hcs)
    rw [FileTree.make]
    split_ifs with hsame hup
    · exact ih h hd hrest
    · exact ih h (h.isDirectoryAt_tail hd) hrest
    · have hnamed := Path.isEntryName_ofList (hnames cs List.mem_cons_self) hsame hup
      dsimp only
      split
      case h_1 hnone =>
        have hfree : t.isDirectoryAt (String.ofList cs :: d) = false := by
          rw [isDirectoryAt, hnone]
        split_ifs
        · refine ih (h.put hnamed hd hfree) ?_ hrest
          rw [isDirectoryAt_iff, at?_put (by simp), if_pos rfl]
        · exact h
      case h_2 hdirectory => exact ih h (isDirectoryAt_iff.mpr hdirectory) hrest
      case h_3 => exact h

/-- Making directories keeps a tree proper in which relative paths start somewhere. -/
theorem IsTree.makeDirectories (h : t.IsTree) (hstart : t.isDirectoryAt t.start = true) :
    (t.makeDirectories p).2.IsTree := by
  rw [FileTree.makeDirectories]
  split_ifs
  · refine h.make ?_ fun cs => Text.not_mem_of_mem_pieces
    rw [origin]
    split_ifs
    · rfl
    · exact hstart
  · exact h

end FileTree
end OrderFlow
