import Mathlib.Tactic.Lemma
import Mathlib.Tactic.SplitIfs
import OrderFlow.Files.Tree

/-! How a tree grows when directories are made and files are written. What was a directory stays
one, so a path leads where it led before, and only the file that is written changes. -/
namespace OrderFlow.FileTree
variable {t t' t'' : FileTree} {p : Path} {c : Content} {q d : Place} {e : Entry}
  {names : List (List Char)}

lemma isDirectoryAt_iff : t.isDirectoryAt q = true ↔ t.at? q = some .directory := by
  rw [isDirectoryAt]
  split <;> simp_all

/-- Every directory of a tree is one of the other. -/
structure Grows (t t' : FileTree) : Prop where
  start : t'.start = t.start
  directory : ∀ q, t.isDirectoryAt q = true → t'.isDirectoryAt q = true

lemma Grows.refl (t : FileTree) : Grows t t := ⟨rfl,fun _ h => h⟩

lemma Grows.trans (h : Grows t t') (h' : Grows t' t'') : Grows t t'' :=
  ⟨h'.start.trans h.start,fun q hq => h'.directory q (h.directory q hq)⟩

/-- Names lead to the same place in a grown tree. -/
theorem Grows.follow (h : Grows t t') (hq : t.follow d names = some q) :
    t'.follow d names = some q := by
  induction names generalizing d with
  | nil => exact hq
  | cons n rest ih =>
    cases hd : t.isDirectoryAt d with
    | false => simp [FileTree.follow, hd] at hq
    | true =>
      simp only [FileTree.follow, hd, h.directory d hd, Bool.not_true, Bool.false_eq_true,
        if_false] at hq ⊢
      split_ifs at hq ⊢ with hsame hup
      · exact ih hq
      · exact ih hq
      · exact ih hq

theorem Grows.place? (h : Grows t t') (hq : t.place? p = some q) : t'.place? p = some q := by
  rw [FileTree.place?] at hq ⊢
  split_ifs at hq ⊢ with hp
  rw [origin, h.start]
  exact h.follow hq

/-- May a file of this name stand in the directory, over nothing or another file? -/
structure IsOpen (t : FileTree) (name : String) (d : Place) : Prop where
  named : Path.isName name = true
  within : t.isDirectoryAt d = true
  free : t.isDirectoryAt (name :: d) = false

theorem write?_eq_some_iff : t.write? p c = some t' ↔
    ∃ name d, t.place? p = some (name :: d) ∧ t.IsOpen name d ∧
      t' = t.put (name :: d) (.file c) := by
  simp only [write?, Option.bind_eq_bind, Option.bind_eq_some_iff]
  constructor
  · rintro ⟨place,hplace,h⟩
    cases place with
    | nil => cases h
    | cons name d =>
      dsimp only at h
      split_ifs at h with hopen
      simp only [Bool.and_eq_true, Bool.not_eq_true'] at hopen
      exact ⟨name,d,hplace,⟨hopen.1.1,hopen.1.2,hopen.2⟩,(Option.some.inj h).symm⟩
  · rintro ⟨name,d,hplace,hopen,rfl⟩
    refine ⟨_,hplace,if_pos ?_⟩
    rw [hopen.named, hopen.within, hopen.free]
    rfl

lemma grows_put {name : String} (hfree : t.isDirectoryAt (name :: d) = false) :
    Grows t (t.put (name :: d) e) := by
  refine ⟨rfl,fun q hq => ?_⟩
  rw [isDirectoryAt_iff] at hq ⊢
  rw [at?_put (by simp), if_neg, hq]
  rintro rfl
  exact Bool.noConfusion (hfree.symm.trans (isDirectoryAt_iff.mpr hq))

theorem grows_of_write? (h : t.write? p c = some t') : Grows t t' := by
  obtain ⟨name,d,-,hopen,rfl⟩ := write?_eq_some_iff.mp h
  exact grows_put hopen.free

/-- What is written is found under its path. -/
theorem get?_of_write? (h : t.write? p c = some t') : t'.get? p = some (.file c) := by
  have hgrows := grows_of_write? h
  obtain ⟨name,d,hplace,-,rfl⟩ := write?_eq_some_iff.mp h
  rw [get?, hgrows.place? hplace, Option.bind_some, at?_put (by simp), if_pos rfl]

/-- What stands elsewhere is not touched by a writing. -/
theorem at?_of_write? (h : t.write? p c = some t') (hq : t.place? p ≠ some q) :
    t'.at? q = t.at? q := by
  obtain ⟨name,d,hplace,-,rfl⟩ := write?_eq_some_iff.mp h
  rw [at?_put (by simp), if_neg]
  rintro rfl
  exact hq hplace

/-- Making directories keeps what putting one where nothing stands keeps. -/
theorem make_induction {P : FileTree → Prop}
    (hput : ∀ t name d, t.at? (name :: d) = none → P t → P (t.put (name :: d) .directory))
    (h : P t) : P (t.make d names).2 := by
  induction names generalizing t d with
  | nil => exact h
  | cons n rest ih =>
    rw [make]
    split_ifs with hsame hup
    · exact ih h
    · exact ih h
    · dsimp only
      split
      case h_1 hnone =>
        split_ifs with hname
        · exact ih (hput t _ d hnone h)
        · exact h
      case h_2 => exact ih h
      case h_3 => exact h

/-- Making directories changes nothing that stands. -/
lemma at?_make (h : t.at? q = some e) : (t.make d names).2.at? q = some e := by
  refine make_induction (P := fun t => t.at? q = some e) (fun t name d hnone hq => ?_) h
  rw [at?_put (by simp), if_neg, hq]
  rintro rfl
  rw [hq] at hnone
  cases hnone

lemma start_make : (t.make d names).2.start = t.start :=
  make_induction (P := fun t' => t'.start = t.start) (fun _ _ _ _ hstart => hstart) rfl

theorem grows_make : Grows t (t.make d names).2 :=
  ⟨start_make,fun _ hq => isDirectoryAt_iff.mpr (at?_make (isDirectoryAt_iff.mp hq))⟩

theorem grows_makeDirectories : Grows t (t.makeDirectories p).2 := by
  rw [makeDirectories]
  split_ifs
  · exact grows_make
  · exact .refl t

theorem at?_makeDirectories (h : t.at? q = some e) : (t.makeDirectories p).2.at? q = some e := by
  rw [makeDirectories]
  split_ifs
  · exact at?_make h
  · exact h

end OrderFlow.FileTree
