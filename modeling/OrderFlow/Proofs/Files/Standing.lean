import OrderFlow.Proofs.Files.Parents
import OrderFlow.Proofs.Files.Writing

/-! Writing where the directory stands already. No directory is made then, so every path leads where
it led before, and nothing but the one file changes, whether it can be written or not. -/
namespace OrderFlow
open Storing

namespace FileTree
variable {t t' t'' : FileTree} {p : Path} {c : Content} {q d : Place} {names : List (List Char)}

/-- Two trees with the same directories. -/
structure SameDirectories (t t' : FileTree) : Prop where
  grows : Grows t t'
  shrinks : Grows t' t

lemma SameDirectories.refl (t : FileTree) : SameDirectories t t := ⟨.refl t,.refl t⟩

lemma SameDirectories.trans (h : SameDirectories t t') (h' : SameDirectories t' t'') :
    SameDirectories t t'' :=
  ⟨h.grows.trans h'.grows,h'.shrinks.trans h.shrinks⟩

/-- A path leads to the same place where the directories are the same. -/
theorem SameDirectories.place? (h : SameDirectories t t') (p : Path) :
    t'.place? p = t.place? p :=
  Option.ext fun _ => ⟨h.shrinks.place?,h.grows.place?⟩

lemma SameDirectories.isDirectoryAt (h : SameDirectories t t') (q : Place) :
    t'.isDirectoryAt q = t.isDirectoryAt q :=
  Bool.eq_iff_iff.mpr ⟨h.shrinks.directory q,h.grows.directory q⟩

lemma sameDirectories_of_write? (h : t.write? p c = some t') : SameDirectories t t' := by
  have hgrows := grows_of_write? h
  obtain ⟨name,d,-,-,rfl⟩ := write?_eq_some_iff.mp h
  refine ⟨hgrows,hgrows.start.symm,fun q hq => ?_⟩
  rw [isDirectoryAt_iff, at?_put (by simp)] at hq
  split_ifs at hq
  · cases hq
  · exact isDirectoryAt_iff.mpr hq

/-- May any content be written under a path? -/
def Takes (t : FileTree) (p : Path) : Prop := ∀ c, (t.write? p c).isSome = true

theorem takes_iff :
    t.Takes p ↔ ∃ name d, t.place? p = some (name :: d) ∧ t.IsOpen name d := by
  constructor
  · intro h
    obtain ⟨t',hwrite⟩ := Option.isSome_iff_exists.mp (h (.text ""))
    obtain ⟨name,d,hplace,hopen,-⟩ := write?_eq_some_iff.mp hwrite
    exact ⟨name,d,hplace,hopen⟩
  · rintro ⟨name,d,hplace,hopen⟩ c
    exact Option.isSome_iff_exists.mpr ⟨_,write?_eq_some_iff.mpr ⟨name,d,hplace,hopen,rfl⟩⟩

theorem SameDirectories.takes (h : SameDirectories t t') (htakes : t.Takes p) : t'.Takes p := by
  obtain ⟨name,d,hplace,hopen⟩ := FileTree.takes_iff.mp htakes
  refine FileTree.takes_iff.mpr ⟨name,d,(h.place? p).trans hplace,hopen.named,?_,?_⟩
  · rw [h.isDirectoryAt, hopen.within]
  · rw [h.isDirectoryAt, hopen.free]

/-- The directory above a path stands. -/
def StandsAbove (t : FileTree) (p : Path) : Prop :=
  ∃ d, t.follow (t.origin p) p.pieces.dropLast = some d ∧ t.isDirectoryAt d = true

lemma isUsable_of_place? (h : t.place? p = some q) : p.isUsable = true := by
  rw [place?] at h
  split_ifs at h with hrefused
  rw [Bool.or_eq_true, not_or, Bool.not_eq_true', Bool.not_eq_false] at hrefused
  exact hrefused.2

/-- Where a file can be written, the directory above it stands. -/
theorem Takes.standsAbove (h : t.Takes p) : t.StandsAbove p := by
  obtain ⟨name,d,hplace,-⟩ := takes_iff.mp h
  rw [place?] at hplace
  split_ifs at hplace
  have hpieces := List.dropLast_concat_getLast (Text.pieces_ne_nil '/' p.toList)
  rw [Path.pieces, ← hpieces, follow_append, Option.bind_eq_some_iff] at hplace
  obtain ⟨above,hfollow,hlast⟩ := hplace
  refine ⟨above,hfollow,?_⟩
  cases habove : t.isDirectoryAt above with
  | true => rfl
  | false => simp [follow, habove] at hlast

/-- What leads on to a directory is one. -/
lemma isDirectoryAt_of_follow (h : t.follow q names = some d) (hd : t.isDirectoryAt d = true) :
    t.isDirectoryAt q = true := by
  cases names with
  | nil => exact Option.some.inj h ▸ hd
  | cons n rest =>
    cases hq : t.isDirectoryAt q with
    | true => rfl
    | false => simp [follow, hq] at h

/-- Nothing is made along names that lead to a directory. -/
theorem make_of_follow (h : t.follow q names = some d) (hd : t.isDirectoryAt d = true) :
    t.make q names = (true,t) := by
  induction names generalizing q with
  | nil => rfl
  | cons n rest ih =>
    have hq := isDirectoryAt_of_follow h hd
    rw [follow, hq, Bool.not_true, if_neg (by decide)] at h
    rw [make]
    split_ifs at h ⊢ with hsame hup
    · exact ih h
    · exact ih h
    · have hnext := isDirectoryAt_iff.mp (isDirectoryAt_of_follow h hd)
      simp only [hnext]
      exact ih h

/-- The directory above a file is not made again. -/
theorem makeDirectories_of_standsAbove {above : Path} (h : t.StandsAbove p)
    (habove : Path.IsAbove p above names) : t.makeDirectories above = (above.isUsable,t) := by
  obtain ⟨d,hfollow,hd⟩ := h
  obtain ⟨more,hmore⟩ := habove.way
  rw [← hmore, follow_append, Option.bind_eq_some_iff] at hfollow
  obtain ⟨d',hnames,hrest⟩ := hfollow
  have hmake := make_of_follow hnames (isDirectoryAt_of_follow hrest hd)
  rw [makeDirectories, habove.make, origin, habove.rooted, ← origin, hmake]
  cases above.isUsable <;> rfl

/-- A tree after an attempt to write one file: it has the directories it had, all else stands as it
did, and the file is found where the path takes one. -/
structure Attempts (t : FileTree) (p : Path) (c : Content) (t' : FileTree) : Prop where
  directories : SameDirectories t t'
  kept : ∀ q, t.place? p ≠ some q → t'.at? q = t.at? q
  found : t.Takes p → t'.get? p = some (.file c)

lemma attempts_of_not_takes (h : ¬ t.Takes p) : Attempts t p c t :=
  ⟨.refl t,fun _ _ => rfl,fun htakes => absurd htakes h⟩

lemma attempts_of_write? (h : t.write? p c = some t') : Attempts t p c t' :=
  ⟨sameDirectories_of_write? h,fun _ => at?_of_write? h,fun _ => get?_of_write? h⟩

end FileTree

namespace JsonFile
open FileTree
variable {t t' : FileTree} {p : Path} {c : Content} {j : Json}

theorem attempts_create : Attempts t p c (result (create p c) t).2 := by
  rw [create, result_change]
  cases hwrite : t.write? p c with
  | none =>
    refine attempts_of_not_takes fun htakes => ?_
    have hsome := htakes c
    rw [hwrite] at hsome
    cases hsome
  | some t' => exact attempts_of_write? hwrite

lemma exists_create (h : t.Takes p) (c : Content) : ∃ t', Succeeds (create p c) t () t' := by
  obtain ⟨t',hwrite⟩ := Option.isSome_iff_exists.mp (h c)
  exact ⟨t',succeeds_change_iff.mpr hwrite⟩

/-- Where the directory above a file stands, it is left as it is. -/
lemma makeParents_of_standsAbove (hp : p.EndsInName) (h : t.StandsAbove p) :
    (result (makeParents p) t).2 = t ∧
      (p.isUsable = true → Succeeds (makeParents p) t () t) := by
  obtain ⟨above,names,hparent,habove⟩ := hp.exists_parent
  have hmake := makeDirectories_of_standsAbove h habove
  rw [makeParents, hparent]
  refine ⟨congrArg Prod.snd hmake,fun husable => ?_⟩
  rw [succeeds_changeThrough_iff, hmake, habove.usable husable]

lemma exists_write (hp : p.EndsInName) (h : t.Takes p) (j : Json) :
    ∃ t', Succeeds (write p j) t () t' := by
  obtain ⟨name,d,hplace,-⟩ := takes_iff.mp h
  have hparents :=
    (makeParents_of_standsAbove hp h.standsAbove).2 (isUsable_of_place? hplace)
  obtain ⟨t',hcreate⟩ := exists_create h (.text j.toIndentedText)
  exact ⟨t',succeeds_bind_iff.mpr ⟨(),t,hparents,hcreate⟩⟩

theorem attempts_write (hp : p.EndsInName) (h : t.StandsAbove p) :
    Attempts t p (.text j.toIndentedText) (result (write p j) t).2 := by
  have hparents := makeParents_of_standsAbove hp h
  rw [write, result_bind]
  rcases hresult : result (makeParents p) t with ⟨e | ⟨⟩,t₁⟩
  · rw [hresult] at hparents
    obtain rfl : t₁ = t := hparents.1
    refine attempts_of_not_takes fun htakes => ?_
    obtain ⟨name,d,hplace,-⟩ := takes_iff.mp htakes
    have hmade := hparents.2 (isUsable_of_place? hplace)
    rw [Succeeds, hresult] at hmade
    cases hmade
  · rw [hresult] at hparents
    obtain rfl : t₁ = t := hparents.1
    exact attempts_create

end JsonFile
end OrderFlow
