import OrderFlow.Proofs.Files.Growth
import OrderFlow.Proofs.Files.Steps
import OrderFlow.Store.JsonFile

/-! Steps that write one file. It is found as it was written, and what stood elsewhere stands. -/
namespace OrderFlow
open FileTree Storing
variable {t t' : FileTree} {p : Path} {c : Content} {j : Json}

/-- A tree after the writing of one file, with directories made where they were missing. -/
structure FileTree.Writes (t : FileTree) (p : Path) (c : Content) (t' : FileTree) : Prop where
  grows : Grows t t'
  found : t'.get? p = some (.file c)
  kept : ∀ q e, t.at? q = some e → t'.place? p ≠ some q → t'.at? q = some e

lemma FileTree.writes_of_write? (h : t.write? p c = some t') : Writes t p c t' := by
  have hgrows := grows_of_write? h
  refine ⟨hgrows,get?_of_write? h,fun q e hq hne => ?_⟩
  rw [at?_of_write? h, hq]
  exact fun hplace => hne (hgrows.place? hplace)

lemma FileTree.exists?_congr (h : t.get? p = t'.get? p) : t.exists? p = t'.exists? p := by
  rw [exists?, exists?, h]

lemma FileTree.content?_congr (h : t.get? p = t'.get? p) : t.content? p = t'.content? p := by
  rw [content?, content?, h]

namespace JsonFile

theorem writes_of_create (h : Succeeds (create p c) t () t') : Writes t p c t' :=
  writes_of_write? (succeeds_change_iff.mp h)

lemma grows_of_makeParents (h : Succeeds (makeParents p) t () t') :
    Grows t t' ∧ ∀ q e, t.at? q = some e → t'.at? q = some e := by
  rw [makeParents] at h
  split at h
  · obtain ⟨-,rfl⟩ := succeeds_pure_iff.mp h
    exact ⟨.refl t,fun _ _ hq => hq⟩
  · have hmade := congrArg Prod.snd (succeeds_changeThrough_iff.mp h)
    dsimp only at hmade
    rw [← hmade]
    exact ⟨grows_makeDirectories,fun _ _ hq => at?_makeDirectories hq⟩

theorem writes_of_write (h : Succeeds (write p j) t () t') :
    Writes t p (.text j.toIndentedText) t' := by
  obtain ⟨_,t₁,hparents,hcreate⟩ := succeeds_bind_iff.mp h
  obtain ⟨hgrows,hkept⟩ := grows_of_makeParents hparents
  have hwrites := writes_of_create hcreate
  exact ⟨hgrows.trans hwrites.grows,hwrites.found,
    fun q e hq hne => hwrites.kept q e (hkept q e hq) hne⟩

/-- A written value is read where its text reads back. -/
theorem read_of_found {α : Type} {ofJson? : Json → Option α} {a : α}
    (hfound : t.get? p = some (.file (.text j.toIndentedText)))
    (hread : (Json.parse? j.toIndentedText).bind ofJson? = some a) :
    read t p ofJson? = .ok a := by
  rw [read, exists?, hfound, Option.isSome_some, if_pos rfl, text?, content?, hfound]
  simp only [Option.bind_some, Content.text?, hread]

/-- What is read depends on what is found under the path alone. -/
lemma read_congr {α : Type} {ofJson? : Json → Option α} (h : t.get? p = t'.get? p) :
    read t p ofJson? = read t' p ofJson? := by
  rw [read, read, FileTree.exists?_congr h, FileTree.text?, FileTree.text?,
    FileTree.content?_congr h]

end JsonFile
end OrderFlow
