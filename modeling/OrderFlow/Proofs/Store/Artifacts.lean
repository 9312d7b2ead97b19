import OrderFlow.Proofs.Files.Siblings
import OrderFlow.Proofs.Files.Writing
import OrderFlow.Store.Models

/-! The files of a trained model do not get in each other's way: those of one symbol have names of
their own in one directory, and writing one leaves the others as they are. -/
namespace OrderFlow

namespace Artifact

lemma isEnding (a : Artifact) : Path.IsEnding a.ending := by cases a <;> decide

lemma ending_inj {a b : Artifact} : a.ending = b.ending ↔ a = b := by
  cases a <;> cases b <;> decide

end Artifact

namespace ModelStore
open FileTree
variable {s : ModelStore} {symbol : String} {a b : Artifact} {t t' : FileTree} {q : Place}
  {e : Entry} {c : Content}

lemma isRooted_append_ending :
    Path.isRooted (symbol ++ a.ending) = Path.isRooted symbol := by
  rw [Path.isRooted, Path.isRooted, String.toList_append]
  cases symbol.toList with
  | nil => cases a <;> decide
  | cons first rest => rfl

/-- The paths of one symbol differ only in how they end. -/
theorem exists_path_eq (s : ModelStore) (symbol : String) :
    ∃ base, ∀ a, s.path a symbol = base ++ a.ending := by
  simp only [path, Path.join, isRooted_append_ending]
  split_ifs
  · exact ⟨symbol,fun _ => rfl⟩
  · exact ⟨s.directory ++ symbol,fun a => (String.append_assoc ..).symm⟩
  · exact ⟨s.directory ++ "/" ++ symbol,fun a => (String.append_assoc ..).symm⟩

theorem eq_of_place? (ha : t.place? (s.path a symbol) = some q)
    (hb : t'.place? (s.path b symbol) = some q) : a = b := by
  obtain ⟨base,hpath⟩ := exists_path_eq s symbol
  rw [hpath] at ha hb
  exact Artifact.ending_inj.mp (ending_eq_of_place? a.isEnding b.isEnding ha hb)

/-- Writing one of the files leaves another one as it is. -/
theorem get?_of_writes (hne : a ≠ b) (h : Writes t (s.path b symbol) c t')
    (ha : t.get? (s.path a symbol) = some e) : t'.get? (s.path a symbol) = some e := by
  rw [get?, Option.bind_eq_some_iff] at ha ⊢
  obtain ⟨q,hplace,hq⟩ := ha
  have hplace' := h.grows.place? hplace
  exact ⟨q,hplace',h.kept q e hq fun hb => hne (eq_of_place? hplace' hb)⟩

end ModelStore
end OrderFlow
