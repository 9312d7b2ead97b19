import OrderFlow.Proofs.Files.Standing
import OrderFlow.Proofs.Store.Artifacts

/-! The files of several symbols in one store. Symbols that are single names have their files side
by side, and no file is one of another kind or of another symbol. -/
namespace OrderFlow

namespace Path
variable {base name : String}

/-- Is a text one name, or the beginning of one? -/
def IsComponent (name : String) : Prop := '/' ∉ name.toList

instance (name : String) : Decidable (IsComponent name) := inferInstanceAs (Decidable (¬ _))

lemma isRooted_append (h : IsComponent name) : isRooted (base ++ name) = isRooted base := by
  rw [isRooted, isRooted, String.toList_append]
  cases base.toList with
  | cons first rest => rfl
  | nil =>
    cases hname : name.toList with
    | nil => rfl
    | cons first rest =>
      rw [IsComponent, hname, List.mem_cons, not_or] at h
      simpa using Ne.symm h.1

end Path

namespace Artifact
variable {a b : Artifact} {x y : String}

/-- No ending is the end of another. -/
lemma eq_of_suffix (h : a.ending.toList <:+ b.ending.toList) : a = b := by
  revert h
  cases a <;> cases b <;> decide

/-- A name that is a symbol and an ending is so in one way. -/
theorem append_ending_inj (h : x ++ a.ending = y ++ b.ending) : a = b ∧ x = y := by
  have hlists : x.toList ++ a.ending.toList = y.toList ++ b.ending.toList := by
    rw [← String.toList_append, h, String.toList_append]
  have ha : a.ending.toList <:+ x.toList ++ a.ending.toList := List.suffix_append ..
  have hb : b.ending.toList <:+ x.toList ++ a.ending.toList := hlists ▸ List.suffix_append ..
  obtain rfl : a = b := by
    rcases List.suffix_or_suffix_of_suffix ha hb with hab | hba
    · exact eq_of_suffix hab
    · exact (eq_of_suffix hba).symm
  exact ⟨rfl,String.toList_injective (List.append_cancel_right hlists)⟩

lemma isComponent_append (hx : Path.IsComponent x) : Path.IsComponent (x ++ a.ending) := by
  rw [Path.IsComponent, String.toList_append, List.mem_append, not_or]
  exact ⟨hx,a.isEnding.1⟩

lemma isEnding_append (hx : Path.IsComponent x) : Path.IsEnding (x ++ a.ending) := by
  refine ⟨isComponent_append hx,?_⟩
  rw [String.toList_append, List.length_append]
  exact Nat.lt_add_left _ a.isEnding.2

end Artifact

namespace ModelStore
open FileTree
variable {s : ModelStore} {a b : Artifact} {x y : String} {t t' : FileTree} {q : Place}

/-- The paths of all symbols differ only in what follows the directory. -/
theorem exists_base (s : ModelStore) :
    ∃ base, ∀ a x, Path.IsComponent x → s.path a x = base ++ (x ++ a.ending) := by
  have hrooted : ∀ (a : Artifact) x, Path.IsComponent x →
      Path.isRooted (x ++ a.ending) = false := fun a x hx => by
    rw [← String.empty_append (s := x ++ a.ending),
      Path.isRooted_append (Artifact.isComponent_append hx)]
    rfl
  cases hempty : s.directory.isEmpty with
  | true =>
    refine ⟨"",fun a x hx => ?_⟩
    simp [path, Path.join, hempty]
  | false =>
    cases hslash : s.directory.toList.getLast? == some '/' with
    | true =>
      refine ⟨s.directory,fun a x hx => ?_⟩
      simp [path, Path.join, hempty, hslash, hrooted a x hx]
    | false =>
      refine ⟨s.directory ++ "/",fun a x hx => ?_⟩
      simp [path, Path.join, hempty, hslash, hrooted a x hx]

/-- One path belongs to one kind of file of one symbol. -/
theorem path_inj (hx : Path.IsComponent x) (hy : Path.IsComponent y)
    (h : s.path a x = s.path b y) : a = b ∧ x = y := by
  obtain ⟨base,hpath⟩ := exists_base s
  rw [hpath a x hx, hpath b y hy] at h
  exact Artifact.append_ending_inj ((String.append_right_inj base).mp h)

/-- And so does one place, even in different trees. -/
theorem eq_and_eq_of_place? (hx : Path.IsComponent x) (hy : Path.IsComponent y)
    (ha : t.place? (s.path a x) = some q) (hb : t'.place? (s.path b y) = some q) :
    a = b ∧ x = y := by
  obtain ⟨base,hpath⟩ := exists_base s
  rw [hpath a x hx] at ha
  rw [hpath b y hy] at hb
  exact Artifact.append_ending_inj <|
    ending_eq_of_place? (Artifact.isEnding_append hx) (Artifact.isEnding_append hy) ha hb

/-- The names above the files are the same for all of them. -/
lemma exists_pieces_path (s : ModelStore) :
    ∃ above last, ∀ a x, Path.IsComponent x →
      (s.path a x).pieces = above ++ [last ++ (x ++ a.ending).toList] := by
  obtain ⟨base,hpath⟩ := exists_base s
  obtain ⟨above,last,hpieces⟩ := Text.exists_pieces_append '/' base.toList
  refine ⟨above,last,fun a x hx => ?_⟩
  rw [hpath a x hx, Path.pieces, String.toList_append]
  exact hpieces _ (Artifact.isComponent_append hx)

lemma endsInName_path (hx : Path.IsComponent x) : (s.path a x).EndsInName := by
  obtain ⟨above,last,hpieces⟩ := exists_pieces_path s
  refine ⟨above,_,hpieces a x hx,?_⟩
  rw [List.length_append]
  exact Nat.lt_add_left _ (Artifact.isEnding_append hx).2

/-- The directory stands above all files where it stands above one. -/
theorem standsAbove_path (hx : Path.IsComponent x) (hy : Path.IsComponent y)
    (h : t.StandsAbove (s.path a x)) : t.StandsAbove (s.path b y) := by
  obtain ⟨above,last,hpieces⟩ := exists_pieces_path s
  have horigin : t.origin (s.path a x) = t.origin (s.path b y) := by
    obtain ⟨base,hpath⟩ := exists_base s
    rw [hpath a x hx, hpath b y hy, origin, origin,
      Path.isRooted_append (Artifact.isComponent_append hx),
      Path.isRooted_append (Artifact.isComponent_append hy)]
  rw [StandsAbove, hpieces a x hx, List.dropLast_concat, horigin] at h
  rwa [StandsAbove, hpieces b y hy, List.dropLast_concat]

end ModelStore
end OrderFlow
